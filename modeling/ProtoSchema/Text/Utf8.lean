import ProtoSchema.Text.CodePoint

/-!
# Bytes of texts

UTF-8 in both directions. Reading cuts the bytes into pieces, each of them a code point or a fault
that names the bytes it covers. A strict reading stops at the first fault and a lenient one leaves
the faults out. A sequence is refused at the first byte that no code point has there, and the fault
covers the bytes before that one. Surrogates have no bytes in a strict encoding, and a fault names
the first run of them.
-/

namespace ProtoSchema.Utf8

/-- Why a byte begins no code point. -/
inductive Cause where
  | invalidStart
  | invalidContinuation
  | truncated
  deriving DecidableEq

/-- The bytes that begin no code point: where they stand, the first of them, how many, and why. -/
structure Fault where
  position : Nat
  first : UInt8
  count : Nat
  cause : Cause
  deriving DecidableEq

/-- How many bytes follow this first byte, if it may begin a code point. -/
def followers? (lead : Nat) : Option Nat :=
  if lead < 0x80 then some 0
  else if lead < 0xC2 then none
  else if lead < 0xE0 then some 1
  else if lead < 0xF0 then some 2
  else if lead < 0xF5 then some 3
  else none

/-- The bits that a first byte with this many followers contributes. -/
def leadBits (lead followers : Nat) : Nat :=
  match followers with
  | 0 => lead
  | 1 => lead - 0xC0
  | 2 => lead - 0xE0
  | _ => lead - 0xF0

/-- The least and the greatest second byte after this first byte. Overlong forms, surrogates and
numbers above the last code point are excluded here. -/
def secondBounds (lead : Nat) : Nat × Nat :=
  if lead = 0xE0 then (0xA0, 0xBF)
  else if lead = 0xED then (0x80, 0x9F)
  else if lead = 0xF0 then (0x90, 0xBF)
  else if lead = 0xF4 then (0x80, 0x8F)
  else (0x80, 0xBF)

/-- Read the followers of a sequence whose next byte lies in `bounds`. The error tells how many
bytes were good, the first one included. -/
def readFollowers (value : Nat) (bounds : Nat × Nat) (good : Nat) :
    Nat → List UInt8 → Except (Cause × Nat) Nat
  | 0, _ => .ok value
  | _ + 1, [] => .error (.truncated, good)
  | needed + 1, byte :: rest =>
      if bounds.1 ≤ byte.toNat && byte.toNat ≤ bounds.2 then
        readFollowers (value * 64 + byte.toNat % 64) (0x80, 0xBF) (good + 1) needed rest
      else .error (.invalidContinuation, good)

/-- Read the sequence that starts with this byte: the code point's number and how many bytes follow
the first one, or the cause and how many bytes the fault covers. -/
def readSequence (lead : UInt8) (rest : List UInt8) : Except (Cause × Nat) (Nat × Nat) :=
  match followers? lead.toNat with
  | none => .error (.invalidStart, 1)
  | some followers =>
      match readFollowers (leadBits lead.toNat followers) (secondBounds lead.toNat) 1
          followers rest with
      | .ok value => .ok (value, followers)
      | .error fault => .error fault

/-- The code point that stands for one that cannot be shown. -/
def replacement : CodePoint := ⟨0xFFFD, by decide⟩

/-- The pieces of the bytes from `position` on, of which the first `skip` belong to a piece that is
already read. -/
def piecesFrom (skip position : Nat) : List UInt8 → List (Except Fault CodePoint)
  | [] => []
  | byte :: rest =>
      match skip with
      | skip + 1 => piecesFrom skip (position + 1) rest
      | 0 =>
          match readSequence byte rest with
          | .ok (number, followers) =>
              .ok (CodePoint.ofNatOr replacement number) ::
                piecesFrom followers (position + 1) rest
          | .error (cause, count) =>
              .error ⟨position, byte, count, cause⟩ :: piecesFrom (count - 1) (position + 1) rest

/-- The text of the bytes, or the first fault. -/
def decode (bytes : List UInt8) : Except Fault Text :=
  (piecesFrom 0 0 bytes).mapM id

/-- The text of the bytes, without those that begin no code point. -/
def decodeLenient (bytes : List UInt8) : Text :=
  (piecesFrom 0 0 bytes).filterMap Except.toOption

/-- The bytes of one code point. -/
def encodeCodePoint (c : CodePoint) : List UInt8 :=
  let n := c.val
  if n < 0x80 then [n.toUInt8]
  else if n < 0x800 then [(0xC0 + n / 64).toUInt8, (0x80 + n % 64).toUInt8]
  else if n < 0x10000 then
    [(0xE0 + n / 4096).toUInt8, (0x80 + n / 64 % 64).toUInt8, (0x80 + n % 64).toUInt8]
  else
    [(0xF0 + n / 262144).toUInt8, (0x80 + n / 4096 % 64).toUInt8, (0x80 + n / 64 % 64).toUInt8,
      (0x80 + n % 64).toUInt8]

/-- The bytes of a text. -/
def encode (text : Text) : List UInt8 :=
  text.flatMap encodeCodePoint

/-- The code points that have no bytes: where they stand, the first of them, and how many. -/
structure EncodeFault where
  position : Nat
  first : CodePoint
  count : Nat
  deriving DecidableEq

/-- The first fault of a text, where the `allowed` surrogates are none. It covers all surrogates
that follow the first one without a gap. -/
def encodeFault? (allowed : CodePoint → Bool) (text : Text) : Option EncodeFault :=
  let before := text.takeWhile fun c => !c.isSurrogate || allowed c
  match text.drop before.length with
  | [] => none
  | first :: rest =>
      some ⟨before.length, first, 1 + (rest.takeWhile CodePoint.isSurrogate).length⟩

end ProtoSchema.Utf8
