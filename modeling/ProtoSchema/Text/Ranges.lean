import ProtoSchema.Text.CodePoint

/-!
# Sets of code points as tables

A property of code points is written down as a table: a list of ranges, or a list of runs that take
every code point or every second one. Membership walks the table, whose rows are in ascending order.
-/

namespace ProtoSchema

/-- A set of code points as ranges, each given by its first and last member. -/
abbrev Ranges := List (Nat × Nat)

/-- Membership in one of the ranges. -/
def Ranges.contains : Ranges → Nat → Bool
  | [], _ => false
  | (first, last) :: rest, number =>
      if number < first then false
      else if number ≤ last then true
      else Ranges.contains rest number

/-- Every `step`-th code point from `first` to `last`. -/
structure Run where
  first : Nat
  last : Nat
  step : Nat

/-- Membership in a run. -/
def Run.contains (run : Run) (number : Nat) : Bool :=
  run.first ≤ number && number ≤ run.last && (number - run.first) % run.step == 0

/-- A run of code points that all move by the same distance under a case map. -/
structure Shift extends Run where
  distance : Int

/-- The image under the first shift that covers the code point, which else stays as it is. -/
def Shift.apply (shifts : List Shift) (number : Nat) : Nat :=
  match shifts.find? (fun shift => shift.contains number) with
  | some shift => (number + shift.distance).toNat
  | none => number

end ProtoSchema
