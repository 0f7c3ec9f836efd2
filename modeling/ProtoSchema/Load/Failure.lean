import ProtoSchema.Files.Tree
import ProtoSchema.Parser.File

/-!
# Load failures

Why an input cannot be loaded, and what is said about it. A failure names the input and keeps its
cause; the text of the cause is made here. Some errors are not reported as a failure of the input
but escape as they are.
-/

namespace ProtoSchema

namespace Utf8

/-- What a cause is called. -/
def Cause.description : Cause → Text
  | invalidStart => Text.ofString "invalid start byte"
  | invalidContinuation => Text.ofString "invalid continuation byte"
  | truncated => Text.ofString "unexpected end of data"

/-- Which bytes a fault covers: one by its value, several by their positions. -/
def Fault.extent (fault : Fault) : Text :=
  if fault.count = 1 then
    Text.ofString "byte 0x" ++ Text.hexadecimal 2 fault.first.toNat ++
      Text.ofString " in position " ++ Text.ofString (toString fault.position)
  else
    Text.ofString "bytes in position " ++ Text.ofString (toString fault.position) ++
      Text.ofString "-" ++ Text.ofString (toString (fault.position + fault.count - 1))

/-- The message of a fault. -/
def Fault.message (fault : Fault) : Text :=
  Text.ofString "'utf-8' codec can't decode " ++ fault.extent ++ Text.ofString ": " ++
    fault.cause.description

end Utf8

/-- Why an input cannot be loaded. -/
inductive LoadCause where
  | unreadable (error : FileError)
  | undecodable (fault : Utf8.Fault)
  | malformed (error : ParseError)
  | notDescriptorSet (message : Text)
  | notInSet (present : List Text)
  | compilerMissing (binary : Text)
  | compilerFailed (output : List UInt8)
  deriving DecidableEq

/-- What is said about a cause. -/
def LoadCause.reason : LoadCause → Text
  | unreadable error => error.message
  | undecodable fault => fault.message
  | malformed error => error.message
  | notDescriptorSet message => Text.ofString "not a FileDescriptorSet: " ++ message
  | notInSet present =>
      Text.ofString "not in descriptor set. Found: " ++ Text.join (Text.ofString ", ") present
  | compilerMissing binary =>
      Text.ofString "'" ++ binary ++
        Text.ofString "' not found. Install the Protocol Buffers compiler and ensure it is in PATH."
  | compilerFailed output =>
      Text.ofString "protoc failed: " ++ Text.trim (Utf8.decodeLenient output)

/-- An input that cannot be loaded. -/
structure LoadFailure where
  path : Text
  cause : LoadCause
  deriving DecidableEq

/-- The message of a failure. -/
def LoadFailure.message (failure : LoadFailure) : Text :=
  Text.ofString "Failed to load '" ++ failure.path ++ Text.ofString "': " ++ failure.cause.reason

/-- Why loading stops: a load failure, or an error that is none. That is a literal without a value,
a text that is no path, or a compiler that cannot be started, with what the system says about it. -/
inductive LoadError where
  | failure (failure : LoadFailure)
  | literal (error : ParseError)
  | path (error : PathError)
  | compiler (message : Text)
  deriving DecidableEq

/-- How a failed access counts for the input of this name. -/
def LoadError.ofAccess (path : Text) : AccessError → LoadError
  | .path error => .path error
  | .file error => .failure ⟨path, .unreadable error⟩

end ProtoSchema
