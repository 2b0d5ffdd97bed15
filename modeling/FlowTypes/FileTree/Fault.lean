import FlowTypes.Path
import FlowTypes.Text.Quoted
import FlowTypes.Text.Utf8

/-!
# What can go wrong with files

The system refuses an operation for one of six causes, each with its number and words, and names the
path as it was given. A path with a null byte never reaches the system, and the content of a file need
not be text.
-/

namespace FlowTypes

/-- Why the system refuses an operation on a path. -/
inductive Refusal where
  | noSuchEntry
  | permissionDenied
  | alreadyThere
  | notDirectory
  | isDirectory
  | nameTooLong
  deriving DecidableEq, Repr

namespace Refusal

/-- The number of a refusal. -/
def number : Refusal → Nat
  | noSuchEntry => 2
  | permissionDenied => 13
  | alreadyThere => 17
  | notDirectory => 20
  | isDirectory => 21
  | nameTooLong => 36

/-- A refusal in words. -/
def words : Refusal → Text
  | noSuchEntry => "No such file or directory"
  | permissionDenied => "Permission denied"
  | alreadyThere => "File exists"
  | notDirectory => "Not a directory"
  | isDirectory => "Is a directory"
  | nameTooLong => "File name too long"

end Refusal

/-- What can go wrong with a file. -/
inductive FileFault where
  | refused (cause : Refusal) (path : Text)
  | nullByte
  | notText (fault : Utf8.Fault)
  | anchoredPattern
  | misplacedStars
  deriving DecidableEq, Repr

/-- The fault in words. -/
def FileFault.message : FileFault → Text
  | refused cause path =>
    "[Errno " ++ Text.ofNat cause.number ++ "] " ++ cause.words ++ ": " ++ Text.quoted path
  | nullByte => "embedded null byte"
  | notText fault => fault.message
  | anchoredPattern => "Non-relative patterns are unsupported"
  | misplacedStars => "Invalid pattern: '**' can only be an entire path component"

/-- Whose doing a fault is: the system refused something, a value makes no sense, or something else. -/
inductive Nature where
  | system
  | value
  | other
  deriving DecidableEq, Repr

/-- Whose doing a fault with a file is. -/
def FileFault.nature : FileFault → Nature
  | refused _ _ => .system
  | nullByte | notText _ | misplacedStars => .value
  | anchoredPattern => .other

end FlowTypes
