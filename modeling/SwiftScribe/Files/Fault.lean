/-!
# Faults of the file system

Why a file cannot be read, written or made.
-/

namespace SwiftScribe.Files

/-- **Why the file system refuses.** -/
inductive Fault where
  | notFound
  | alreadyExists
  | notADirectory
  | isADirectory
  /-- A name or a path has more bytes than the file system takes. -/
  | nameTooLong
  /-- A path holds the character that ends texts in the system's own calls. -/
  | nulInPath
  /-- The bytes of the file are no text. -/
  | notText
  /-- Any other reason, in the system's words. -/
  | other (message : String)
deriving DecidableEq

/-- The wording of a fault. -/
def Fault.message : Fault → String
  | .notFound => "No such file or directory (os error 2)"
  | .alreadyExists => "File exists (os error 17)"
  | .notADirectory => "Not a directory (os error 20)"
  | .isADirectory => "Is a directory (os error 21)"
  | .nameTooLong => "File name too long (os error 36)"
  | .nulInPath => "file name contained an unexpected NUL byte"
  | .notText => "stream did not contain valid UTF-8"
  | .other message => message

end SwiftScribe.Files
