/-!
# Faults of a file system

Why a file cannot be read or written, with the messages that users see.

## Main definitions

* `FileFault`: The reasons.
* `FileFault.message`: Their messages.
-/

namespace SourceMarkers

/-- Why a file cannot be read or written. -/
inductive FileFault where
  | notFound
  | alreadyThere
  | notADirectory
  | isADirectory
  | nameTooLong
  /-- A name holds the null character, which no file system keeps. -/
  | nullInName
  /-- A path with no directory to start from. -/
  | noParent
  /-- What was read as text is none. -/
  | notText
  /-- Any other reason, in the words of the system. -/
  | other (message : String)
deriving DecidableEq, Repr

/-- The message of a fault. -/
def FileFault.message : FileFault → String
  | .notFound => "No such file or directory (os error 2)"
  | .alreadyThere => "File exists (os error 17)"
  | .notADirectory => "Not a directory (os error 20)"
  | .isADirectory => "Is a directory (os error 21)"
  | .nameTooLong => "File name too long (os error 36)"
  | .nullInName => "file name contained an unexpected NUL byte"
  | .noParent => "failed to create whole tree"
  | .notText => "stream did not contain valid UTF-8"
  | .other message => message

end SourceMarkers
