import PipeShell.Text.Quoted

/-!
# Failures

The causes for which a store, a command or a reader gives up, and the wording of each. A command
reports an expected failure in its own words; an unexpected one is logged as well.
-/

namespace PipeShell

/-- What the disk answers when it refuses an operation. -/
inductive DiskError
  | noEntry
  | exists
  | notDirectory
  | isDirectory
  | nameTooLong
  deriving DecidableEq, Repr

namespace DiskError

/-- The number that the operating system gives the error. -/
def code : DiskError → Nat
  | noEntry => 2
  | .exists => 17
  | notDirectory => 20
  | isDirectory => 21
  | nameTooLong => 36

/-- The text that the operating system gives the error. -/
def text : DiskError → Text
  | noEntry => "No such file or directory"
  | .exists => "File exists"
  | notDirectory => "Not a directory"
  | isDirectory => "Is a directory"
  | nameTooLong => "File name too long"

end DiskError

/-- The kinds of failures. -/
inductive FailureKind
  | nodeNotFound
  | nodeExists
  | invalidOperation
  | quotaExceeded
  | badValue
  | unencodable
  | unknownEncoding
  | overflow
  | runtime
  | notImplemented
  | disk (error : DiskError)
  deriving DecidableEq, Repr

/-- The causes of failures. A path is shown with the slash of the root in front. -/
inductive Failure
  /-- No entry has the path. -/
  | noSuchEntry (path : Text)
  /-- A directory was asked for and no entry has the path. -/
  | noSuchDirectory (path : Text)
  /-- The host has no such file to import. -/
  | noSuchHostFile (name : Text)
  /-- The directory has no such child. -/
  | noSuchChild (name path : Text)
  /-- The directory has such a child already. -/
  | childExists (name path : Text)
  /-- A file stands where a directory is needed. -/
  | notADirectory (path : Text)
  /-- A directory stands where a file is needed. -/
  | isADirectory (path : Text)
  /-- The path of a file has no segment. -/
  | invalidFilePath (path : Text)
  /-- The path of a directory has no segment. -/
  | emptyDirectoryPath
  /-- The root is not to be removed. -/
  | rootRemoval
  /-- Directories are not copied. -/
  | directoryCopy (path : Text)
  /-- Directories are not moved. -/
  | directoryMove (path : Text)
  /-- The path leads out of the store. -/
  | escapesRoot (path : Text)
  /-- A move could not delete its source. -/
  | sourceKept (path : Text) (cause : Failure)
  /-- A file on the host cannot have this name. -/
  | invalidExportName (name : Text)
  /-- Deleting is refused. -/
  | permissionDenied (path : Text)
  /-- Writing is refused. -/
  | readOnly (path : Text)
  /-- The store would hold more bytes than its quota. -/
  | quotaExceeded (projected quota : Int)
  /-- A numeral is longer than a reader accepts. -/
  | tooManyDigits (count : Nat)
  /-- A path holds NUL. -/
  | nullInPath
  /-- A line to be collated holds NUL. -/
  | nullInLine
  /-- The characters from `first` to `last` have no code in the encoding, which has `limit` codes. -/
  | unencodable (encoding : Text) (limit : Nat) (char : Char) (first last : Nat)
  /-- No encoding has the name. -/
  | unknownEncoding (name : Text)
  /-- Reading broke down. -/
  | brokenRead (cause : Text)
  /-- No home directory is known for a user. -/
  | noHomeDirectory
  /-- The store or picker has no such operation. -/
  | notImplemented
  /-- The disk refused an operation on the path. -/
  | disk (error : DiskError) (path : Text)
  /-- A quotient is too large to be rounded. -/
  | quotientTooLarge
  /-- A bound of a repetition in a pattern is too large. -/
  | repetitionTooLarge
  /-- A pattern asks for two incompatible character sets. -/
  | incompatibleCharacterSets
  /-- A word is no canonical verb. -/
  | notAVerb (word : Text)
  deriving DecidableEq, Repr

namespace Failure

/-- The wording of a failure. -/
def message : Failure → Text
  | noSuchEntry path => "No such file or directory: /" ++ path
  | noSuchDirectory path => "No such directory: /" ++ path
  | noSuchHostFile name => "No such host file: " ++ name
  | noSuchChild name path => name ++ " not found in /" ++ path
  | childExists name path => name ++ " already exists in /" ++ path
  | notADirectory path => "Not a directory: /" ++ path
  | isADirectory path => "Is a directory: /" ++ path
  | invalidFilePath path => "Invalid file path: /" ++ path
  | emptyDirectoryPath => "Invalid directory path: path cannot be empty"
  | rootRemoval => "Cannot remove root directory"
  | directoryCopy path => "Cannot copy directory: /" ++ path
  | directoryMove path => "Cannot move directory: /" ++ path
  | escapesRoot path => "Path escapes store root: /" ++ path
  | sourceKept path cause =>
      "Failed to complete rename: could not delete original file \"/" ++ path ++ "\". Error: "
        ++ cause.message
  | invalidExportName name => "Invalid export name: " ++ Text.quoted name
  | permissionDenied path => "Permission denied: " ++ path
  | readOnly path => "Read-only: " ++ path
  | quotaExceeded projected quota =>
      "Storage quota exceeded (" ++ Text.ofInt projected ++ " of " ++ Text.ofInt quota ++ " bytes)"
  | tooManyDigits count =>
      "Exceeds the limit (4300 digits) for integer string conversion: value has "
        ++ Text.ofNat count
        ++ " digits; use sys.set_int_max_str_digits() to increase the limit"
  | nullInPath => "embedded null byte"
  | nullInLine => "embedded null character"
  | unencodable encoding limit char first last =>
      Text.quoted encoding ++ " codec can't encode character"
        ++ (if first = last then
              " '" ++ Text.codeEscape char ++ "' in position " ++ Text.ofNat first
            else "s in position " ++ Text.ofNat first ++ "-" ++ Text.ofNat last)
        ++ ": ordinal not in range(" ++ Text.ofNat limit ++ ")"
  | unknownEncoding name => "unknown encoding: " ++ name
  | brokenRead cause => cause
  | noHomeDirectory => "Could not determine home directory."
  | notImplemented => []
  | disk error path =>
      "[Errno " ++ Text.ofNat error.code ++ "] " ++ error.text ++ ": " ++ Text.quoted path
  | quotientTooLarge => "integer division result too large for a float"
  | repetitionTooLarge => "the repetition number is too large"
  | incompatibleCharacterSets => "ASCII and UNICODE flags are incompatible"
  | notAVerb word => Text.quoted word ++ " is not a valid Verb"

/-- The kind of a failure. -/
def kind : Failure → FailureKind
  | noSuchEntry _ | noSuchDirectory _ | noSuchHostFile _ | noSuchChild _ _ => .nodeNotFound
  | childExists _ _ => .nodeExists
  | notADirectory _ | isADirectory _ | invalidFilePath _ | emptyDirectoryPath | rootRemoval
  | directoryCopy _ | directoryMove _ | escapesRoot _ | sourceKept _ _ | invalidExportName _
  | permissionDenied _ | readOnly _ => .invalidOperation
  | quotaExceeded _ _ => .quotaExceeded
  | tooManyDigits _ | nullInPath | nullInLine | incompatibleCharacterSets | notAVerb _ => .badValue
  | unencodable _ _ _ _ _ => .unencodable
  | unknownEncoding _ => .unknownEncoding
  | brokenRead _ | noHomeDirectory => .runtime
  | notImplemented => .notImplemented
  | disk error _ => .disk error
  | quotientTooLarge | repetitionTooLarge => .overflow

/-- The user caused the failure and the store foresaw it. -/
def isExpected (f : Failure) : Bool :=
  match f.kind with
  | .nodeNotFound | .nodeExists | .invalidOperation | .quotaExceeded => true
  | _ => false

end Failure

end PipeShell
