/-!
# Errors of the operating system

The reasons for which the system refuses an operation on files, and the texts they are reported
with. Most of them have a number of the system; two arise before the system is asked.
-/

namespace SaveLint

/-- Why an operation on files is refused. -/
inductive OsError where
  | notFound
  | badFormat
  | alreadyExists
  | notADirectory
  | isADirectory
  | nameTooLong
  | tooManyLinks
  | nulInPath
  | notUtf8
  deriving DecidableEq, Repr

namespace OsError

/-- The text of an error that the system reports by number. -/
def numbered (text : String) (number : Nat) : String := s!"{text} (os error {number})"

def message : OsError → String
  | notFound => numbered "No such file or directory" 2
  | badFormat => numbered "Exec format error" 8
  | alreadyExists => numbered "File exists" 17
  | notADirectory => numbered "Not a directory" 20
  | isADirectory => numbered "Is a directory" 21
  | nameTooLong => numbered "File name too long" 36
  | tooManyLinks => numbered "Too many levels of symbolic links" 40
  | nulInPath => "file name contained an unexpected NUL byte"
  | notUtf8 => "stream did not contain valid UTF-8"

end OsError

end SaveLint
