/-!
# Failures of file access

What can go wrong when a file or directory is looked up, read or written, and
the text that reports it.
-/

namespace YangPartition

/-- A reason why a file or directory cannot be used. -/
inductive FileError where
  /-- No such file. -/
  | notFound
  /-- A component on the way is not a directory. -/
  | notDirectory
  /-- Something else is there already. -/
  | exists
  /-- A directory stands where a file is needed. -/
  | isDirectory
  /-- A name is longer than a directory can hold. -/
  | nameTooLong
  /-- Links lead in a circle. -/
  | tooManyLinks
  /-- The bytes are not UTF-8 text. -/
  | notText
  deriving DecidableEq, Repr

namespace FileError

/-- The text of a failure, with the system's number where it has one. -/
def message : FileError → String
  | notFound => "No such file or directory (os error 2)"
  | notDirectory => "Not a directory (os error 20)"
  | .exists => "File exists (os error 17)"
  | isDirectory => "Is a directory (os error 21)"
  | nameTooLong => "File name too long (os error 36)"
  | tooManyLinks => "Too many levels of symbolic links (os error 40)"
  | notText => "stream did not contain valid UTF-8"

end FileError

end YangPartition
