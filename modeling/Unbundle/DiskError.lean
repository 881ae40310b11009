/-! Why file operations fail. -/
namespace Unbundle

inductive DiskError
  | notFound
  | alreadyThere
  | notADirectory
  | isADirectory
  | invalid
  | notEmpty
  | busy
  | nameTooLong
  /-- The path holds a zero character. -/
  | zeroInPath
  /-- The file holds bytes that are no text. -/
  | notText
  /-- Any other reason, in the words of the system. -/
  | other (text : String)
deriving DecidableEq, Repr

/-- The reason in the words of the system. -/
def DiskError.message : DiskError → String
  | notFound => "No such file or directory (os error 2)"
  | alreadyThere => "File exists (os error 17)"
  | notADirectory => "Not a directory (os error 20)"
  | isADirectory => "Is a directory (os error 21)"
  | invalid => "Invalid argument (os error 22)"
  | notEmpty => "Directory not empty (os error 39)"
  | busy => "Device or resource busy (os error 16)"
  | nameTooLong => "File name too long (os error 36)"
  | zeroInPath => "file name contained an unexpected NUL byte"
  | notText => "stream did not contain valid UTF-8"
  | other text => text

end Unbundle
