/-! The files of a system, as a program finds them: they are read and written by their paths, and the
system may refuse. -/
namespace GoShape.Command

/-- Why a file cannot be read or written. What a system says in its own words is `other`. -/
inductive FileError
  | missing
  | denied
  | notFolder
  | isFolder
  | nameTooLong
  | notText
  | other (message : String)
  deriving DecidableEq, Repr

def FileError.message : FileError → String
  | .missing => "No such file or directory (os error 2)"
  | .denied => "Permission denied (os error 13)"
  | .notFolder => "Not a directory (os error 20)"
  | .isFolder => "Is a directory (os error 21)"
  | .nameTooLong => "File name too long (os error 36)"
  | .notText => "stream did not contain valid UTF-8"
  | .other message => message

/-- Bytes as text. -/
def textOf (bytes : ByteArray) : Except FileError String :=
  match String.fromUTF8? bytes with
  | some s => .ok s
  | none => .error .notText

/-- Reading and writing the file at a path, for a state `σ` of all files. A writing that is refused
leaves no new state. What a path holds is told apart from reading it, since a file may be there for
writing only. -/
class FileSystem (σ : Type) where
  read : σ → String → Except FileError ByteArray
  write : σ → String → ByteArray → Except FileError σ
  content? : σ → String → Option ByteArray

/-- What is read of a file is its content, and writing makes the content what is written. -/
class LawfulFileSystem (σ : Type) [FileSystem σ] : Prop where
  content?_of_read {files : σ} {path : String} {bytes : ByteArray} :
    FileSystem.read files path = .ok bytes → FileSystem.content? files path = some bytes
  content?_of_write {files files' : σ} {path : String} {bytes : ByteArray} :
    FileSystem.write files path bytes = .ok files' → FileSystem.content? files' path = some bytes

end GoShape.Command
