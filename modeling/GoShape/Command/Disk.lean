import GoShape.Command.Files

/-! A disk, as one system of files: files and folders below a root, what may be done with them, and a
working folder. There are no links on it. -/
namespace GoShape.Command

/-- What may be done with a file or a folder. To search a folder is to look a name up in it. -/
structure Rights where
  read : Bool
  write : Bool
  search : Bool
  deriving DecidableEq, Repr

namespace Rights

def full : Rights := ⟨true, true, true⟩

/-- The rights on a file that is new. -/
def ofNewFile : Rights := ⟨true, true, false⟩

end Rights

inductive Node
  | file (rights : Rights) (bytes : ByteArray)
  | folder (rights : Rights)

/-- A place is given by the names that lead to it from the root. -/
abbrev Place := List String

/-- Files and folders with their places, and the place of the working folder. The folders above a
place need not be given if there are no limits to what may be done with them. -/
structure Disk where
  nodes : List (Place × Node)
  workingPlace : Place

namespace Disk

/-- Whether a place is one of those that lead to the working folder or to something given. -/
def leadsOn (d : Disk) (place : Place) : Bool :=
  (d.workingPlace :: d.nodes.map Prod.fst).any place.isPrefixOf

/-- What is at a place. -/
def node? (d : Disk) (place : Place) : Option Node :=
  match d.nodes.find? (fun e => e.1 == place) with
  | some (_, node) => some node
  | none => if d.leadsOn place then some (.folder .full) else none

/-- The names of a system are at most this long, in bytes. -/
def maxName : Nat := 255

/-- The paths of a system are at most this long, in bytes. -/
def maxPath : Nat := 4095

/-- A path, if a system takes it for one. -/
def checkPath (path : String) : Except FileError Unit :=
  if path.isEmpty then .error .missing
  else if maxPath < path.utf8ByteSize then .error .nameTooLong
  else .ok ()

/-- The names on a path are what stands between slashes; slashes in a row count once. -/
def names (path : String) : List String :=
  ((path.toList.splitBy fun a b => (a == '/') == (b == '/')).filter fun cs =>
    cs.head? != some '/').map String.ofList

def beginsWithSlash (path : String) : Bool := path.toList.head? == some '/'

def endsWithSlash (path : String) : Bool := path.toList.getLast? == some '/'

/-- Where a path begins. -/
def origin (d : Disk) (path : String) : Place :=
  if beginsWithSlash path then [] else d.workingPlace

/-- The rights on a folder, if it can be searched. -/
def search (d : Disk) (place : Place) : Except FileError Rights :=
  match d.node? place with
  | none => .error .missing
  | some (.file ..) => .error .notFolder
  | some (.folder rights) => if rights.search then .ok rights else .error .denied

/-- The place of a name in a folder. The folder above the root is the root. -/
def child (place : Place) (name : String) : Except FileError Place :=
  if name == "." then .ok place
  else if name == ".." then .ok place.dropLast
  else if maxName < name.utf8ByteSize then .error .nameTooLong
  else .ok (place ++ [name])

/-- One step of a path. -/
def enter (d : Disk) (place : Place) (name : String) : Except FileError Place := do
  let _ ← d.search place
  child place name

/-- What is there at the end of a path. Behind a slash there are only folders. -/
def find (d : Disk) (path : String) : Except FileError Node := do
  checkPath path
  let place ← (names path).foldlM d.enter (d.origin path)
  match d.node? place with
  | none => .error .missing
  | some (.file rights bytes) =>
    if endsWithSlash path then .error .notFolder else .ok (.file rights bytes)
  | some (.folder rights) => .ok (.folder rights)

/-- The bytes of the file at a path. -/
def read (d : Disk) (path : String) : Except FileError ByteArray := do
  match ← d.find path with
  | .file rights bytes => if rights.read then .ok bytes else .error .denied
  | .folder rights => .error (if rights.read then .isFolder else .denied)

/-- The content of the file at a path, whether it may be read or not. -/
def content? (d : Disk) (path : String) : Option ByteArray :=
  match d.find path with
  | .ok (.file _ bytes) => some bytes
  | _ => none

/-- Set what is at a place. -/
def put (place : Place) (node : Node) : List (Place × Node) → List (Place × Node)
  | [] => [(place, node)]
  | e :: es => if e.1 == place then (place, node) :: es else e :: put place node es

/-- Setting one place changes what is found there and nowhere else. -/
theorem find?_put (place other : Place) (node : Node) (es : List (Place × Node)) :
    (put place node es).find? (fun e => e.1 == other) =
      if place = other then some (place, node) else es.find? fun e => e.1 == other := by
  induction es with
  | nil => by_cases h : place = other <;> simp [put, h]
  | cons e es ih =>
    by_cases he : e.1 = place
    · subst he
      by_cases h : e.1 = other <;> simp [put, h]
    · by_cases h : e.1 = other
      · subst h
        simp [put, he, Ne.symm he]
      · simp [put, he, h, ih]

def set (d : Disk) (place : Place) (node : Node) : Disk := { d with nodes := put place node d.nodes }

/-- Make the file at a place hold these bytes, where `folder` are the rights on its folder. -/
def writeAt (d : Disk) (folder : Rights) (place : Place) (bytes : ByteArray) :
    Except FileError Disk :=
  match d.node? place with
  | some (.folder _) => .error .isFolder
  | some (.file rights _) =>
    if rights.write then .ok (d.set place (.file rights bytes)) else .error .denied
  | none =>
    if folder.write then .ok (d.set place (.file .ofNewFile bytes)) else .error .denied

/-- Make the file at a path hold these bytes. A path that ends in a slash is a folder's. -/
def write (d : Disk) (path : String) (bytes : ByteArray) : Except FileError Disk := do
  checkPath path
  match (names path).getLast? with
  | none => .error .isFolder
  | some name =>
    let folder ← (names path).dropLast.foldlM d.enter (d.origin path)
    let rights ← d.search folder
    if endsWithSlash path then .error .isFolder
    else
      let place ← child folder name
      d.writeAt rights place bytes

instance : FileSystem Disk := ⟨read, write, content?⟩

end Disk

/-- The files in a folder, each with its path from there. -/
structure Folder where
  files : List (List String × ByteArray)

namespace Folder

def file? (f : Folder) (path : List String) : Option ByteArray :=
  (f.files.find? fun e => e.1 == path).map Prod.snd

/-- The place of the working folder on a disk that has nothing else. -/
def place : Place := ["work"]

/-- A disk with nothing but a working folder. -/
def disk (f : Folder) : Disk where
  nodes := f.files.map fun (path, bytes) => (place ++ path, .file .ofNewFile bytes)
  workingPlace := place

end Folder

/-- The files in the working folder. -/
def Disk.workingFolder (d : Disk) : Folder where
  files := d.nodes.filterMap fun (p, node) =>
    match node with
    | .file _ bytes =>
      if d.workingPlace.isPrefixOf p then some (p.drop d.workingPlace.length, bytes) else none
    | .folder _ => none

end GoShape.Command
