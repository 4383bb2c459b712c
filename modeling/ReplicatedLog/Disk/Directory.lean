import ReplicatedLog.Bytes
import ReplicatedLog.Calendar
import ReplicatedLog.Fault

namespace ReplicatedLog

namespace IoFault

def notFound : IoFault := .system 2
def alreadyExists : IoFault := .system 17
def notADirectory : IoFault := .system 20
def isADirectory : IoFault := .system 21
def nameTooLong : IoFault := .system 36
def notEmpty : IoFault := .system 39

end IoFault

/-- The most bytes a name of a file or directory has. -/
def maxNameLength : Nat := 255

/-- A file. Who opened it goes on writing to the file of this identity, also after its name was
    deleted or given to another file. -/
structure File where
  id : Nat
  bytes : Bytes
  modified : Instant
  deriving DecidableEq, Repr

/-- What a name in a directory stands for. -/
inductive Item
  | file (file : File)
  | folder
  deriving DecidableEq, Repr

/-- The items of a directory by name, in the order of the names. -/
abbrev Items := List (String × Item)

namespace Items

/-- Gives an item to a name, in place of the one it had. -/
def insert (name : String) (item : Item) : Items → Items
  | [] => [(name, item)]
  | (other, kept) :: rest =>
    if name < other then (name, item) :: (other, kept) :: rest
    else if name = other then (name, item) :: rest
    else (other, kept) :: insert name item rest

def find? (name : String) (items : Items) : Option Item :=
  (List.find? (fun entry => entry.1 = name) items).map (·.2)

def erase (name : String) (items : Items) : Items :=
  items.filter fun entry => entry.1 ≠ name

/-- The files among the items. -/
def files (items : Items) : List (String × File) :=
  items.filterMap fun
    | (name, .file file) => some (name, file)
    | (_, .folder) => none

/-- Adds bytes to the end of the file of an identity; without effect where there is none. -/
def extend (id : Nat) (data : Bytes) (now : Instant) (items : Items) : Items :=
  items.map fun
    | (name, .file file) =>
      if file.id = id then (name, .file { file with bytes := file.bytes ++ data, modified := now })
      else (name, .file file)
    | entry => entry

end Items

/-- What stands at the path of a directory. -/
inductive Place
  | missing
  | file
  | folder (items : Items)
  /-- No directory can have this name. That shows only where the directory above it exists. -/
  | unnameable (parent : Bool)
  deriving DecidableEq, Repr

/-- A path at which a directory can be made, and the identity of the next file made there. -/
structure Directory where
  place : Place := .missing
  nextId : Nat := 0
  deriving DecidableEq, Repr

namespace Directory

/-- Everything in the directory. -/
def items (dir : Directory) : Except IoFault Items :=
  match dir.place with
  | .missing => .error .notFound
  | .file => .error .notADirectory
  | .folder items => .ok items
  | .unnameable parent => .error (if parent then .nameTooLong else .notFound)

def setItems (dir : Directory) (items : Items) : Directory :=
  { dir with place := .folder items }

/-- Makes a failure to find something an absence. -/
def absent {α : Type} : Except IoFault α → Except IoFault (Option α)
  | .ok result => .ok (some result)
  | .error fault => if fault = .notFound then .ok none else .error fault

/-- Looks a name up. -/
def item (dir : Directory) (name : String) : Except IoFault Item := do
  let items ← dir.items
  if maxNameLength < name.utf8ByteSize then .error .nameTooLong
  else match items.find? name with
    | some item => .ok item
    | none => .error .notFound

/-- The file of a name. -/
def file (dir : Directory) (name : String) : Except IoFault File := do
  match ← dir.item name with
  | .file file => .ok file
  | .folder => .error .isADirectory

/-- The size of the file of a name, none if there is no such file. -/
def size? (dir : Directory) (name : String) : Except IoFault (Option Nat) := do
  let file ← absent (dir.file name)
  .ok (file.map (·.bytes.length))

/-- The size of the file of a name. -/
def size (dir : Directory) (name : String) : Except IoFault Nat := do
  let file ← dir.file name
  .ok file.bytes.length

/-- Makes the directory and those above it, unless it exists. -/
def make (dir : Directory) : Except IoFault Unit × Directory :=
  match dir.place with
  | .missing => (.ok (), dir.setItems [])
  | .file => (.error .alreadyExists, dir)
  | .folder _ => (.ok (), dir)
  | .unnameable _ => (.error .nameTooLong, { dir with place := .unnameable true })

/-- Opens the file of a name for appending, made empty if there is none, and tells its
    identity. -/
def openFile (dir : Directory) (name : String) (now : Instant) :
    Except IoFault (Nat × Directory) := do
  let items ← dir.items
  match ← absent (dir.item name) with
  | some (.file file) => .ok (file.id, dir)
  | some .folder => .error .isADirectory
  | none =>
    .ok (dir.nextId,
      { place := .folder (items.insert name (.file ⟨dir.nextId, [], now⟩)), nextId := dir.nextId + 1 })

/-- Adds bytes to the end of an opened file. -/
def extend (dir : Directory) (id : Nat) (data : Bytes) (now : Instant) : Directory :=
  match dir.place with
  | .folder items => dir.setItems (items.extend id data now)
  | _ => dir

/-- Gives the file of a name these bytes, and makes it if there is none. -/
def write (dir : Directory) (name : String) (bytes : Bytes) (now : Instant) :
    Except IoFault Directory := do
  let (id, dir) ← dir.openFile name now
  let items ← dir.items
  .ok (dir.setItems (items.insert name (.file ⟨id, bytes, now⟩)))

/-- Writes a file into a directory that is made if need be. A file that is refused is left
    out. -/
def putFile (dir : Directory) (name : String) (bytes : Bytes) (now : Instant) : Directory :=
  let dir := dir.make.2
  (dir.write name bytes now).toOption.getD dir

/-- Makes a directory inside a directory, which is made too if need be. -/
def putFolder (dir : Directory) (name : String) : Directory :=
  let dir := dir.make.2
  match dir.items with
  | .ok items => dir.setItems (items.insert name .folder)
  | .error _ => dir

/-- Deletes the file of a name. -/
def delete (dir : Directory) (name : String) : Except IoFault Directory := do
  let _ ← dir.file name
  let items ← dir.items
  .ok (dir.setItems (items.erase name))

/-- Deletes the file of a name, if there is one. -/
def discard (dir : Directory) (name : String) : Except IoFault Directory := do
  .ok ((← absent (dir.delete name)).getD dir)

/-- Gives the file of one name another name, in place of the file that had it. -/
def rename (dir : Directory) (source target : String) : Except IoFault Directory := do
  let file ← dir.file source
  let items ← dir.items
  .ok (dir.setItems ((items.erase source).insert target (.file file)))

/-- Removes the directory, if there is one. It has to be empty. -/
def discardEmpty (dir : Directory) : Except IoFault Directory := do
  match ← absent dir.items with
  | none => .ok dir
  | some [] => .ok { dir with place := .missing }
  | some _ => .error .notEmpty

/-- Deletes all files, and tells how many there were. -/
def wipe (dir : Directory) : Nat × Directory :=
  match dir.items with
  | .error _ => (0, dir)
  | .ok items =>
    (items.files.length, dir.setItems (items.filter fun entry => entry.2 matches .folder))

/-- The files in the order of their names, none in a directory that does not exist. -/
def listing (dir : Directory) : Except IoFault (List (String × File)) := do
  let items ← absent dir.items
  .ok (items.elim [] Items.files)

/-- The bytes of all files, in the order of their names. -/
def contents (dir : Directory) : Except IoFault Bytes := do
  .ok ((← dir.items).files.flatMap (·.2.bytes))

end Directory

end ReplicatedLog
