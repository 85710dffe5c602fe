import Logbook.Disk.Basic

/-!
# Files, folders and links

What can be done to a disk by path: opening a file for appending, making and removing names, and
looking at what is there.
-/

namespace Logbook.Disk

def isFolder (disk : Disk) (path : String) : Bool :=
  match checkText path with
  | .error _ => false
  | .ok p =>
    match disk.walk .content p with
    | .ok (.node _ .folder) => true
    | _ => false

/-- Makes an empty file at a free place. -/
def addFile (disk : Disk) (p : Place) : Device × Disk :=
  let d : Device := .file disk.files.length
  (d, { (disk.add p (.device d)) with files := disk.files ++ [[]] })

/-- Opens the file at a path for appending, and makes it where there is none. -/
def openAppend (disk : Disk) (path : String) : Except IoError (Device × Disk) := do
  let p ← checkText path
  match ← Refusal.lift (disk.walk .create p) with
  | .node _ (.device d) => return (d, disk)
  | .free place => return disk.addFile place
  | .node _ _ => throw (.refused .isDirectory)

def makeFolder (disk : Disk) (path : String) : Except IoError Disk := do
  let p ← checkText path
  match ← Refusal.lift (disk.walk .entry p) with
  | .free place => return disk.add place .folder
  | .node _ _ => throw (.refused .exists)

/-- Whether a failure says that something does not exist. -/
def isNotFound : IoError → Bool
  | .refused r => r == .notFound
  | _ => false

/-- Makes the first of the given folders, which lie one in the other from the innermost to the
outermost, and those around it that do not exist. Folders made before a failure stay. -/
def makeEach (disk : Disk) : List String → Except IoError Unit × Disk
  | [] => (.ok (), disk)
  | path :: outer =>
    match disk.makeFolder path with
    | .ok disk => (.ok (), disk)
    | .error e =>
      if isNotFound e then
        match makeEach disk outer with
        | (.error e, disk) => (.error e, disk)
        | (.ok (), disk) =>
          match disk.makeFolder path with
          | .ok disk => (.ok (), disk)
          | .error e => (if disk.isFolder path then .ok () else .error e, disk)
      else (if disk.isFolder path then .ok () else .error e, disk)

/-- Makes a folder and the folders around it. -/
def makeFolders (disk : Disk) (path : String) : Except IoError Unit × Disk :=
  disk.makeEach ((ancestors path.toList).map String.ofList)

/-- Makes a link to a target with the given text. -/
def makeLink (disk : Disk) (target : Target) (text path : String) : Except IoError Disk := do
  if hasZero text || hasZero path then throw .zeroInPath
  let _ ← checkText text
  let p ← checkText path
  match ← Refusal.lift (disk.walk .entry p) with
  | .free place =>
    if p.slash then throw (.refused .notFound) else return disk.add place (.link target)
  | .node _ _ => throw (.refused .exists)

/-- Removes the name of a file or a link. -/
def removeFile (disk : Disk) (path : String) : Except IoError Disk := do
  let p ← checkText path
  match ← Refusal.lift (disk.walk .entry p) with
  | .free _ => throw (.refused .notFound)
  | .node _ .folder => throw (.refused .isDirectory)
  | .node place _ =>
    if p.slash then throw (.refused .notDirectory)
    else return { disk with nodes := disk.nodes.filter fun entry => entry.1 != place }

def append (disk : Disk) (d : Device) (bytes : Bytes) : Except IoError Disk :=
  match d with
  | .file id => .ok { disk with files := disk.files.modify id (· ++ bytes) }
  | .null => .ok disk
  | .full => if bytes.isEmpty then .ok disk else .error (.refused .noSpace)

def read (disk : Disk) (path : String) : Except IoError Bytes := do
  let p ← checkText path
  match ← Refusal.lift (disk.walk .content p) with
  | .node _ (.device d) => return disk.contents d
  | .node _ _ => throw (.refused .isDirectory)
  | .free _ => throw (.refused .notFound)

/-- Gives the file at a path new contents, and makes it where there is none. -/
def put (disk : Disk) (path : String) (bytes : Bytes) : Except IoError Disk := do
  let (d, disk) ← disk.openAppend path
  match d with
  | .file id => return { disk with files := disk.files.set id bytes }
  | _ => disk.append d bytes

/-- A name below the working folder, as it is listed. -/
structure Listed where
  path : String
  node : Node
  deriving DecidableEq, Repr

/-- The text of the names of a place. -/
def Place.text (p : Place) : String := "/".intercalate p.names

/-- Everything below the working folder by its path. -/
def list (disk : Disk) : List Listed :=
  let listed := disk.nodes.filterMap fun (p, node) =>
    if p.root = .work then some ⟨Place.text p, node⟩ else none
  listed.mergeSort fun a b => decide (a.path ≤ b.path)

end Logbook.Disk
