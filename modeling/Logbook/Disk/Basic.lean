import Logbook.Disk.Path
import Logbook.Text.Utf8
import Logbook.Failure

/-!
# Disks

Folders, files, links and two devices. Relative paths start from the working folder, absolute ones
from the root of the system; how the working folder is reached from that root is left open, so the
folders above it are known by their distance only. The contents of files are kept apart from their
names, so that an open file can be written to after its name has gone.

`Disk.walk` follows a path from folder to folder. Links are followed up to a fixed number; what is
done with the last name depends on the purpose of the walk (`Purpose`).
-/

namespace Logbook

/-- A folder from which places are counted. -/
inductive Root where
  | work
  /-- The folder `levels + 1` levels above the working folder. -/
  | above (levels : Nat)
  | system
  deriving DecidableEq, Repr

/-- The folder above; the root of the system is its own. -/
def Root.parent : Root → Root
  | work => above 0
  | above levels => above (levels + 1)
  | system => system

/-- The names on the way from a root to a node. -/
structure Place where
  root : Root
  names : List String
  deriving DecidableEq, Repr

/-- The place of a name in the folder at `p`. -/
def Place.child (p : Place) (name : String) : Place := { p with names := p.names ++ [name] }

def Place.parent (p : Place) : Place :=
  if p.names.isEmpty then ⟨p.root.parent, []⟩ else { p with names := p.names.dropLast }

/-- What a link points to: a path below the working folder, or a path from the system's root. -/
inductive Target where
  | below (path : String)
  | system (path : String)
  deriving DecidableEq, Repr

/-- Something that takes bytes. -/
inductive Device where
  | file (id : Nat)
  /-- The device that swallows everything. -/
  | null
  /-- The device that has no space. -/
  | full
  deriving DecidableEq, Repr

/-- The folder from which a link goes on. -/
def Target.start : Target → Place
  | .below _ => ⟨.work, []⟩
  | .system _ => ⟨.system, []⟩

def Target.path : Target → Path
  | .below path => .ofText path
  | .system path => .ofText path

/-- What a name stands for. -/
inductive Node where
  | folder
  | device (d : Device)
  | link (target : Target)
  deriving DecidableEq, Repr

/-- A disk: what stands at which place, and the contents of the files by their numbers. -/
structure Disk where
  nodes : List (Place × Node)
  files : List Bytes
  deriving Repr

namespace Disk

/-- An empty working folder beside the devices of the system. -/
def empty : Disk where
  nodes := [(⟨.system, ["dev"]⟩, .folder), (⟨.system, ["dev", "null"]⟩, .device .null),
    (⟨.system, ["dev", "full"]⟩, .device .full)]
  files := []

/-- What stands at a place. The roots themselves are folders. -/
def node? (disk : Disk) (p : Place) : Option Node :=
  if p.names.isEmpty then some .folder else disk.nodes.lookup p

/-- The bytes of a device; only files have some. -/
def contents (disk : Disk) : Device → Bytes
  | .file id => disk.files.getD id []
  | .null => []
  | .full => []

/-- Puts a node at a place where there is none. -/
def add (disk : Disk) (p : Place) (node : Node) : Disk :=
  { disk with nodes := disk.nodes ++ [(p, node)] }

def longestName : Nat := 255

def longestPath : Nat := 4095

def mostLinks : Nat := 40

/-- Where a walk ends: at a node, or at a free place in a folder. -/
inductive Stop where
  | node (place : Place) (node : Node)
  | free (place : Place)
  deriving DecidableEq, Repr

/-- What a walk is for. -/
inductive Purpose where
  /-- The name itself is meant, even if it is a link. -/
  | entry
  /-- What the name leads to is meant. A slash after the name admits folders only. -/
  | content
  /-- As for the content, but something is made where there is nothing. A slash after the name asks
  for a folder, which is not what is made. -/
  | create
  deriving DecidableEq, Repr

/-- What a part of a walk comes to: a result, a refusal, or a link and the names after it. -/
inductive Leg (α : Type) where
  | done (a : α)
  | refused (refusal : Refusal)
  | link (target : Target) (rest : List String)

def isLongName (name : String) : Bool := longestName < (Utf8.ofString name).length

/-- Goes from the folder at a place through further folders, up to the first link. -/
def enter (disk : Disk) : Place → List String → Leg Place
  | p, [] => .done p
  | p, name :: rest =>
    if name = ".." then disk.enter p.parent rest
    else if isLongName name then .refused .nameTooLong
    else
      match disk.node? (p.child name) with
      | none => .refused .notFound
      | some .folder => disk.enter (p.child name) rest
      | some (.device _) => .refused .notDirectory
      | some (.link target) => .link target rest

/-- Looks at the last name of a walk. -/
def finish (disk : Disk) (purpose : Purpose) (p : Place) (name : String) (slash : Bool) :
    Leg Stop :=
  if purpose = .create && slash then .refused .isDirectory
  else if isLongName name then .refused .nameTooLong
  else
    match disk.node? (p.child name) with
    | none => .done (.free (p.child name))
    | some .folder => .done (.node (p.child name) .folder)
    | some (.device d) =>
      if purpose = .content && slash then .refused .notDirectory
      else .done (.node (p.child name) (.device d))
    | some (.link target) =>
      if purpose = .entry then .done (.node (p.child name) (.link target)) else .link target []

/-- Walks from the folder at a place, following at most `links` links. -/
def walkFrom (disk : Disk) (purpose : Purpose) : Nat → Place → Path → Except Refusal Stop
  | links, p, path =>
    match disk.enter p path.folders with
    | .refused r => .error r
    | .link target rest =>
      match links with
      | 0 => .error .linkLoop
      | links + 1 =>
        walkFrom disk purpose links target.start { path with folders := target.path.names ++ rest }
    | .done p =>
      match path.last? with
      | none => .ok (.node p .folder)
      | some name =>
        match disk.finish purpose p name path.slash with
        | .refused r => .error r
        | .done stop => .ok stop
        | .link target _ =>
          match links with
          | 0 => .error .linkLoop
          | links + 1 =>
            walkFrom disk purpose links target.start
              { target.path with slash := target.path.slash || path.slash }

/-- Walks along a path. -/
def walk (disk : Disk) (purpose : Purpose) (path : Path) : Except Refusal Stop :=
  disk.walkFrom purpose mostLinks ⟨if path.absolute then .system else .work, []⟩ path

/-- Whether a text has a zero byte, which no path can have. -/
def hasZero (s : String) : Bool := s.toList.contains '\x00'

/-- Refuses texts that are no paths: empty ones, and ones with a zero byte or too many bytes. -/
def checkText (s : String) : Except IoError Path :=
  if hasZero s then .error .zeroInPath
  else if s.isEmpty then .error (.refused .notFound)
  else if longestPath < (Utf8.ofString s).length then .error (.refused .nameTooLong)
  else .ok (Path.ofText s)

end Disk

/-- A refusal as a failure of input or output. -/
def Refusal.lift {α : Type} : Except Refusal α → Except IoError α
  | .ok a => .ok a
  | .error r => .error (.refused r)

end Logbook
