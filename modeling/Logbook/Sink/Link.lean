import Logbook.Host
import Logbook.Text.Blank

/-!
# Links to the current file

A link that is moved to each newly adopted file. Moving it means removing what bears its name, if
that can be removed, and making it anew; a failure is reported and does no further harm.
-/

namespace Logbook

/-- What is done when a file is adopted. -/
inductive Hook where
  /-- The watcher is told the path. -/
  | watch
  /-- The link at a path is moved to the file. -/
  | link (path : String)
  deriving DecidableEq, Repr

/-- The path of a link given by a text; blanks around it do not count, and nothing but blanks means
no link. -/
def linkPath? (text : String) : Option String :=
  let path := Text.trimString text
  if path.isEmpty then none else some path

/-- Makes the folder in which a link is going to stand. -/
def prepareLink (path : String) (host : Host) : Host :=
  match parentText? path.toList with
  | none => host
  | some [] => host
  | some parent =>
    let folder := String.ofList parent
    match host.disk.makeFolders folder with
    | (.ok (), disk) => { host with disk := disk }
    | (.error e, disk) => { host with disk := disk }.report (.linkDirectory folder e)

/-- The hooks for a link given by a text. Its folder is made at once. -/
def linkHooks (text : String) (host : Host) : List Hook × Host :=
  match linkPath? text with
  | none => ([], host)
  | some path => ([.link path], prepareLink path host)

/-- What a link to a path points to: paths that are not absolute are meant from the working
folder. -/
def linkTarget (path : String) : Target :=
  if path.toList.head? = some '/' then .system path else .below path

def Target.text (home : String) : Target → String
  | .below path => home ++ "/" ++ path
  | .system path => path

/-- Moves the link at `path` to `target`. -/
def moveLink (path target : String) (host : Host) : Host :=
  let disk := match host.disk.removeFile path with
    | .ok disk => disk
    | .error _ => host.disk
  let target := linkTarget target
  let text := target.text host.home
  match disk.makeLink target text path with
  | .ok disk => { host with disk := disk }
  | .error e => { host with disk := disk }.report (.link path text e)

/-- Does what is to be done when the file at `path` is adopted. -/
def Hook.run (path : String) (host : Host) : Hook → Host
  | .watch => { host with adopted := host.adopted ++ [path] }
  | .link name => moveLink name path host

def runHooks (hooks : List Hook) (path : String) (host : Host) : Host :=
  hooks.foldl (fun host hook => hook.run path host) host

end Logbook
