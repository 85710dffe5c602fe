import Logbook.Logger.Describe

/-!
# Desks

A desk holds handles, entries, backends, pools, records and sinks under names, each kind by itself.
Whatever is put under a name takes the place of what was there. A backend that nothing on the desk
refers to any more is given up, with a last sync, and so is a sink that loses its name.
-/

namespace Logbook

abbrev Table (α : Type) := List (String × α)

namespace Table

def get? {α : Type} (t : Table α) (name : String) : Option α := List.lookup name t

def remove {α : Type} (t : Table α) (name : String) : Table α :=
  List.filter (fun entry => entry.1 != name) t

/-- A table with a thing under a name. -/
def put {α : Type} (t : Table α) (name : String) (a : α) : Table α := (name, a) :: t.remove name

def names {α : Type} (t : Table α) : List String :=
  (List.map Prod.fst t).mergeSort fun a b => decide (a ≤ b)

end Table

/-- Everything that is at hand. -/
structure Desk where
  system : System
  entries : Table Entry
  loggers : Table Logger
  /-- Backends that write and are held apart from their handles, by number. -/
  writing : Table Nat
  /-- Backends that hold records back and are held apart from their handles, by number. -/
  holding : Table Nat
  sinks : Table Sink
  pools : Table Pool
  records : Table Record

namespace Desk

def start (host : Host) : Desk := ⟨.start host, [], [], [], [], [], [], []⟩

def host (desk : Desk) : Host := desk.system.host

def setHost (desk : Desk) (host : Host) : Desk := { desk with system.host := host }

/-- Whether something on the desk refers to a backend. -/
def refersTo (desk : Desk) (id : Nat) : Bool :=
  desk.entries.any (·.2.backend == id) || desk.loggers.any (·.2.backend == id) ||
    desk.writing.any (·.2 == id) || desk.holding.any (·.2 == id)

/-- Gives up the backends that nothing refers to. -/
def settle (desk : Desk) : Desk :=
  (List.range desk.system.backends.length).foldl
    (fun desk id =>
      if desk.refersTo id then desk else { desk with system := desk.system.closeBackend id })
    desk

def putLogger (desk : Desk) (name : String) (l : Logger) : Desk :=
  { desk with loggers := desk.loggers.put name l }.settle

def putEntry (desk : Desk) (name : String) (e : Entry) : Desk :=
  { desk with entries := desk.entries.put name e }.settle

def dropEntry (desk : Desk) (name : String) : Desk :=
  { desk with entries := desk.entries.remove name }.settle

def dropHandle (desk : Desk) (name : String) : Desk :=
  { desk with loggers := desk.loggers.remove name }.settle

def dropWriting (desk : Desk) (name : String) : Desk :=
  { desk with writing := desk.writing.remove name }.settle

/-- Takes a backend that holds records back away. -/
def dropHolding (desk : Desk) (name : String) : Desk :=
  { desk with holding := desk.holding.remove name }.settle

/-- Takes away everything under a name that refers to a backend, entries apart: the handle first,
then the backends. -/
def dropLogger (desk : Desk) (name : String) : Desk :=
  ((desk.dropHandle name).dropWriting name).dropHolding name

/-- Puts a backend that writes under a name, and then a handle on it. -/
def addJson (desk : Desk) (name : String) (b : JsonBackend) : Logger × Desk :=
  let (id, system) := desk.system.addBackend (.json b)
  let (l, system) := system.newLogger id
  let desk := { desk with system := system, writing := desk.writing.put name id }.settle
  (l, desk.putLogger name l)

/-- Puts a backend that holds records back under a name, and then a handle on it. -/
def addInit (desk : Desk) (name : String) : Logger × Desk :=
  let (id, system) := desk.system.addBackend (.init [])
  let (l, system) := system.newLogger id
  let desk := { desk with system := system, holding := desk.holding.put name id }.settle
  (l, desk.putLogger name l)

/-- Puts a handle on a backend of its own under a name. -/
def addPlain (desk : Desk) (name : String) (b : Backend) : Logger × Desk :=
  let (id, system) := desk.system.addBackend b
  let (l, system) := system.newLogger id
  (l, { desk with system := system }.putLogger name l)

/-- Builds a handle by settings and puts it under a name, unless its sink cannot be opened. -/
def build (desk : Desk) (name : String) (config : Config) (sink? : Option Sink) :
    Except LogError Logger × Desk :=
  match desk.system.build config sink? with
  | (.error e, system) => (.error e, { desk with system := system })
  | (.ok l, system) => (.ok l, { desk with system := system }.putLogger name l)

/-- The entry under a name, which is taken away, or a new one of the handle under that name. -/
def takeEntry? (desk : Desk) (name : String) : Option (Entry × Desk) :=
  match desk.entries.get? name with
  | some e => some (e, { desk with entries := desk.entries.remove name })
  | none => (desk.loggers.get? name).map fun l =>
      let (e, system) := desk.system.entry l
      (e, { desk with system := system })

/-- Emits a taken entry, after which nothing refers to its backend through it. -/
def emit (desk : Desk) (e : Entry) (level : Level) (message : String) (site : CallSite) : Desk :=
  { desk with system := desk.system.commit e level message site }.settle

/-- Makes a handle of a taken entry and puts it under a name. -/
def convert (desk : Desk) (name : String) (e : Entry) : Logger × Desk :=
  let (l, system) := desk.system.intoLogger e
  (l, { desk with system := system }.putLogger name l)

def closeSink (desk : Desk) (sink? : Option Sink) : Desk :=
  match sink? with
  | some sink => desk.setHost (sink.close desk.host)
  | none => desk

/-- Puts a sink under a name; the one that had it is given up afterwards. -/
def putSink (desk : Desk) (name : String) (sink : Sink) : Desk :=
  { desk with sinks := desk.sinks.put name sink }.closeSink (desk.sinks.get? name)

/-- Keeps the state of a sink that has been used. -/
def updateSink (desk : Desk) (name : String) (sink : Sink) (host : Host) : Desk :=
  { desk with sinks := desk.sinks.put name sink }.setHost host

def dropSink (desk : Desk) (name : String) : Desk :=
  { desk with sinks := desk.sinks.remove name }.closeSink (desk.sinks.get? name)

/-- Clears the desk: entries first, then handles, backends and sinks, each kind in the order of the
names. -/
def finish (desk : Desk) : Desk :=
  let desk := desk.entries.names.foldl dropEntry desk
  let desk := desk.loggers.names.foldl dropHandle desk
  let desk := desk.writing.names.foldl dropWriting desk
  let desk := { desk with holding := [] }.settle
  desk.sinks.names.foldl dropSink desk

end Desk

end Logbook
