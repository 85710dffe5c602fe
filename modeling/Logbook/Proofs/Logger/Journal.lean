import Logbook.Logger.Basic

/-!
# A journal of calls

What a backend should have written after a run of actions on its handles, worked out from the
histories of the calls alone: there is no pool, and no record that is filled in and used again. A
draft keeps what a call has been given in the order in which it was given; only when it is emitted
is a line made of it.

| action                    | effect                                                        |
|---------------------------|---------------------------------------------------------------|
| `new`                     | a handle with the defaults of the backend                     |
| `clone`                   | another handle of the same family                             |
| `setLevel`                | the threshold of the family, for drafts still to be started   |
| `start`                   | a draft with the threshold, depth and base fields of a handle |
| `withField`, `withFields` | an addition to a draft                                        |
| `intoLogger`              | a handle of a draft, which is used up                         |
| `emit`                    | perhaps a line of a draft, which is used up                   |
| `drop`                    | a draft is given up                                           |
-/

namespace Logbook

/-- What is done with the handles on a backend and with the calls started from them, which are
referred to by number, and with the clock. -/
inductive Action where
  | clock (now : Time.Moment)
  | new
  | clone (handle : Nat)
  | setLevel (handle : Nat) (level : Level)
  | start (handle : Nat)
  | withField (call : Nat) (key : String) (value : Value)
  | withFields (call : Nat) (keys : List String) (vals : List Value)
  | intoLogger (call : Nat)
  | emit (call : Nat) (level : Level) (message : String) (site : CallSite)
  | drop (call : Nat)

/-- The call with a number, unless it has been used up. -/
def live? {α : Type} (calls : List (Option α)) (call : Nat) : Option α := (calls[call]?).join

namespace Journal

/-! ## Drafts -/

/-- Fields given to a call. -/
inductive Addition where
  | one (key : String) (value : Value)
  | many (keys : List String) (vals : List Value)

/-- Whether a field directs the call instead of being shown. -/
def isControl (key : String) : Value → Bool
  | .time _ => key == "time"
  | .int _ => key == "depth"
  | .uint _ => key == "depth"
  | .text _ => key == "depth"
  | .bool b => b && key == "logger"
  | _ => false

namespace Addition

/-- The keys that an addition shows. -/
def keys : Addition → List String
  | one key value => if isControl key value then [] else [key]
  | many keys _ => keys

/-- The values that an addition shows. -/
def vals : Addition → List Value
  | one key value => if isControl key value then [] else [value]
  | many _ vals => vals

/-- The time that an addition gives. -/
def time? : Addition → Option Time.Stamp
  | one key (.time t) => if key = "time" then some t else none
  | _ => none

/-- What an addition makes of the caller depth. -/
def depth (caller : CallerDepth) : Addition → CallerDepth
  | one key (.int n) => if key = "depth" then caller.adjust n else caller
  | one key (.uint n) => if key = "depth" then caller.adjust (min n largestStep) else caller
  | one key (.text token) => if key = "depth" then caller.apply token else caller
  | _ => caller

/-- Whether an addition marks the call as one meant for a handle. -/
def marks : Addition → Bool
  | one key (.bool b) => b && key == "logger"
  | _ => false

end Addition

/-- A call: what it took over from its handle, and what it has been given. -/
structure Draft where
  threshold : Level
  caller : CallerDepth
  baseKeys : List String
  baseVals : List Value
  additions : List Addition

namespace Draft

/-- The keys of a call. -/
def keys (d : Draft) : List String := d.baseKeys ++ d.additions.flatMap (·.keys)

/-- The values of a call. -/
def vals (d : Draft) : List Value := d.baseVals ++ d.additions.flatMap (·.vals)

/-- The last time that a call was given. -/
def time? (d : Draft) : Option Time.Stamp := (d.additions.filterMap (·.time?)).getLast?

/-- The caller depth of a call. -/
def depth (d : Draft) : CallerDepth := d.additions.foldl Addition.depth d.caller

/-- Whether a call is marked as one meant for a handle. -/
def isMarked (d : Draft) : Bool := d.additions.any (·.marks)

/-- The fields of a call: keys and values in pairs as far as both go, and one that tells of a
mismatch. -/
def fields (d : Draft) : List (String × Value) :=
  d.keys.zip d.vals ++
    if d.keys.length = d.vals.length then []
    else [(Record.mismatchKey, .text Record.mismatchMessage)]

/-- The fields that tell where a call was emitted. -/
def captured (d : Draft) (site : CallSite) : List (String × Value) :=
  match d.depth.mode with
  | .location => locationFields site.stack site.location? site.module? d.depth.skip.toNat
  | .stack => [stackField site.stack d.depth.skip.toNat]
  | .none => []
  | .disabled => []

/-- Whether a call is written when it is emitted. -/
def isWritten (d : Draft) (level : Level) (message : String) : Bool :=
  d.threshold.rank ≤ level.rank && !(message.isEmpty && d.keys.isEmpty && d.vals.isEmpty)

/-- The line of a call that is emitted at a time. -/
def line (d : Draft) (format : TimeFormat) (now : Time.Stamp) (level : Level) (message : String)
    (site : CallSite) : Bytes :=
  Utf8.encode ("\x7b\"time\":\"".toList ++ format.render (d.time?.getD now) ++
    "\",\"level\":\"".toList ++ level.name.toList ++ ['"']) ++
    (d.fields ++ d.captured site).flatMap (fun (key, value) => Line.field key value) ++
    Line.message message ++ Utf8.encode ['\x7d', '\n']

/-- What a call comes to when it is emitted: a line, or nothing. -/
def written (d : Draft) (format : TimeFormat) (now : Time.Stamp) (level : Level) (message : String)
    (site : CallSite) : Bytes :=
  if d.isWritten level message then d.line format now level message site else []

end Draft

/-! ## The journal -/

/-- A handle: the number of its family, its caller depth and its base fields. -/
structure Handle where
  family : Nat
  caller : CallerDepth
  keys : List String
  vals : List Value

end Journal

open Journal

/-- What is known of a backend by its handles and calls, and what it should have written. -/
structure Journal where
  zone : Time.Zone
  now : Time.Moment
  format : TimeFormat
  /-- The defaults of the backend. -/
  threshold : Level
  capture : Capture
  /-- The threshold of each family of handles. -/
  levels : List Level
  handles : List Handle
  drafts : List (Option Draft)
  written : Bytes

namespace Journal

/-- Adds to a draft. -/
def add (j : Journal) (call : Nat) (addition : Addition) : Journal :=
  match live? j.drafts call with
  | some d =>
    { j with drafts := j.drafts.set call (some { d with additions := d.additions ++ [addition] }) }
  | none => j

/-- Takes note of an action. -/
def note (j : Journal) : Action → Journal
  | .clock now => { j with now := now }
  | .new =>
    { j with
      levels := j.levels ++ [j.threshold]
      handles := j.handles ++ [⟨j.levels.length, .ofMode j.capture, [], []⟩] }
  | .clone handle =>
    match j.handles[handle]? with
    | some h => { j with handles := j.handles ++ [h] }
    | none => j
  | .setLevel handle level =>
    match j.handles[handle]? with
    | some h => { j with levels := j.levels.set h.family level }
    | none => j
  | .start handle =>
    match j.handles[handle]? with
    | some h =>
      let d : Draft := ⟨j.levels.getD h.family .debug, h.caller, h.keys, h.vals, []⟩
      { j with drafts := j.drafts ++ [some d] }
    | none => j
  | .withField call key value => j.add call (.one key value)
  | .withFields call keys vals => j.add call (.many keys vals)
  | .intoLogger call =>
    match live? j.drafts call with
    | some d =>
      { j with
        drafts := j.drafts.set call none
        levels := j.levels ++ [d.threshold]
        handles := j.handles ++ [⟨j.levels.length, d.depth, d.keys, d.vals⟩] }
    | none => j
  | .emit call level message site =>
    match live? j.drafts call with
    | some d =>
      { j with
        drafts := j.drafts.set call none
        written := j.written ++ d.written j.format (j.zone.stamp j.now) level message site }
    | none => j
  | .drop call => { j with drafts := j.drafts.set call none }

/-- Takes note of actions one after the other. -/
def noteAll (j : Journal) (actions : List Action) : Journal := actions.foldl note j

end Journal

/-! ## The same on a system -/

/-- A system with the handles and the calls that have been made. -/
structure Bench where
  system : System
  handles : List Logger
  calls : List (Option Entry)

namespace Bench

/-- A system with one backend and no handle yet. -/
def start (sink : Sink) (threshold : Level) (capture : Capture) (format : TimeFormat)
    (interval : Nat) (host : Host) : Bench where
  system := ((System.start host).addBackend (.json (.new sink threshold capture format interval))).2
  handles := []
  calls := []

/-- Changes a call. -/
def change (b : Bench) (call : Nat) (f : Entry → Entry) : Bench :=
  match live? b.calls call with
  | some e => { b with calls := b.calls.set call (some (f e)) }
  | none => b

/-- Performs an action. -/
def act (b : Bench) : Action → Bench
  | .clock now => { b with system := { b.system with host := { b.system.host with now := now } } }
  | .new =>
    let (l, system) := b.system.newLogger 0
    { b with system := system, handles := b.handles ++ [l] }
  | .clone handle =>
    match b.handles[handle]? with
    | some l => { b with handles := b.handles ++ [l] }
    | none => b
  | .setLevel handle level =>
    match b.handles[handle]? with
    | some l => { b with system := b.system.setThreshold l level }
    | none => b
  | .start handle =>
    match b.handles[handle]? with
    | some l =>
      let (e, system) := b.system.entry l
      { b with system := system, calls := b.calls ++ [some e] }
    | none => b
  | .withField call key value => b.change call (·.withField key value)
  | .withFields call keys vals => b.change call (·.withFields keys vals)
  | .intoLogger call =>
    match live? b.calls call with
    | some e =>
      let (l, system) := b.system.intoLogger e
      { system := system, handles := b.handles ++ [l], calls := b.calls.set call none }
    | none => b
  | .emit call level message site =>
    match live? b.calls call with
    | some e =>
      { b with system := b.system.commit e level message site, calls := b.calls.set call none }
    | none => b
  | .drop call => { b with calls := b.calls.set call none }

/-- Performs actions one after the other. -/
def actAll (b : Bench) (actions : List Action) : Bench := actions.foldl act b

end Bench

end Logbook
