import SymbolAtlas.Update.Work

/-!
# The updater

The updater finds changes of tracked files or is told of them, tells its listeners, and submits
tasks that index the changed files again. Changes that are reported are held back for a while, so
that a burst of them becomes one task. A task parses the files of one project, then puts what was
parsed into the index, and goes on with the next project.
-/

namespace SymbolAtlas

structure Updater.Settings where
  /-- How long reported changes are held back, in milliseconds. -/
  debounce : Nat := 500
  /-- How long running tasks are waited for at the end. -/
  grace : Nat := 5000
  /-- Whether looking for changes finds new files too. -/
  scan : Bool := false
deriving Repr, DecidableEq

/-- What an updater has done. -/
structure Updater.Stats where
  cyclesRun : Nat := 0
  cyclesSkipped : Nat := 0
  eventsRaised : Nat := 0
  tasksSubmitted : Nat := 0
  tasksCompleted : Nat := 0
  tasksCancelled : Nat := 0
deriving Repr, DecidableEq

/-- The files of a project that have been parsed for a task and are not yet in the index. -/
structure ParsedSlice where
  project : String
  files : List Path
  symbols : List Symbol
deriving Repr, DecidableEq

/-- A task that is under way. -/
structure UpdateTask where
  id : Nat
  parsed : Option ParsedSlice := none
  /-- The projects that come later, with their files. -/
  rest : List (String × List Path)
deriving Repr, DecidableEq

/-- Parses the files of the next project of a task. -/
def UpdateTask.parse (t : UpdateTask) (s : Sources) : UpdateTask :=
  match t.parsed, t.rest with
  | none, (project, files) :: rest =>
    { t with
      parsed := some { project, files, symbols := (s.collectFiles project files).symbols }, rest }
  | _, _ => t

structure Updater where
  settings : Updater.Settings
  /-- For each project those that depend on it directly. -/
  dependents : ProjectGraph
  tracking : Tracking := {}
  /-- The changes that are held back, merged for each file. -/
  batch : Std.TreeMap Place FileEvent := {}
  /-- Whether the timer runs that ends the holding back. -/
  armed : Bool := false
  /-- Whether changes are being looked for. -/
  detecting : Bool := false
  tasks : List UpdateTask := []
  nextTask : Nat := 0
  /-- How many timers and tasks are under way. -/
  inFlight : Nat := 0
  cancelled : Bool := false
  stats : Updater.Stats := {}

/-- Someone who is told of each change of a file, and may answer by working with the updater. It
keeps a memory of its own. -/
abbrev FileListener (σ : Type) := FileEvent → Updater × σ → Updater × σ

namespace Updater

variable {σ : Type}

/-- An updater for projects with the given dependencies. -/
def new (settings : Settings) (dependencies : ProjectGraph) : Updater where
  settings
  dependents := dependencies.reverse

/-- Tracks the source files of a project, and tells how many there are. -/
def register (u : Updater) (s : Sources) (p : Project) : Except String (Nat × Updater) :=
  match u.tracking.register s p with
  | .ok (n, tracking) => .ok (n, { u with tracking })
  | .error e => .error ("Failed to list files of project " ++ p.name ++ ": " ++ e)

/-- Tells a listener of some events. -/
def broadcast (listen : FileListener σ) (events : List FileEvent) (us : Updater × σ) :
    Updater × σ :=
  let stats := { us.1.stats with eventsRaised := us.1.stats.eventsRaised + events.length }
  events.foldl (fun us e => listen e us) ({ us.1 with stats }, us.2)

/-- Starts a task for some work, unless there is nothing to do. -/
def start (u : Updater) (work : Work) : Updater :=
  if work.isEmpty then u
  else
    { u with
      tasks := u.tasks ++ [{ id := u.nextTask, rest := work.slices }]
      nextTask := u.nextTask + 1
      inFlight := u.inFlight + 1
      stats := { u.stats with tasksSubmitted := u.stats.tasksSubmitted + 1 } }

/-- Submits a task for some changes, if there are any. -/
def submit (u : Updater) (events : List FileEvent) : Updater :=
  if u.cancelled || events.isEmpty then u
  else u.start (Work.ofChanges u.tracking u.dependents events)

/-- What two events of one file in a row come to. -/
def mergeEvents (earlier later : FileEvent) : FileEvent :=
  { earlier with
    change := earlier.change.andThen later.change
    project := earlier.project.orElse fun _ => later.project }

/-- Holds back an event, merged with what is held back for its file. -/
def hold (u : Updater) (e : FileEvent) : Updater :=
  let u := { u with
    batch := u.batch.alter e.path.place fun
      | some old => some (mergeEvents old e)
      | none => some e }
  if u.armed then u else { u with armed := true, inFlight := u.inFlight + 1 }

/-- Takes in an event that was reported. -/
def enqueue (u : Updater) (e : FileEvent) : Updater :=
  if u.cancelled then u
  else if u.settings.debounce = 0 then u.submit [e]
  else u.hold e

/-- Takes in a change that was reported, and tells the listener. -/
def notify (s : Sources) (listen : FileListener σ) (p : Path) (c : Change) (us : Updater × σ) :
    Updater × σ :=
  let (event, tracking) := us.1.tracking.notice s p c
  let (u, memory) := broadcast listen [event] ({ us.1 with tracking }, us.2)
  (u.enqueue event, memory)

/-- Looks for changes of the tracked files and submits a task for them. Nothing is looked for while
a search is going on. -/
def detect (s : Sources) (listen : FileListener σ) (us : Updater × σ) :
    Option (List FileEvent) × (Updater × σ) :=
  let (u, memory) := us
  if u.detecting then
    let stats := { u.stats with cyclesSkipped := u.stats.cyclesSkipped + 1 }
    (none, { u with stats }, memory)
  else
    let (events, tracking) := u.tracking.survey s u.settings.scan
    let stats := { u.stats with cyclesRun := u.stats.cyclesRun + 1 }
    let u := { u with tracking, stats, detecting := true }
    let (u, memory) := if events.isEmpty then (u, memory) else broadcast listen events (u, memory)
    (some events, { u.submit events with detecting := false }, memory)

/-! ## Timers and tasks -/

/-- The timer has run out: what was held back becomes a task. -/
def fire (u : Updater) : Updater :=
  let events := u.batch.values
  let v := { u with armed := false, batch := {} }.submit events
  { v with inFlight := v.inFlight - 1 }

/-- Lets a task parse the files of its next project. -/
def parse (u : Updater) (s : Sources) (id : Nat) : Updater :=
  { u with tasks := u.tasks.map fun t => if t.id = id then t.parse s else t }

/-- Takes a task off that has nothing left to do. -/
def finish (u : Updater) (t : UpdateTask) : Updater :=
  if t.parsed.isNone && t.rest.isEmpty then
    { u with
      tasks := u.tasks.filter (·.id != t.id)
      inFlight := u.inFlight - 1
      stats := { u.stats with tasksCompleted := u.stats.tasksCompleted + 1 } }
  else u

/-- Puts what a task has parsed into the index. -/
def apply (u : Updater) (x : Snapshot) (id : Nat) : Option IndexUpdate × Snapshot × Updater :=
  match u.tasks.find? (·.id == id) with
  | none => (none, x, u)
  | some t =>
    match t.parsed with
    | none => (none, x, u)
    | some slice =>
      let (y, delta) := x.replaceFiles slice.files slice.symbols
      let t := { t with parsed := none }
      let tasks := u.tasks.map fun (v : UpdateTask) => if v.id = id then t else v
      let u := { u with tasks }
      (some { task := id, project := slice.project, files := slice.files, delta }, y, u.finish t)

/-- Ends all timers and tasks and forgets all files. -/
def shutdown (u : Updater) : Updater :=
  { u with
    cancelled := true
    tracking := {}
    batch := {}
    armed := false
    tasks := []
    inFlight := 0
    stats := { u.stats with tasksCancelled := u.stats.tasksCancelled + u.tasks.length } }

end Updater

end SymbolAtlas
