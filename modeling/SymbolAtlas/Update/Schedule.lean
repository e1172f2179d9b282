import SymbolAtlas.Update.Updater
import SymbolAtlas.Watch.Watcher

/-!
# Letting time pass

An updater's timer, its tasks and the watchers that report to it all wait for moments to come. Time
passes only when it is let to, and then everything that is due happens in turn. Parsing takes its
time; all else happens at once.
-/

namespace SymbolAtlas

/-- The sources, and how long it takes to parse some files. -/
structure Surroundings where
  sources : Sources
  parseTime : List Path → Nat := fun _ => 0

structure Schedule (σ : Type) where
  now : Nat := 0
  updater : Updater
  /-- What the listener remembers. -/
  memory : σ
  index : Snapshot := {}
  /-- When the updater's timer runs out. -/
  timer : Option Nat := none
  /-- The tasks whose files are being parsed, with the moments when that is done. -/
  parsing : List (Nat × Nat) := []
  watchers : List Watcher := []
  /-- What was put into the index, the latest first. -/
  updates : List IndexUpdate := []

namespace Schedule

variable {σ : Type}

/-- Reports changes to the updater. -/
def report (e : Surroundings) (listen : FileListener σ) (s : Schedule σ)
    (changes : List FileChange) : Schedule σ :=
  let (updater, memory) := changes.foldl (fun us c =>
    Updater.notify e.sources listen c.path c.change us) (s.updater, s.memory)
  { s with updater, memory }

/-- Lets each watcher do something and reports the changes that come of it. -/
def withWatchers (e : Surroundings) (listen : FileListener σ)
    (f : Watcher → List FileChange × Watcher) (s : Schedule σ) : Schedule σ :=
  let results := s.watchers.map f
  { s.report e listen (results.flatMap (·.1)) with watchers := results.map (·.2) }

/-- Sets the timer if the updater has armed it. -/
def setTimer (s : Schedule σ) : Schedule σ :=
  if s.updater.armed && s.timer.isNone then
    { s with timer := some (s.now + s.updater.settings.debounce) }
  else s

/-- Lets every task that can parse do so. -/
def startParsing (e : Surroundings) (s : Schedule σ) : Schedule σ :=
  s.updater.tasks.foldl (fun s t =>
    match t.parsed, t.rest with
    | none, (_, files) :: _ =>
      { s with
        updater := s.updater.parse e.sources t.id
        parsing := s.parsing ++ [(t.id, s.now + e.parseTime files)] }
    | _, _ => s) s

/-- Starts everything that needs not wait. -/
def poll (e : Surroundings) (listen : FileListener σ) (s : Schedule σ) : Schedule σ :=
  (setTimer (s.withWatchers e listen (·.takeIn s.now))).startParsing e

/-- The earlier of two moments. -/
def earlier : Option Nat → Option Nat → Option Nat
  | some a, some b => some (min a b)
  | a, none => a
  | none, b => b

/-- When the next thing is due. -/
def due? (s : Schedule σ) : Option Nat :=
  (s.parsing.map (·.2) ++ s.watchers.filterMap Watcher.due?).foldl
    (fun m t => earlier m (some t)) s.timer

/-- Puts into the index what a task has parsed. -/
def apply (s : Schedule σ) (id : Nat) : Schedule σ :=
  let (update, index, updater) := s.updater.apply s.index id
  { s with
    updater, index
    updates := update.toList ++ s.updates
    parsing := s.parsing.filter (·.1 != id) }

/-- Does everything that is due at a moment. -/
def happen (e : Surroundings) (listen : FileListener σ) (s : Schedule σ) : Schedule σ :=
  let s := if s.timer == some s.now then { s with updater := s.updater.fire, timer := none } else s
  let parsed := s.parsing.filter (·.2 == s.now)
  let s := parsed.foldl (fun s p => s.apply p.1) s
  s.withWatchers e listen fun w => if w.due? == some s.now then w.look s.now else ([], w)

/-- Lets time pass until a moment or, if `untilIdle` says so, until nothing is under way, in at most
so many steps. -/
def run (e : Surroundings) (listen : FileListener σ) (untilIdle : Bool) (stop : Nat) :
    Nat → Schedule σ → Schedule σ
  | 0, s => s
  | fuel + 1, s =>
    if untilIdle && s.updater.inFlight == 0 then s
    else
      let s := s.poll e listen
      match s.due? with
      | none => { s with now := stop }
      | some t =>
        if stop < t then { s with now := stop }
        else run e listen untilIdle stop fuel (happen e listen { s with now := t })

/-- More steps than there are things that can happen. -/
def steps (s : Schedule σ) : Nat :=
  let waiting := (s.watchers.map fun w => w.queue.length + w.forwarder.held.size).foldr (· + ·) 0
  let slices := (s.updater.tasks.map fun t => t.rest.length + 1).foldr (· + ·) 0
  let projects := s.updater.tracking.projects.size + s.updater.dependents.size +
    (s.updater.dependents.values.map (·.size)).foldr (· + ·) 0
  4 * (waiting + slices + 2) * (projects + 3)

/-- Lets some time pass. -/
def sleep (e : Surroundings) (listen : FileListener σ) (time : Nat) (s : Schedule σ) : Schedule σ :=
  s.run e listen false (s.now + time) s.steps

/-- Waits until nothing is under way, but not longer than allowed. Tells whether that came. -/
def wait (e : Surroundings) (listen : FileListener σ) (timeout : Nat) (s : Schedule σ) :
    Bool × Schedule σ :=
  let s := s.run e listen true (s.now + timeout) s.steps
  (s.updater.inFlight == 0, s)

/-- Ends all timers and tasks of the updater. -/
def shutdown (s : Schedule σ) : Schedule σ :=
  { s with updater := s.updater.shutdown, timer := none, parsing := [] }

/-- Lets the watchers take notice of edits. -/
def sight (s : Schedule σ) (sightings : List Sighting) : Schedule σ :=
  { s with watchers := s.watchers.map fun w => sightings.foldl Watcher.sight w }

end Schedule

end SymbolAtlas
