import SymbolAtlas.PathSet
import SymbolAtlas.Sources
import SymbolAtlas.Watch.Change

/-!
# Tracking files

Which files are watched for changes, what they looked like when they were last seen, and which
project owns each of them.
-/

namespace SymbolAtlas

structure Tracking where
  /-- What each file looked like, under the path by which it was first met. -/
  seen : Std.TreeMap Place (Path × Fingerprint) := {}
  owners : Std.TreeMap Place String := {}
  /-- The files of each project. -/
  files : Std.TreeMap String PathSet := {}
  projects : Std.TreeMap String Project := {}

namespace Tracking

def size (t : Tracking) : Nat := t.seen.size

/-- Remembers what a file looks like. -/
def see (t : Tracking) (p : Path) (f : Fingerprint) : Tracking :=
  { t with
    seen := t.seen.alter p.place fun
      | some (q, _) => some (q, f)
      | none => some (p, f) }

/-- Remembers what a file looks like, and that a project owns it. -/
def track (t : Tracking) (p : Path) (project : String) (f : Fingerprint) : Tracking :=
  { t.see p f with
    files := t.files.alter project fun s => some (PathSet.add (s.getD {}) p)
    owners := t.owners.insert p.place project }

/-- Forgets a file. -/
def untrack (t : Tracking) (p : Path) : Tracking :=
  let files := match t.owners[p.place]? with
    | some project => t.files.modify project fun s => s.erase p.place
    | none => t.files
  { t with seen := t.seen.erase p.place, owners := t.owners.erase p.place, files }

/-- The later of two projects, unless the earlier one has the deeper root. -/
def deeper (a b : Project) : Project :=
  if b.root.place.length < a.root.place.length then a else b

/-- The project with the deepest root around a path, and of equally deep ones the last by name. -/
def around? (t : Tracking) (p : Path) : Option Project :=
  match t.projects.values.filter fun q => p.startsWith q.root with
  | [] => none
  | first :: rest => some (rest.foldl deeper first)

/-- The project that a file belongs to: its owner, or else the one with the deepest root around
it. -/
def projectOf? (t : Tracking) (p : Path) : Option String :=
  match t.owners[p.place]? with
  | some project => some project
  | none => (t.around? p).map Project.name

/-- The files of a project. -/
def filesOf (t : Tracking) (project : String) : PathSet := (t.files[project]?).getD {}

/-- Registers a project and tracks its source files that can be seen. Tells how many there are. -/
def register (t : Tracking) (s : Sources) (p : Project) : Except String (Nat × Tracking) :=
  match s.list p with
  | .error e => .error e
  | .ok files =>
    let found := files.filterMap fun f =>
      match s.fingerprint f with
      | .ok look => some (f, look)
      | .error _ => none
    let t := { t with projects := t.projects.insert p.name p }
    .ok (found.length, found.foldl (fun t (f, look) => t.track f p.name look) t)

end Tracking

/-- A change of a file, with the project that the file belongs to where that is known. -/
structure FileEvent where
  path : Path
  change : Change
  project : Option String
deriving Repr, DecidableEq

namespace Tracking

/-- The files that are gone, under the paths by which they were met. -/
def gone (t : Tracking) (s : Sources) : List Path :=
  t.seen.values.filterMap fun (p, _) =>
    match s.fingerprint p with
    | .error .missing => some p
    | _ => none

/-- The files that look different from before, with what they look like now. -/
def altered (t : Tracking) (s : Sources) : List (Path × Fingerprint) :=
  t.seen.values.filterMap fun (p, old) =>
    match s.fingerprint p with
    | .ok new => if new = old then none else some (p, new)
    | .error _ => none

/-- The source files of the registered projects that are not tracked, with their projects. -/
def appeared (t : Tracking) (s : Sources) : List (Path × String × Fingerprint) :=
  t.projects.values.flatMap fun project =>
    match s.list project with
    | .error _ => []
    | .ok files => files.filterMap fun p =>
      if t.seen.contains p.place || !s.isSource p then none
      else match s.fingerprint p with
        | .ok f => some (p, project.name, f)
        | .error _ => none

/-- Takes in that a file is gone. -/
def noteGone (t : Tracking) (p : Path) : FileEvent × Tracking :=
  (⟨p, .deleted, t.projectOf? p⟩, t.untrack p)

def noteAltered (t : Tracking) (p : Path) (f : Fingerprint) : FileEvent × Tracking :=
  (⟨p, .contentChanged, t.projectOf? p⟩, t.see p f)

/-- Takes in that a file has appeared, unless it is tracked already. -/
def noteAppeared (t : Tracking) (p : Path) (project : String) (f : Fingerprint) :
    Option FileEvent × Tracking :=
  if t.seen.contains p.place then (none, t)
  else (some ⟨p, .created, some project⟩, t.track p project f)

/-- Takes in one thing after the other and lists the events. -/
def noteEach {α : Type} (note : Tracking → α → Option FileEvent × Tracking) (t : Tracking)
    (xs : List α) : List FileEvent × Tracking :=
  let (events, t) := xs.foldl (fun (acc : List FileEvent × Tracking) x =>
    let (e, t) := note acc.2 x
    (e.toList ++ acc.1, t)) ([], t)
  (events.reverse, t)

/-- Compares the tracked files with what they look like now, and looks for new ones if `scan` says
so. The events are in the order of the paths. -/
def survey (t : Tracking) (s : Sources) (scan : Bool) : List FileEvent × Tracking :=
  let appeared := if scan then t.appeared s else []
  let (first, u) := noteEach (fun t p => (t.noteGone p).map some id) t (t.gone s)
  let (second, u) := noteEach (fun t (p, f) => (t.noteAltered p f).map some id) u (t.altered s)
  let (third, u) := noteEach (fun t (p, project, f) => t.noteAppeared p project f) u appeared
  ((first ++ second ++ third).mergeSort fun a b => (a.path.compare b.path).isLE, u)

/-- Takes in a change that was reported. A file that cannot be seen is left as it was. -/
def notice (t : Tracking) (s : Sources) (p : Path) (c : Change) : FileEvent × Tracking :=
  let project := t.projectOf? p
  let u := match c with
    | .deleted => t.untrack p
    | _ => match s.fingerprint p, project with
      | .ok f, some owner => t.track p owner f
      | .ok f, none => t.see p f
      | .error _, _ => t
  (⟨p, c, project⟩, u)

end Tracking

end SymbolAtlas
