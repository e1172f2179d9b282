import SymbolAtlas.Cache.Folder
import SymbolAtlas.Config.Sources
import SymbolAtlas.Update.Schedule
import SymbolAtlas.Workspace

/-!
# Watch sessions

A session indexes a solution and keeps the index current. It starts in steps: the solution is
loaded, each project is tracked, and each project is watched. Edits may come between the steps as
well as after them, and every file that is indexed again is reported.
-/

namespace SymbolAtlas

/-- Why a session cannot start. -/
inductive SessionFault where
  /-- A value would be kept for longer than the clock can tell. -/
  | clockOverflow
  /-- The files of a project cannot be listed. -/
  | unlisted (project : String)
deriving Repr, DecidableEq

structure Session where
  config : Config
  environment : Environment
  solution : Solution
  tree : FileTree
  workspace : Workspace Empty
  schedule : Schedule Unit

namespace Session

/-- A step of the start of a session. -/
inductive Step where
  | load
  | register (p : Project)
  | watch (p : Project)

/-- The steps of the start of a session, in their order. -/
def plan (s : Solution) : List Step :=
  [.load] ++ s.projects.map .register ++ s.projects.map .watch

/-- Listens to nothing. -/
def silent : FileListener Unit := fun _ us => us

def surroundings (s : Session) : Surroundings where
  sources := s.config.sources s.tree

/-- A session that has not taken any step. -/
def new (config : Config) (environment : Environment) (solution : Solution) (tree : FileTree)
    (now : Nat) : Session :=
  let settings := config.cacheSettings environment
  let disk := (settings.directory.map tree.disk).getD {}
  { config, environment, solution, tree
    workspace := { cache := .new settings disk }
    schedule := {
      now
      updater := .new config.updaterSettings solution.dependencies
      memory := () } }

/-- Puts the directory of the durable tier back into the tree. -/
def storeCache (s : Session) : Session :=
  match s.workspace.cache.settings.directory with
  | none => s
  | some p => { s with tree := s.tree.withDisk s.schedule.now p s.workspace.cache.disk }

/-- Loads the solution and makes its index the one that is kept current. -/
def load (s : Session) (version : Option String) : Except SessionFault (Collection × Session) :=
  match s.workspace.load (s.config.sources s.tree) s.schedule.now s.solution version with
  | .error .clockOverflow => .error .clockOverflow
  | .ok (c, workspace) =>
    let s := { s with workspace, schedule := { s.schedule with index := workspace.index } }
    .ok (c, s.storeCache)

/-- Takes a step. A project whose folder cannot be watched is passed over. -/
def perform (s : Session) : Step → Except SessionFault Session
  | .load => (s.load none).map (·.2)
  | .register p =>
    match s.schedule.updater.register (s.config.sources s.tree) p with
    | .error _ => .error (.unlisted p.name)
    | .ok (_, updater) => .ok { s with schedule := { s.schedule with updater } }
  | .watch p =>
    let watcher := Watcher.start? s.tree p.root s.config.watcherSettings
    .ok { s with
      schedule := { s.schedule with watchers := s.schedule.watchers ++ watcher.toList } }

/-- A session that has taken all the steps of its start. -/
def start (s : Session) : Except SessionFault Session := (plan s.solution).foldlM perform s

/-- Changes the tree, which the watchers take notice of. -/
def edit (s : Session) (e : Edit) : Session :=
  { s with
    tree := s.tree.edit s.schedule.now e
    schedule := s.schedule.sight (s.tree.sightings e) }

/-- Lets some time pass. -/
def sleep (s : Session) (time : Nat) : Session :=
  { s with schedule := s.schedule.sleep s.surroundings silent time }

/-- How many times files have been indexed again. -/
def reports (s : Session) : Nat := s.schedule.updates.length

/-- Ends the session. -/
def shutdown (s : Session) : Session :=
  { s with schedule := { s.schedule.shutdown with watchers := [] } }

/-- The report that files of a project have been indexed again. -/
def updateMessage (u : IndexUpdate) : String :=
  "Re-indexed " ++ u.project ++ " (" ++ toString u.files.length ++ " files): +" ++
    toString u.delta.added ++ " -" ++ toString u.delta.removed ++ " ~" ++ toString u.delta.updated

/-- The reports of a session, in their order. -/
def messages (s : Session) : List String := s.schedule.updates.reverse.map updateMessage

def closingMessage : String := "Shutting down"

end Session

end SymbolAtlas
