import SymbolAtlas.Proofs.Update.Steps

/-!
# An updater at work

Files are edited and reported, the timer runs out, tasks parse files and put what they have parsed
into the index, all of it in any order. A diary tells what has happened.
-/

namespace SymbolAtlas

/-- What a task has parsed at one time, and the sources that it was parsed from. -/
structure Reading where
  task : Nat
  slice : ParsedSlice
  sources : Sources

/-- An entry of a diary. -/
inductive Happening where
  | edited (before after : Sources)
  | noticed (e : FileEvent)
  /-- Changes were submitted, when it was known of the files what the tracking tells. What became a
  task of them is told as it was at first. -/
  | submitted (events : List FileEvent) (tracking : Tracking) (task : Option UpdateTask)
  | parsed (r : Reading)
  /-- What a task had parsed last was put into the index. -/
  | indexed (u : IndexUpdate) (r : Option Reading)

namespace Diary

variable {α : Type} {diary : List Happening}

/-- What the latest entry tells that tells something. -/
def latest? (tells : Happening → Option α) (diary : List Happening) : Option α :=
  diary.reverse.findSome? tells

/-- The latest reading of some sort. -/
def parsedLast? (wanted : Reading → Prop) [DecidablePred wanted] (diary : List Happening) :
    Option Reading :=
  latest? (fun h => match h with
    | .parsed r => if wanted r then some r else none
    | _ => none) diary

/-- What a task has parsed last. -/
def readingOf? (diary : List Happening) (id : Nat) : Option Reading :=
  parsedLast? (fun r => r.task = id) diary

/-- The changes that were noticed, in their order. -/
def noticed (diary : List Happening) : List FileEvent :=
  diary.filterMap fun h => match h with
    | .noticed e => some e
    | _ => none

/-- The changes that were noticed after something was submitted last. -/
def waiting (diary : List Happening) : List FileEvent :=
  diary.foldl (fun events h => match h with
    | .noticed e => events ++ [e]
    | .submitted _ _ _ => []
    | _ => events) []

theorem latest?_concat (tells : Happening → Option α) (diary : List Happening) (h : Happening) :
    latest? tells (diary ++ [h]) = (tells h).or (latest? tells diary) := by
  unfold latest?
  rw [List.reverse_append, List.reverse_singleton, List.singleton_append, List.findSome?_cons]
  cases tells h <;> rfl

theorem noticed_append (diary later : List Happening) :
    noticed (diary ++ later) = noticed diary ++ noticed later := by
  unfold noticed
  rw [List.filterMap_append]

theorem waiting_noticed (diary : List Happening) (e : FileEvent) :
    waiting (diary ++ [.noticed e]) = waiting diary ++ [e] := by
  unfold waiting
  rw [List.foldl_append]
  rfl

theorem waiting_submitted (diary : List Happening) (events : List FileEvent) (tracking : Tracking)
    (task : Option UpdateTask) : waiting (diary ++ [.submitted events tracking task]) = [] := by
  unfold waiting
  rw [List.foldl_append]
  rfl

/-- A place in a diary to which an entry was added. -/
theorem concat_eq_split {before after : List Happening} {g h : Happening}
    (heq : diary ++ [g] = before ++ h :: after) :
    (before = diary ∧ h = g ∧ after = []) ∨
      ∃ earlier, after = earlier ++ [g] ∧ diary = before ++ h :: earlier := by
  induction after using List.reverseRecOn with
  | nil =>
      obtain ⟨hdiary, hlast⟩ := List.append_inj' heq rfl
      exact .inl ⟨hdiary.symm, (List.cons.inj hlast).1.symm, rfl⟩
  | append_singleton earlier g' _ =>
      rw [← List.cons_append, ← List.append_assoc] at heq
      obtain ⟨hdiary, hlast⟩ := List.append_inj' heq rfl
      exact .inr ⟨earlier, by rw [(List.cons.inj hlast).1], hdiary⟩

end Diary

/-- An updater with the sources that it reads and the index that it keeps. -/
structure UpdateDesk where
  sources : Sources
  updater : Updater
  index : Snapshot
  diary : List Happening := []

/-- What can happen next. -/
inductive UpdateMove where
  | register (p : Project)
  | edit (s : Sources)
  | notify (p : Path) (c : Change)
  | fire
  | parse (id : Nat)
  | apply (id : Nat)

/-- What is told of changes that were submitted, where the new task would have a number. -/
def Updater.submission (v : Updater) (events : List FileEvent) (id : Nat) : Happening :=
  .submitted events v.tracking (v.tasks.find? (·.id == id))

/-- What a task has parsed and not yet put into the index. -/
def Updater.parsed? (u : Updater) (id : Nat) : Option ParsedSlice :=
  (u.tasks.find? (·.id == id)).bind UpdateTask.parsed

namespace UpdateDesk

open Diary

/-- An updater that has just been set up. -/
def new (s : Sources) (settings : Updater.Settings) (dependencies : ProjectGraph) (x : Snapshot) :
    UpdateDesk where
  sources := s
  updater := .new settings dependencies
  index := x

def register (d : UpdateDesk) (p : Project) : UpdateDesk :=
  match d.updater.register d.sources p with
  | .ok (_, updater) => { d with updater }
  | .error _ => d

def edit (d : UpdateDesk) (s : Sources) : UpdateDesk :=
  { d with sources := s, diary := d.diary ++ [.edited d.sources s] }

def notify (d : UpdateDesk) (p : Path) (c : Change) : UpdateDesk :=
  let event := (d.updater.tracking.notice d.sources p c).1
  let v := (Updater.notify d.sources (fun _ us => us) p c (d.updater, ())).1
  let noticed := d.diary ++ [.noticed event]
  { d with
    updater := v
    diary := if d.updater.settings.debounce = 0
      then noticed ++ [v.submission [event] d.updater.nextTask] else noticed }

/-- The timer runs out only when it runs. -/
def fire (d : UpdateDesk) : UpdateDesk :=
  if d.updater.armed then
    let v := d.updater.fire
    { d with
      updater := v
      diary := d.diary ++ [v.submission d.updater.batch.values d.updater.nextTask] }
  else d

def parse (d : UpdateDesk) (id : Nat) : UpdateDesk :=
  let v := d.updater.parse d.sources id
  let fresh := if (d.updater.parsed? id).isNone then v.parsed? id else none
  { d with
    updater := v
    diary := d.diary ++ fresh.toList.map fun slice => .parsed ⟨id, slice, d.sources⟩ }

def apply (d : UpdateDesk) (id : Nat) : UpdateDesk :=
  let (update, index, updater) := d.updater.apply d.index id
  { d with
    updater, index
    diary := d.diary ++ update.toList.map fun u => .indexed u (Diary.readingOf? d.diary id) }

def move (d : UpdateDesk) : UpdateMove → UpdateDesk
  | .register p => d.register p
  | .edit s => d.edit s
  | .notify p c => d.notify p c
  | .fire => d.fire
  | .parse id => d.parse id
  | .apply id => d.apply id

def run (d : UpdateDesk) (moves : List UpdateMove) : UpdateDesk := moves.foldl move d

/-- The report that a move is, with the project to which the file belongs by then. -/
def report? (d : UpdateDesk) : UpdateMove → Option FileEvent
  | .notify p c => some ⟨p, c, d.updater.tracking.projectOf? p⟩
  | _ => none

/-- The reports among some moves, in their order. -/
def reports (d : UpdateDesk) : List UpdateMove → List FileEvent
  | [] => []
  | m :: rest => (d.report? m).toList ++ (d.move m).reports rest

/-! ## What a move comes to -/

variable {d : UpdateDesk} {p : Path} {c : Change}

theorem notify_of_prompt (hrunning : d.updater.cancelled = false)
    (hdebounce : d.updater.settings.debounce = 0) :
    let w := d.updater.noting d.sources p c
    let e := (d.updater.tracking.notice d.sources p c).1
    d.notify p c = { d with
      updater := w.submit [e]
      diary := d.diary ++ [.noticed e] ++ [(w.submit [e]).submission [e] w.nextTask] } := by
  intro w e
  have hv : w.enqueue e = w.submit [e] := by
    have hrunning' : w.cancelled = false := hrunning
    rw [Updater.enqueue_eq hrunning']
    exact if_pos hdebounce
  unfold notify
  dsimp only
  rw [Updater.notify_eq, if_pos hdebounce]
  change { d with updater := w.enqueue e, diary := _ ++ [(w.enqueue e).submission _ _] } = _
  rw [hv]
  rfl

theorem notify_of_debounce (hrunning : d.updater.cancelled = false)
    (hdebounce : d.updater.settings.debounce ≠ 0) :
    let w := d.updater.noting d.sources p c
    let e := (d.updater.tracking.notice d.sources p c).1
    d.notify p c = { d with updater := w.hold e, diary := d.diary ++ [.noticed e] } := by
  intro w e
  have hv : w.enqueue e = w.hold e := by
    have hrunning' : w.cancelled = false := hrunning
    rw [Updater.enqueue_eq hrunning']
    exact if_neg hdebounce
  unfold notify
  dsimp only
  rw [Updater.notify_eq, if_neg hdebounce]
  change { d with updater := w.enqueue e, diary := _ } = _
  rw [hv]

theorem fire_of_armed (h : d.updater.Steady) (harmed : d.updater.armed = true) :
    let w := d.updater.disarmed
    let events := d.updater.batch.values
    d.fire = { d with
      updater := w.submit events
      diary := d.diary ++ [(w.submit events).submission events w.nextTask] } := by
  unfold fire
  rw [if_pos harmed, Updater.fire_eq (h.inFlight_pos harmed)]
  rfl

theorem parse_cases (h : (d.updater.tasks.map UpdateTask.id).Nodup) (id : Nat) :
    d.parse id = d ∨ ∃ before behind project files rest,
      d.updater.Waiting id ((project, files) :: rest) before behind ∧
      d.parse id = { d with
        updater := d.updater.parse d.sources id
        diary := d.diary ++ [.parsed ⟨id,
          ⟨project, files, (d.sources.collectFiles project files).symbols⟩, d.sources⟩] } := by
  rcases Updater.parse_cases h d.sources id with
    hsame | ⟨before, behind, project, files, rest, hwaiting⟩
  · left
    unfold parse
    dsimp only
    rw [hsame]
    cases d.updater.parsed? id <;> simp
  · right
    refine ⟨before, behind, project, files, rest, hwaiting, ?_⟩
    have hnone : d.updater.parsed? id = none := by
      unfold Updater.parsed?
      rw [Updater.find?_task hwaiting.tasks hwaiting.others]
      rfl
    have hsome : (d.updater.parse d.sources id).parsed? id =
        some ⟨project, files, (d.sources.collectFiles project files).symbols⟩ := by
      unfold Updater.parsed?
      rw [Updater.find?_task (hwaiting.tasks_parse d.sources) hwaiting.others]
      rfl
    unfold parse
    dsimp only
    rw [hnone, hsome]
    rfl

theorem apply_cases (h : (d.updater.tasks.map UpdateTask.id).Nodup) (id : Nat) :
    d.apply id = d ∨ ∃ before behind slice rest,
      d.updater.tasks = before ++ { id, parsed := some slice, rest } :: behind ∧
      (∀ t ∈ before ++ behind, t.id ≠ id) ∧
      d.apply id = { d with
        updater := (d.updater.apply d.index id).2.2
        index := (d.index.replaceFiles slice.files slice.symbols).1
        diary := d.diary ++ [.indexed ⟨id, slice.project, slice.files,
          (d.index.replaceFiles slice.files slice.symbols).2⟩ (readingOf? d.diary id)] } := by
  rcases Updater.apply_cases h d.index id with
    hsame | ⟨before, behind, slice, rest, hsplit, hothers⟩
  · left
    unfold apply
    rw [hsame]
    simp
  · right
    obtain ⟨hupdate, hindex, -⟩ := Updater.apply_parsed hsplit hothers d.index
    refine ⟨before, behind, slice, rest, hsplit, hothers, ?_⟩
    unfold apply
    dsimp only
    rw [hupdate, hindex]
    rfl

/-! ## What the diary tells of reports -/

/-- A move is noticed if it is a report, and nothing else is. -/
theorem noticed_move (d : UpdateDesk) (m : UpdateMove) :
    noticed (d.move m).diary = noticed d.diary ++ (d.report? m).toList := by
  cases m with
  | register p =>
      change noticed (d.register p).diary = noticed d.diary ++ []
      rw [List.append_nil]
      unfold register
      split <;> rfl
  | edit s => exact noticed_append d.diary [.edited d.sources s]
  | notify p c =>
      change noticed (if d.updater.settings.debounce = 0 then _ ++ [_] else _) = _
      split_ifs
      · rw [List.append_assoc]
        exact noticed_append d.diary _
      · exact noticed_append d.diary _
  | fire =>
      change noticed d.fire.diary = noticed d.diary ++ []
      unfold fire
      split_ifs
      · exact noticed_append d.diary _
      · exact (List.append_nil _).symm
  | parse id | apply id =>
      -- What is parsed or indexed is told in entries of other kinds.
      change noticed (d.diary ++ _) = noticed d.diary ++ []
      rw [noticed_append]
      congr 1
      unfold noticed
      simp

/-- What is noticed in a run are its reports, in their order. -/
theorem noticed_run (d : UpdateDesk) (moves : List UpdateMove) :
    noticed (d.run moves).diary = noticed d.diary ++ d.reports moves := by
  induction moves generalizing d with
  | nil => exact (List.append_nil _).symm
  | cons m rest ih =>
      have hrest : noticed ((d.move m).run rest).diary =
          noticed (d.move m).diary ++ (d.move m).reports rest := ih (d.move m)
      rw [noticed_move, List.append_assoc] at hrest
      exact hrest

end UpdateDesk

end SymbolAtlas
