import Mathlib.Algebra.GroupWithZero.Nat
import SymbolAtlas.Proofs.Index.Delta
import SymbolAtlas.Proofs.Index.Files
import SymbolAtlas.Proofs.Scanner
import SymbolAtlas.Proofs.Update.Work
import SymbolAtlas.Update.Updater

/-!
# Indexing files again

A task goes through its projects in the order of their names. In the end a file that it names has
what the last of these projects declares there, every other file has what it had, and what was
raised accounts for the change of the size.
-/

namespace SymbolAtlas

namespace Snapshot

variable {x : Snapshot} {l : List Symbol} {s : Sources}

/-- The index after the files of several projects were indexed again, project by project. -/
def reindex (x : Snapshot) (s : Sources) (slices : List (String × List Path)) : Snapshot :=
  slices.foldl (fun x slice => (x.reindexSlice s slice.1 slice.2).1) x

/-- What a task raises when it indexes the files of a project again. -/
def reindexUpdate (x : Snapshot) (s : Sources) (id : Nat) (slice : String × List Path) :
    IndexUpdate where
  task := id
  project := slice.1
  files := slice.2
  delta := (x.reindexSlice s slice.1 slice.2).2

/-- What is raised when a task indexes the files of several projects again. -/
def reindexUpdates (s : Sources) (id : Nat) (x : Snapshot) :
    List (String × List Path) → List IndexUpdate
  | [] => []
  | slice :: rest =>
    x.reindexUpdate s id slice :: reindexUpdates s id (x.reindexSlice s slice.1 slice.2).1 rest

theorem Represents.reindexSlice (h : x.Represents l) (s : Sources) (project : String)
    (files : List Path) : ∃ l', (x.reindexSlice s project files).1.Represents l' :=
  ⟨_, h.replaceFiles files _⟩

theorem Represents.inFile_reindexSlice_of_not_mem (h : x.Represents l) (hs : s.Attributes)
    (project : String) {files : List Path} {f : Path} (hf : f.place ∉ files.map Path.place) :
    (x.reindexSlice s project files).1.inFile f = x.inFile f := by
  refine h.inFile_replaceFiles_of_not_mem hf fun t ht heq => ?_
  rw [Sources.symbols_collectFiles] at ht
  exact hf (heq ▸ hs.of_mem_flatMap_declared ht)

theorem Represents.inFile_reindexSlice_of_mem (h : x.Represents l) (hs : s.Attributes)
    (project : String) {files : List Path} (hfiles : (files.map Path.place).Nodup) {p f : Path}
    (hp : p ∈ files) (hpf : p.place = f.place) :
    (x.reindexSlice s project files).1.inFile f = collapse (s.declared project p) := by
  have hf : f.place ∈ files.map Path.place := hpf ▸ List.mem_map_of_mem hp
  have hreplace := h.inFile_replaceFiles_of_mem (s.collectFiles project files).symbols hf
  rw [← hs.filter_flatMap_declared hfiles hp, ← Sources.symbols_collectFiles]
  simp only [hpf]
  exact hreplace

/-! ## Several projects -/

theorem Represents.reindex (h : x.Represents l) (s : Sources)
    (slices : List (String × List Path)) : ∃ l', (x.reindex s slices).Represents l' := by
  induction slices generalizing x l with
  | nil => exact ⟨l, h⟩
  | cons slice rest ih =>
      obtain ⟨l', hl'⟩ := h.reindexSlice s slice.1 slice.2
      exact ih hl'

theorem reindex_append (x : Snapshot) (s : Sources) (front back : List (String × List Path)) :
    x.reindex s (front ++ back) = (x.reindex s front).reindex s back := by
  simp [Snapshot.reindex]

theorem Represents.inFile_reindex_of_not_mem (h : x.Represents l) (hs : s.Attributes)
    {slices : List (String × List Path)} {f : Path}
    (hf : ∀ slice ∈ slices, f.place ∉ slice.2.map Path.place) :
    (x.reindex s slices).inFile f = x.inFile f := by
  induction slices generalizing x l with
  | nil => rfl
  | cons slice rest ih =>
      obtain ⟨l', hl'⟩ := h.reindexSlice s slice.1 slice.2
      have hrest := ih hl' fun slice' hslice' => hf slice' (List.mem_cons_of_mem slice hslice')
      exact hrest.trans (h.inFile_reindexSlice_of_not_mem hs slice.1 (hf slice (by simp)))

/-- A file has what the last project declares that names it. -/
theorem Represents.inFile_reindex_of_last (h : x.Represents l) (hs : s.Attributes)
    {front back : List (String × List Path)} {project : String} {files : List Path}
    (hfiles : (files.map Path.place).Nodup) {p f : Path} (hp : p ∈ files)
    (hpf : p.place = f.place) (hback : ∀ slice ∈ back, f.place ∉ slice.2.map Path.place) :
    (x.reindex s (front ++ (project, files) :: back)).inFile f =
      collapse (s.declared project p) := by
  obtain ⟨l₁, h₁⟩ := h.reindex s front
  obtain ⟨l₂, h₂⟩ := h₁.reindexSlice s project files
  rw [reindex_append]
  exact (h₂.inFile_reindex_of_not_mem hs hback).trans
    (h₁.inFile_reindexSlice_of_mem hs project hfiles hp hpf)

/-! ## What is raised -/

theorem map_reindexUpdates (s : Sources) (id : Nat) (x : Snapshot)
    (slices : List (String × List Path)) :
    (reindexUpdates s id x slices).map (fun u => (u.project, u.files)) = slices := by
  induction slices generalizing x with
  | nil => rfl
  | cons slice rest ih =>
      unfold reindexUpdates
      rw [List.map_cons, ih]
      rfl

theorem task_of_mem_reindexUpdates {id : Nat} {slices : List (String × List Path)}
    {u : IndexUpdate} (hu : u ∈ reindexUpdates s id x slices) : u.task = id := by
  induction slices generalizing x with
  | nil => simp [reindexUpdates] at hu
  | cons slice rest ih =>
      rw [reindexUpdates, List.mem_cons] at hu
      rcases hu with rfl | hu
      · rfl
      · exact ih hu

theorem Represents.size_reindex (h : x.Represents l) (s : Sources) (id : Nat)
    (slices : List (String × List Path)) :
    (x.reindex s slices).size + ((reindexUpdates s id x slices).map (·.delta.removed)).sum =
      x.size + ((reindexUpdates s id x slices).map (·.delta.added)).sum := by
  induction slices generalizing x l with
  | nil => rfl
  | cons slice rest ih =>
      obtain ⟨l', hl'⟩ := h.reindexSlice s slice.1 slice.2
      have hslice := h.size_replaceFiles slice.2 (s.collectFiles slice.1 slice.2).symbols
      have hrest := ih hl'
      unfold reindexUpdates
      rw [List.map_cons, List.sum_cons, List.map_cons, List.sum_cons]
      change (Snapshot.reindex (x.reindexSlice s slice.1 slice.2).1 s rest).size + _ = _
      unfold Snapshot.reindexSlice at hrest ⊢
      have hdelta : (x.reindexUpdate s id slice).delta = (x.reindexSlice s slice.1 slice.2).2 :=
        rfl
      rw [hdelta]
      unfold Snapshot.reindexSlice
      omega

end Snapshot

/-! ## Tasks -/

namespace Updater

/-- An updater at work: with the index that it keeps, and what was raised so far. -/
structure Progress where
  updater : Updater
  index : Snapshot
  updates : List IndexUpdate := []

namespace Progress

/-- One turn of a task: it parses the files of its next project and puts what was parsed into the
index. -/
def turn (s : Sources) (id : Nat) (g : Progress) : Progress :=
  let (update, index, updater) := (g.updater.parse s id).apply g.index id
  { updater, index, updates := g.updates ++ update.toList }

/-- Several turns of a task, while the sources stay as they are. -/
def turns (s : Sources) (id : Nat) : Nat → Progress → Progress
  | 0, g => g
  | n + 1, g => turns s id n (g.turn s id)

end Progress

/-- A task among others, before its next turn. -/
structure Waiting (u : Updater) (id : Nat) (slices : List (String × List Path))
    (before behind : List UpdateTask) : Prop where
  tasks : u.tasks = before ++ { id, rest := slices } :: behind
  others : ∀ t ∈ before ++ behind, t.id ≠ id

variable {u : Updater} {id : Nat} {project : String} {files : List Path}
  {rest : List (String × List Path)} {before behind : List UpdateTask}

theorem map_eq_self_of_forall_ne {f : UpdateTask → UpdateTask} {tasks : List UpdateTask}
    (h : ∀ t ∈ tasks, t.id ≠ id) : (tasks.map fun t => if t.id = id then f t else t) = tasks := by
  rw [List.map_congr_left fun t ht => if_neg (h t ht), List.map_id']

theorem Waiting.tasks_parse (h : u.Waiting id ((project, files) :: rest) before behind)
    (s : Sources) : (u.parse s id).tasks = before ++
      { id, rest,
        parsed := some { project, files, symbols := (s.collectFiles project files).symbols } } ::
      behind := by
  unfold parse
  dsimp only
  rw [h.tasks, List.map_append, List.map_cons, if_pos rfl,
    map_eq_self_of_forall_ne fun t ht => h.others t (List.mem_append_left _ ht),
    map_eq_self_of_forall_ne fun t ht => h.others t (List.mem_append_right _ ht)]
  rfl

theorem find?_task {tasks : List UpdateTask} {t : UpdateTask}
    (htasks : tasks = before ++ t :: behind) (hothers : ∀ v ∈ before ++ behind, v.id ≠ t.id) :
    tasks.find? (·.id == t.id) = some t := by
  rw [htasks, List.find?_append]
  have hnone : before.find? (·.id == t.id) = none := by
    rw [List.find?_eq_none]
    intro v hv
    simpa using hothers v (List.mem_append_left _ hv)
  rw [hnone]
  simp

theorem tasks_finish {t : UpdateTask} (htasks : u.tasks = before ++ t :: behind)
    (hothers : ∀ v ∈ before ++ behind, v.id ≠ t.id) (hparsed : t.parsed = none) :
    (u.finish t).tasks =
      if t.rest.isEmpty then before ++ behind else before ++ t :: behind := by
  have hkeep : ∀ tasks : List UpdateTask, (∀ v ∈ tasks, v.id ≠ t.id) →
      tasks.filter (·.id != t.id) = tasks := by
    intro tasks hne
    rw [List.filter_eq_self]
    intro v hv
    simpa using hne v hv
  unfold finish
  rw [hparsed]
  by_cases hrest : t.rest.isEmpty = true
  · rw [if_pos hrest, if_pos (by simp [hrest])]
    dsimp only
    rw [htasks, List.filter_append, List.filter_cons,
      hkeep before fun v hv => hothers v (List.mem_append_left _ hv),
      hkeep behind fun v hv => hothers v (List.mem_append_right _ hv)]
    simp
  · rw [if_neg hrest, if_neg (by simp [hrest]), htasks]

/-- What a task has parsed goes into the index, and the task goes on if there is more to do. -/
theorem apply_parsed {slice : ParsedSlice}
    (htasks : u.tasks = before ++ { id, parsed := some slice, rest } :: behind)
    (hothers : ∀ t ∈ before ++ behind, t.id ≠ id) (x : Snapshot) :
    (u.apply x id).1 = some { task := id, project := slice.project, files := slice.files, delta :=
      (x.replaceFiles slice.files slice.symbols).2 } ∧
    (u.apply x id).2.1 = (x.replaceFiles slice.files slice.symbols).1 ∧
    (u.apply x id).2.2.tasks =
      if rest.isEmpty then before ++ behind else before ++ { id, rest } :: behind := by
  have hfind := find?_task htasks hothers
  set t : UpdateTask := { id, rest, parsed := none } with ht
  have hmap : (u.tasks.map fun v => if v.id = id then t else v) = before ++ t :: behind := by
    rw [htasks, List.map_append, List.map_cons, if_pos rfl,
      map_eq_self_of_forall_ne fun v hv => hothers v (List.mem_append_left _ hv),
      map_eq_self_of_forall_ne fun v hv => hothers v (List.mem_append_right _ hv)]
  unfold apply
  dsimp only at hfind ⊢
  rw [hfind]
  dsimp only
  refine ⟨rfl, rfl, ?_⟩
  rw [hmap]
  exact tasks_finish rfl hothers rfl

/-- A turn indexes the files of the next project again, and raises one update for it. -/
theorem Waiting.turn (h : u.Waiting id ((project, files) :: rest) before behind) (s : Sources)
    (x : Snapshot) (updates : List IndexUpdate) :
    let g := Progress.turn s id ⟨u, x, updates⟩
    g.index = (x.reindexSlice s project files).1 ∧
    g.updates = updates ++ [x.reindexUpdate s id (project, files)] ∧
    g.updater.tasks =
      if rest.isEmpty then before ++ behind else before ++ { id, rest } :: behind := by
  obtain ⟨hupdate, hindex, htasks⟩ := apply_parsed (h.tasks_parse s) h.others x
  refine ⟨hindex, ?_, htasks⟩
  change updates ++ ((u.parse s id).apply x id).1.toList = _
  rw [hupdate]
  rfl

/-- A task from its start to its end. -/
theorem Waiting.turns {slices : List (String × List Path)} (hslices : slices ≠ [])
    (h : u.Waiting id slices before behind) (s : Sources) (x : Snapshot)
    (updates : List IndexUpdate) :
    let g := Progress.turns s id slices.length ⟨u, x, updates⟩
    g.index = x.reindex s slices ∧
    g.updates = updates ++ Snapshot.reindexUpdates s id x slices ∧
    g.updater.tasks = before ++ behind := by
  induction slices generalizing u x updates with
  | nil => exact absurd rfl hslices
  | cons slice rest ih =>
      obtain ⟨project, files⟩ := slice
      obtain ⟨hindex, hupdates, htasks⟩ := h.turn s x updates
      have hshape : Progress.turn s id ⟨u, x, updates⟩ =
          ⟨(Progress.turn s id ⟨u, x, updates⟩).updater, (x.reindexSlice s project files).1,
            updates ++ [x.reindexUpdate s id (project, files)]⟩ := by
        rw [← hindex, ← hupdates]
      rw [List.length_cons, Progress.turns, hshape]
      cases rest with
      | nil => exact ⟨rfl, rfl, htasks⟩
      | cons slice' rest' =>
          have hwaiting : (Progress.turn s id ⟨u, x, updates⟩).updater.Waiting id
              (slice' :: rest') before behind := ⟨htasks, h.others⟩
          obtain ⟨h₁, h₂, h₃⟩ := ih (List.cons_ne_nil slice' rest') hwaiting
            (x.reindexSlice s project files).1 _
          refine ⟨h₁, ?_, h₃⟩
          rw [h₂, List.append_assoc]
          rfl

/-- Every task has a number, and numbers that were not given yet belong to none. -/
def Numbered (u : Updater) : Prop := ∀ t ∈ u.tasks, t.id < u.nextTask

theorem numbered_new (settings : Settings) (dependencies : ProjectGraph) :
    (new settings dependencies).Numbered := by
  intro t ht
  change t ∈ ([] : List UpdateTask) at ht
  simp at ht

theorem Numbered.start (h : u.Numbered) (work : Work) : (u.start work).Numbered := by
  unfold Updater.start
  split_ifs
  · exact h
  · intro t ht
    rcases List.mem_append.mp ht with hin | hin
    · exact Nat.lt_succ_of_lt (h t hin)
    · rw [List.mem_singleton.mp hin]
      exact Nat.lt_succ_self u.nextTask

/-- A new task waits behind the others. -/
theorem Numbered.waiting_start (h : u.Numbered) {work : Work} (hwork : ¬ work.isEmpty) :
    (u.start work).Waiting u.nextTask work.slices u.tasks [] := by
  constructor
  · unfold Updater.start
    rw [if_neg hwork]
  · intro t ht
    rw [List.append_nil] at ht
    exact Nat.ne_of_lt (h t ht)

/-- A task indexes every file that its work names again for the last project that names it, and no
other. It raises one update for each project in their order, and what it raises accounts for the
change of the size. -/
theorem turns_start (changes : List IndexChange) {s : Sources} (hs : s.Attributes) {u : Updater}
    (hu : u.Numbered) (work : Work) :
    let x := Snapshot.after changes
    let g := Progress.turns s u.nextTask work.slices.length ⟨u.start work, x, []⟩
    (∀ project p f, work.Names project p f.place → ∃ last q, work.LastNames last q f.place ∧
      g.index.inFile f = collapse (s.declared last q)) ∧
    (∀ f, (∀ project p, ¬ work.Names project p f.place) → g.index.inFile f = x.inFile f) ∧
    g.updates.map (fun e => (e.project, e.files)) = work.slices ∧
    (∀ e ∈ g.updates, e.task = u.nextTask) ∧
    g.index.size + (g.updates.map (·.delta.removed)).sum =
      x.size + (g.updates.map (·.delta.added)).sum ∧
    g.updater.tasks = u.tasks := by
  intro x g
  obtain ⟨l, hx⟩ : ∃ l, x.Represents l := ⟨_, (Snapshot.represents_empty 0).foldl_change changes⟩
  have hrun : g.index = x.reindex s work.slices ∧
      g.updates = x.reindexUpdates s u.nextTask work.slices ∧ g.updater.tasks = u.tasks := by
    by_cases hwork : work.isEmpty
    · have hslices : work.slices = [] := by
        rw [Work.slices, List.map_eq_nil_iff]
        exact List.isEmpty_iff.mp (Std.TreeMap.isEmpty_toList.trans hwork)
      have hstart : u.start work = u := if_pos hwork
      simp only [g, hslices, hstart]
      exact ⟨rfl, rfl, rfl⟩
    · have hslices : work.slices ≠ [] := by
        intro hnil
        rw [Work.slices, List.map_eq_nil_iff] at hnil
        apply hwork
        rw [← Std.TreeMap.isEmpty_toList, hnil]
        rfl
      obtain ⟨hindex, hupdates, htasks⟩ :=
        (hu.waiting_start hwork).turns hslices s x []
      exact ⟨hindex, hupdates, htasks.trans (List.append_nil _)⟩
  obtain ⟨hindex, hupdates, htasks⟩ := hrun
  rw [hindex, hupdates]
  refine ⟨?_, ?_, Snapshot.map_reindexUpdates s _ x _,
    fun e he => Snapshot.task_of_mem_reindexUpdates he, hx.size_reindex s _ _, htasks⟩
  · intro project p f hnames
    obtain ⟨last, q, hlast⟩ := hnames.exists_last
    refine ⟨last, q, hlast, ?_⟩
    obtain ⟨front, back, paths, hslices, hq, hback⟩ := hlast.slices_eq
    have hplace := PathSet.place_of_at? hq
    rw [hslices]
    refine hx.inFile_reindex_of_last hs paths.nodup_map_place_toList ?_ hplace hback
    rw [PathSet.mem_toList, hplace]
    exact hq
  · intro f hf
    exact hx.inFile_reindex_of_not_mem hs (Work.not_mem_of_not_names hf)

/-- A tree with one file, which declares a class. -/
def oneClassTree : FileTree :=
  ({} : FileTree).put ["a.json"] (.file
    "[\x7b\"name\":\"New\",\"kind\":\"class\",\"file_path\":\"\",\"project_name\":\"\"\x7d]" 0)

/-- Changes after which the index has another class of the file, and one of a second file. -/
def twoClasses : List IndexChange :=
  [.replace [⟨"/a.json"⟩, ⟨"/b.json"⟩]
    [{ name := "Old", kind := .classType, file := ⟨"/a.json"⟩, project := "p" },
      { name := "Kept", kind := .classType, file := ⟨"/b.json"⟩, project := "p" }]]

/-- Work that names the file for two projects. -/
def sharedWork : Work :=
  (Work.add {} "p" (PathSet.add {} ⟨"/a.json"⟩)).add "q" (PathSet.add {} ⟨"/a.json"⟩)

theorem of_names_sharedWork {k : Place} {p : Path} (h : sharedWork.Names project p k) :
    project ∈ ["p", "q"] ∧ (sharedWork[project]?).bind (·.at? k) = some p := by
  obtain ⟨paths, hpaths, hat⟩ := h
  have hkeys : sharedWork.keys = ["p", "q"] := by decide +kernel
  refine ⟨hkeys ▸ mem_keys_of_getElem? hpaths, ?_⟩
  rw [hpaths]
  exact hat

/-- A file that two projects name has what it declares for the later one, in place of what the
index had of it. The second file and an earlier task stay as they were. -/
theorem turns_start_of_two_projects :
    let u := (new {} {}).start (Work.add {} "p" (PathSet.add {} ⟨"/c.json"⟩))
    let g := Progress.turns (Config.sources {} oneClassTree) u.nextTask sharedWork.slices.length
      ⟨u.start sharedWork, Snapshot.after twoClasses, []⟩
    (g.index.inFile ⟨"/a.json"⟩).map (fun t => (t.name, t.project)) = [("New", "q")] ∧
    (g.index.inFile ⟨"/b.json"⟩).map Symbol.name = ["Kept"] ∧
    g.updates.map (fun e => (e.project, e.files)) = [("p", [⟨"/a.json"⟩]), ("q", [⟨"/a.json"⟩])] ∧
    (∀ e ∈ g.updates, e.task = 1) ∧
    g.index.size + (g.updates.map (·.delta.removed)).sum =
      2 + (g.updates.map (·.delta.added)).sum ∧
    g.updater.tasks.map (fun t => (t.id, t.rest)) = [(0, [("p", [⟨"/c.json"⟩])])] := by
  intro u g
  obtain ⟨hnamed, hothers, hupdates, htask, hsize, htasks⟩ :=
    turns_start twoClasses (Scanner.attributes_sources (Config.scanner {}) oneClassTree)
      ((numbered_new {} {}).start (Work.add {} "p" (PathSet.add {} ⟨"/c.json"⟩))) sharedWork
  have hq : sharedWork.Names "q" ⟨"/a.json"⟩ (⟨"/a.json"⟩ : Path).place := ⟨_, rfl, rfl⟩
  refine ⟨?_, ?_, hupdates.trans (by decide +kernel), htask, hsize,
    (congrArg (List.map _) htasks).trans (by decide +kernel)⟩
  · obtain ⟨last, p, ⟨hlast, hlater⟩, hfile⟩ := hnamed "q" ⟨"/a.json"⟩ ⟨"/a.json"⟩ hq
    obtain ⟨hin, hat⟩ := of_names_sharedWork hlast
    obtain rfl : last = "q" := by
      rcases List.mem_cons.mp hin with rfl | hin
      · exact absurd hq (hlater "q" _ (by decide))
      · exact List.mem_singleton.mp hin
    have hp : (sharedWork["q"]?).bind (·.at? (⟨"/a.json"⟩ : Path).place) = some ⟨"/a.json"⟩ := by
      decide +kernel
    obtain rfl := Option.some.inj (hp.symm.trans hat)
    exact (congrArg (List.map _) hfile).trans (by decide +kernel)
  · have hkept := hothers ⟨"/b.json"⟩ fun project p hnames => by
      obtain ⟨hin, hat⟩ := of_names_sharedWork hnames
      have hnone : ∀ name ∈ ["p", "q"],
          (sharedWork[name]?).bind (·.at? (⟨"/b.json"⟩ : Path).place) = none := by decide +kernel
      rw [hnone project hin] at hat
      cases hat
    exact (congrArg (List.map _) hkept).trans (by decide +kernel)

end Updater

end SymbolAtlas
