import SymbolAtlas.Proofs.Update.Steps
import SymbolAtlas.Proofs.Upkeep.Tracking

/-!
# The work that is under way

A change that was reported is held back, waits in a task or is being put into the index. What is
under way is for files that are known, each for the project that it belongs to.
-/

namespace SymbolAtlas

/-- A list of known files of one project, each of them once. -/
structure SliceSound (s : Solution) (known : Place → Prop) (project : String) (files : List Path) :
    Prop where
  nodup : (files.map Path.place).Nodup
  owns : ∀ q ∈ files, s.Owns project q ∧ known q.place

namespace Updater

/-- What tasks have parsed and not yet put into the index. -/
def parsedSlices (u : Updater) : List ParsedSlice := u.tasks.filterMap (·.parsed)

/-- Whether a place waits to be parsed. -/
def Awaits (u : Updater) (k : Place) : Prop :=
  (∃ e, u.batch[k]? = some e) ∨
    ∃ t ∈ u.tasks, ∃ slice ∈ t.rest, k ∈ slice.2.map Path.place

/-- An updater at work on the known files of a solution. -/
structure Sound (s : Solution) (known : Place → Prop) (u : Updater) : Prop where
  running : u.cancelled = false
  numbered : u.Numbered
  distinct : (u.tasks.map UpdateTask.id).Nodup
  tracking : u.tracking.Sound s known
  complete : u.tracking.Complete s
  batch : ∀ (k : Place) e, u.batch[k]? = some e →
    e.path.place = k ∧ known k ∧ ∃ name, e.project = some name ∧ s.Owns name e.path
  rest : ∀ t ∈ u.tasks, ∀ slice ∈ t.rest, SliceSound s known slice.1 slice.2

variable {s : Solution} {t : FileTree} {known : Place → Prop} {u : Updater} {k : Place}
  {events : List FileEvent}

/-- Whether events are of known files, each for the project that it belongs to. -/
def Genuine (s : Solution) (known : Place → Prop) (events : List FileEvent) : Prop :=
  ∀ e ∈ events, known e.path.place ∧ ∃ name, e.project = some name ∧ s.Owns name e.path

theorem Sound.mono {known' : Place → Prop} (h : u.Sound s known) (hk : ∀ k, known k → known' k) :
    u.Sound s known' where
  running := h.running
  numbered := h.numbered
  distinct := h.distinct
  tracking := h.tracking.mono hk
  complete := h.complete
  batch := fun k e he => by
    obtain ⟨hplace, hknown, hproject⟩ := h.batch k e he
    exact ⟨hplace, hk k hknown, hproject⟩
  rest := fun t ht slice hslice => by
    obtain ⟨hnodup, howns⟩ := h.rest t ht slice hslice
    exact ⟨hnodup, fun q hq => (howns q hq).imp_right (hk q.place)⟩

/-! ## Submitting work -/

theorem sliceSound_of_mem_slices (h : u.tracking.Sound s known) (he : Genuine s known events)
    {slice : String × List Path}
    (hslice : slice ∈ (Work.ofChanges u.tracking u.dependents events).slices) :
    SliceSound s known slice.1 slice.2 := by
  refine ⟨Work.nodup_of_mem_slices hslice, fun q hq => ?_⟩
  have hnames := Work.names_of_mem_slices hslice hq
  rcases hnames.of_ofChanges fun e hmem => (he e hmem).2.imp fun _ h => h.1 with
    ⟨e, hmem, hproject, rfl⟩ | hfiles
  · obtain ⟨hknown, name, hname, howns⟩ := he e hmem
    rw [hproject] at hname
    cases hname
    exact ⟨howns, hknown⟩
  · exact h.files slice.1 q.place q hfiles

theorem Sound.start (h : u.Sound s known) {work : Work}
    (hwork : ∀ slice ∈ work.slices, SliceSound s known slice.1 slice.2) :
    (u.start work).Sound s known := by
  have hnumbered := h.numbered.start work
  have hdistinct := h.numbered.nodup_start h.distinct work
  unfold Updater.start at hnumbered hdistinct ⊢
  split_ifs at hnumbered hdistinct ⊢
  · exact h
  · refine ⟨h.running, hnumbered, hdistinct, h.tracking, h.complete, h.batch, ?_⟩
    intro t ht
    rcases List.mem_append.mp ht with hin | hin
    · exact h.rest t hin
    · rw [List.mem_singleton.mp hin]
      exact hwork

theorem parsedSlices_start (u : Updater) (work : Work) :
    (u.start work).parsedSlices = u.parsedSlices := by
  unfold Updater.start parsedSlices
  split_ifs
  · rfl
  · simp

theorem Awaits.start (h : u.Awaits k) (work : Work) : (u.start work).Awaits k := by
  rcases h with hbatch | hqueued
  · left
    unfold Updater.start
    split_ifs <;> exact hbatch
  · exact .inr (Queued.of_subset hqueued (tasks_subset_start u work))

/-- Submitting changes keeps an updater sound; nothing is lost, and the files of the changes wait
to be parsed. -/
theorem Sound.submit (h : u.Sound s known) (he : Genuine s known events) :
    (u.submit events).Sound s known ∧ (u.submit events).parsedSlices = u.parsedSlices ∧
    (∀ k, u.Awaits k → (u.submit events).Awaits k) ∧
    ∀ e ∈ events, (u.submit events).Awaits e.path.place := by
  by_cases hevents : events = []
  · subst hevents
    rw [submit_nil]
    exact ⟨h, rfl, fun k hk => hk, by simp⟩
  · rw [submit_eq_start h.running hevents]
    refine ⟨h.start fun slice => sliceSound_of_mem_slices h.tracking he, parsedSlices_start u _,
      fun k hk => hk.start _, fun e hmem => .inr (queued_start (Work.covers_ofChanges hmem ?_))⟩
    obtain ⟨-, name, hname, -⟩ := he e hmem
    rw [Work.owner?_of_project hname]
    rfl

/-! ## Holding back -/

/-- An updater with the tasks of a sound one and another batch. -/
theorem Sound.of_batch (h : u.Sound s known) {v : Updater} (hcancelled : v.cancelled = u.cancelled)
    (hnext : v.nextTask = u.nextTask) (htasks : v.tasks = u.tasks)
    (htracking : v.tracking = u.tracking)
    (hbatch : ∀ (k : Place) e, v.batch[k]? = some e →
      e.path.place = k ∧ known k ∧ ∃ name, e.project = some name ∧ s.Owns name e.path) :
    v.Sound s known where
  running := hcancelled.trans h.running
  numbered := by
    unfold Numbered
    rw [htasks, hnext]
    exact h.numbered
  distinct := by
    rw [htasks]
    exact h.distinct
  tracking := by
    rw [htracking]
    exact h.tracking
  complete := by
    rw [htracking]
    exact h.complete
  batch := hbatch
  rest := by
    rw [htasks]
    exact h.rest

theorem Sound.hold (h : u.Sound s known) {e : FileEvent} (he : Genuine s known [e]) :
    (u.hold e).Sound s known ∧ (u.hold e).parsedSlices = u.parsedSlices ∧
    (∀ k, u.Awaits k → (u.hold e).Awaits k) ∧ (u.hold e).Awaits e.path.place := by
  obtain ⟨hknown, name, hname, howns⟩ := he e (by simp)
  obtain ⟨hcancelled, hnext, htasks, htracking, -⟩ := hold_eq u e
  refine ⟨h.of_batch hcancelled hnext htasks htracking fun k e' he' => ?_, ?_, ?_, ?_⟩
  · rw [getElem?_batch_hold] at he'
    split_ifs at he' with hk
    · subst hk
      cases hold : u.batch[e.path.place]? with
      | none =>
          rw [hold] at he'
          cases he'
          exact ⟨rfl, hknown, name, hname, howns⟩
      | some old =>
          rw [hold] at he'
          cases he'
          obtain ⟨hplace, -, name', hname', howns'⟩ := h.batch _ old hold
          refine ⟨hplace, hknown, name', ?_, howns'⟩
          change old.project.orElse (fun _ => e.project) = some name'
          rw [hname']
          rfl
    · exact h.batch k e' he'
  · unfold parsedSlices
    rw [htasks]
  · rintro k (⟨e', he'⟩ | htask)
    · left
      rw [getElem?_batch_hold]
      split_ifs
      · exact ⟨_, rfl⟩
      · exact ⟨e', he'⟩
    · right
      rw [htasks]
      exact htask
  · left
    rw [getElem?_batch_hold, if_pos rfl]
    exact ⟨_, rfl⟩

/-- Taking in an event. -/
theorem Sound.enqueue (h : u.Sound s known) {e : FileEvent} (he : Genuine s known [e]) :
    (u.enqueue e).Sound s known ∧ (u.enqueue e).parsedSlices = u.parsedSlices ∧
    (∀ k, u.Awaits k → (u.enqueue e).Awaits k) ∧ (u.enqueue e).Awaits e.path.place := by
  unfold Updater.enqueue
  rw [if_neg (by simp [h.running])]
  split_ifs
  · obtain ⟨hsound, hslices, hkeeps, hawaits⟩ := h.submit he
    exact ⟨hsound, hslices, hkeeps, hawaits e (by simp)⟩
  · exact h.hold he

/-- A report of a known file makes it wait to be parsed. -/
theorem Sound.notify (h : u.Sound s known) (hs : s.Apart t) {name : String} {q : Path}
    (hq : s.Owns name q) (hknown : known q.place) (src : Sources) (c : Change) :
    let v := (notify src (fun _ us => us) q c (u, ())).1
    v.Sound s known ∧ v.parsedSlices = u.parsedSlices ∧ (∀ k, u.Awaits k → v.Awaits k) ∧
      v.Awaits q.place := by
  obtain ⟨hevent, htracking, hcomplete⟩ := h.tracking.notice h.complete hs hq hknown src c
  have hgenuine : Genuine s known [⟨q, c, some name⟩] := by
    intro e he
    rw [List.mem_singleton.mp he]
    exact ⟨hknown, name, rfl, hq⟩
  have hnoticed : ({ u with
      tracking := (u.tracking.notice src q c).2
      stats := { u.stats with eventsRaised := u.stats.eventsRaised + 1 } } : Updater).Sound s
        known :=
    ⟨h.running, h.numbered, h.distinct, htracking, hcomplete, h.batch, h.rest⟩
  have henqueue := hnoticed.enqueue hgenuine
  rw [← hevent] at henqueue
  exact henqueue

/-- What was held back waits to be parsed when the timer has run out. -/
theorem Sound.fire (h : u.Sound s known) :
    u.fire.Sound s known ∧ u.fire.parsedSlices = u.parsedSlices ∧
      ∀ k, u.Awaits k → u.fire.Awaits k := by
  have hempty : ({ u with armed := false, batch := {} } : Updater).Sound s known :=
    h.of_batch rfl rfl rfl rfl (by simp)
  have hgenuine : Genuine s known u.batch.values := by
    intro e he
    obtain ⟨k, hk⟩ := (mem_values u.batch e).mp he
    obtain ⟨hplace, hknown, hproject⟩ := h.batch k e hk
    rw [hplace]
    exact ⟨hknown, hproject⟩
  obtain ⟨hsound, hslices, hkeeps, hawaits⟩ := hempty.submit hgenuine
  refine ⟨hsound.of_batch rfl rfl rfl rfl hsound.batch, hslices, ?_⟩
  rintro k (⟨e, he⟩ | htask)
  · have hplace := (h.batch k e he).1
    rw [← hplace]
    exact hawaits e ((mem_values u.batch e).mpr ⟨k, he⟩)
  · exact hkeeps k (.inr htask)

/-! ## Parsing and putting into the index -/

theorem parsedSlices_split {before behind : List UpdateTask} {v : UpdateTask}
    (h : u.tasks = before ++ v :: behind) :
    u.parsedSlices = before.filterMap (·.parsed) ++ v.parsed.toList ++
      behind.filterMap (·.parsed) := by
  unfold parsedSlices
  rw [h, List.filterMap_append, List.filterMap_cons]
  cases v.parsed <;> simp

/-- A sound updater stays so when what tasks have still to parse does not grow. -/
theorem Sound.of_tasks (h : u.Sound s known) {v : Updater} (hcancelled : v.cancelled = u.cancelled)
    (hnext : v.nextTask = u.nextTask) (htracking : v.tracking = u.tracking)
    (hbatch : v.batch = u.batch) (hids : (v.tasks.map UpdateTask.id).Sublist
      (u.tasks.map UpdateTask.id))
    (hrest : ∀ t ∈ v.tasks, ∀ slice ∈ t.rest, ∃ t' ∈ u.tasks, slice ∈ t'.rest) :
    v.Sound s known where
  running := hcancelled.trans h.running
  numbered := h.numbered.of_map_id hnext hids.subset
  distinct := h.distinct.sublist hids
  tracking := by
    rw [htracking]
    exact h.tracking
  complete := by
    rw [htracking]
    exact h.complete
  batch := by
    rw [hbatch]
    exact h.batch
  rest := by
    intro t ht slice hslice
    obtain ⟨t', ht', hslice'⟩ := hrest t ht slice hslice
    exact h.rest t' ht' slice hslice'

/-- A task parses the files of its next project, if there is one. -/
theorem Sound.parse (h : u.Sound s known) (hnone : u.parsedSlices = []) (src : Sources)
    (id : Nat) :
    u.parse src id = u ∨ ∃ project files, SliceSound s known project files ∧
      (u.parse src id).Sound s known ∧
      (u.parse src id).parsedSlices =
        [⟨project, files, (src.collectFiles project files).symbols⟩] ∧
      ∀ k, u.Awaits k → (u.parse src id).Awaits k ∨ k ∈ files.map Path.place := by
  rcases parse_cases h.distinct src id with hsame | ⟨before, behind, project, files, rest, hwaiting⟩
  · exact .inl hsame
  right
  have hsplit := hwaiting.tasks
  have htasks := hwaiting.tasks_parse src
  have hnil := parsedSlices_split hsplit
  rw [hnone, eq_comm, List.append_eq_nil_iff, List.append_eq_nil_iff] at hnil
  have hv : ({ id, rest := (project, files) :: rest } : UpdateTask) ∈ u.tasks := by
    rw [hsplit]
    exact mem_middle.mpr (.inl rfl)
  refine ⟨project, files, h.rest _ hv (project, files) List.mem_cons_self,
    h.of_tasks rfl rfl rfl rfl ?_ ?_, ?_, ?_⟩
  · rw [htasks, hsplit]
    simp
  · intro w hw slice hslice
    rw [htasks] at hw
    rw [hsplit]
    rcases mem_middle.mp hw with rfl | hin
    · exact ⟨_, mem_middle.mpr (.inl rfl), List.mem_cons_of_mem _ hslice⟩
    · exact ⟨w, mem_middle.mpr (.inr hin), hslice⟩
  · rw [parsedSlices_split htasks, hnil.1.1, hnil.2]
    rfl
  · rintro k (hbatch | hqueued)
    · exact .inl (.inl hbatch)
    · exact (Queued.parsed hqueued hwaiting src).imp_left .inr

section Applied

variable {id : Nat} {slice : ParsedSlice} {rest : List (String × List Path)}
  {before behind : List UpdateTask}

theorem parsed_others_eq_nil
    (hsplit : u.tasks = before ++ { id, parsed := some slice, rest } :: behind)
    (hone : u.parsedSlices.length ≤ 1) :
    before.filterMap (·.parsed) = [] ∧ behind.filterMap (·.parsed) = [] := by
  rw [parsedSlices_split hsplit] at hone
  simp only [List.length_append, Option.toList_some, List.length_singleton] at hone
  constructor <;> apply List.eq_nil_of_length_eq_zero <;> omega

theorem Sound.applied (h : u.Sound s known)
    (hsplit : u.tasks = before ++ { id, parsed := some slice, rest } :: behind)
    (hothers : ∀ t ∈ before ++ behind, t.id ≠ id) (x : Snapshot) :
    (u.apply x id).2.2.Sound s known := by
  obtain ⟨-, -, htasks⟩ := apply_parsed hsplit hothers x
  obtain ⟨hcancelled, hnext, htracking, hbatch⟩ := apply_keeps u x id
  have hrest : ∀ t ∈ (u.apply x id).2.2.tasks, ∀ slice ∈ t.rest,
      ∃ t' ∈ u.tasks, slice ∈ t'.rest := by
    intro t ht slice' hslice'
    rw [htasks] at ht
    rw [hsplit]
    split_ifs at ht
    · exact ⟨t, mem_middle.mpr (.inr ht), hslice'⟩
    · rcases mem_middle.mp ht with rfl | hin
      · exact ⟨_, mem_middle.mpr (.inl rfl), hslice'⟩
      · exact ⟨t, mem_middle.mpr (.inr hin), hslice'⟩
  apply h.of_tasks hcancelled hnext htracking hbatch _ hrest
  rw [htasks, hsplit]
  split_ifs <;> simp

theorem parsedSlices_applied
    (hsplit : u.tasks = before ++ { id, parsed := some slice, rest } :: behind)
    (hothers : ∀ t ∈ before ++ behind, t.id ≠ id) (hone : u.parsedSlices.length ≤ 1)
    (x : Snapshot) : (u.apply x id).2.2.parsedSlices = [] := by
  obtain ⟨-, -, htasks⟩ := apply_parsed hsplit hothers x
  obtain ⟨hbefore, hbehind⟩ := parsed_others_eq_nil hsplit hone
  unfold parsedSlices
  rw [htasks]
  split_ifs
  · rw [List.filterMap_append, hbefore, hbehind]
    rfl
  · rw [List.filterMap_append, hbefore, List.filterMap_cons_none rfl, hbehind]
    rfl

theorem Awaits.applied (hk : u.Awaits k)
    (hsplit : u.tasks = before ++ { id, parsed := some slice, rest } :: behind)
    (hothers : ∀ t ∈ before ++ behind, t.id ≠ id) (x : Snapshot) :
    (u.apply x id).2.2.Awaits k := by
  obtain ⟨-, -, -, hbatch⟩ := apply_keeps u x id
  rcases hk with hheld | hqueued
  · left
    rw [hbatch]
    exact hheld
  · exact .inr (Queued.applied hqueued hsplit hothers x)

end Applied

/-- What a task has parsed goes into the index. -/
theorem Sound.apply (h : u.Sound s known) (hone : u.parsedSlices.length ≤ 1) (x : Snapshot)
    (id : Nat) :
    ((u.apply x id).2.1 = x ∧ (u.apply x id).2.2 = u) ∨
      ∃ slice, u.parsedSlices = [slice] ∧
        (u.apply x id).2.1 = (x.replaceFiles slice.files slice.symbols).1 ∧
        (u.apply x id).2.2.Sound s known ∧ (u.apply x id).2.2.parsedSlices = [] ∧
        ∀ k, u.Awaits k → (u.apply x id).2.2.Awaits k := by
  rcases apply_cases h.distinct x id with hsame | ⟨before, behind, slice, rest, hsplit, hothers⟩
  · left
    rw [hsame]
    exact ⟨rfl, rfl⟩
  · right
    obtain ⟨hbefore, hbehind⟩ := parsed_others_eq_nil hsplit hone
    obtain ⟨-, hindex, -⟩ := apply_parsed hsplit hothers x
    refine ⟨slice, ?_, hindex, h.applied hsplit hothers x,
      parsedSlices_applied hsplit hothers hone x, fun k hk => hk.applied hsplit hothers x⟩
    rw [parsedSlices_split hsplit, hbefore, hbehind]
    rfl

end Updater

end SymbolAtlas
