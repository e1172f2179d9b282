import SymbolAtlas.Proofs.Update.Reindex

/-!
# Steps of an updater

What each step of an updater changes and what it leaves alone. A report is submitted at once or held
back, and when the timer runs out everything that was held back is submitted.
-/

namespace SymbolAtlas.Updater

variable {u : Updater} {events : List FileEvent} {id : Nat} {slice : ParsedSlice}
  {rest : List (String × List Path)} {before behind : List UpdateTask}

theorem register_eq {v : Updater} {s : Sources} {p : Project} {n : Nat}
    (h : u.register s p = .ok (n, v)) :
    ∃ tracking, v = { u with tracking } := by
  unfold register at h
  split at h
  · cases h
    exact ⟨_, rfl⟩
  · cases h

/-! ## Submitting -/

theorem submit_nil (u : Updater) : u.submit [] = u := by
  unfold submit
  rw [if_pos (by simp)]

theorem submit_eq_start (hrunning : u.cancelled = false) (hevents : events ≠ []) :
    u.submit events = u.start (Work.ofChanges u.tracking u.dependents events) := by
  unfold submit
  rw [if_neg]
  rw [hrunning, Bool.false_or, List.isEmpty_iff]
  exact hevents

/-- Submitting changes neither the batch nor what is tracked. -/
theorem submit_keeps (u : Updater) (events : List FileEvent) :
    (u.submit events).batch = u.batch ∧ (u.submit events).tracking = u.tracking := by
  unfold submit start
  split_ifs <;> exact ⟨rfl, rfl⟩

theorem tasks_subset_start (u : Updater) (work : Work) : u.tasks ⊆ (u.start work).tasks := by
  unfold Updater.start
  split_ifs
  · exact List.Subset.refl _
  · exact List.subset_append_left _ _

theorem tasks_subset_submit (u : Updater) (events : List FileEvent) :
    u.tasks ⊆ (u.submit events).tasks := by
  unfold submit
  split_ifs
  · exact List.Subset.refl _
  · exact tasks_subset_start u _

/-- A new task has the number that comes next. -/
theorem find?_task_start (h : u.Numbered) {work : Work} (hwork : ¬ work.isEmpty) :
    (u.start work).tasks.find? (·.id == u.nextTask) =
      some { id := u.nextTask, rest := work.slices } := by
  have hwaiting := h.waiting_start hwork
  exact find?_task hwaiting.tasks hwaiting.others

theorem Numbered.nodup_start (h : u.Numbered) (hdistinct : (u.tasks.map UpdateTask.id).Nodup)
    (work : Work) : ((u.start work).tasks.map UpdateTask.id).Nodup := by
  unfold Updater.start
  split_ifs
  · exact hdistinct
  · dsimp only
    rw [List.map_append, List.nodup_append]
    refine ⟨hdistinct, by simp, ?_⟩
    intro i hi j hj
    obtain ⟨t, ht, rfl⟩ := List.mem_map.mp hi
    rw [List.map_singleton, List.mem_singleton] at hj
    subst hj
    exact Nat.ne_of_lt (h t ht)

/-! ## Holding back -/

theorem hold_eq (u : Updater) (e : FileEvent) :
    (u.hold e).cancelled = u.cancelled ∧ (u.hold e).nextTask = u.nextTask ∧
    (u.hold e).tasks = u.tasks ∧ (u.hold e).tracking = u.tracking ∧
    (u.hold e).batch = u.batch.alter e.path.place fun
      | some old => some (mergeEvents old e)
      | none => some e := by
  unfold hold
  dsimp only
  split_ifs <;> exact ⟨rfl, rfl, rfl, rfl, rfl⟩

theorem getElem?_batch_hold (u : Updater) (e : FileEvent) (k : Place) :
    (u.hold e).batch[k]? =
      if e.path.place = k then some ((u.batch[k]?).elim e (mergeEvents · e)) else u.batch[k]? := by
  obtain ⟨-, -, -, -, hbatch⟩ := hold_eq u e
  rw [hbatch, Std.TreeMap.getElem?_alter]
  simp only [Std.LawfulEqCmp.compare_eq_iff_eq]
  split_ifs with hk
  · rw [hk]
    cases u.batch[k]? <;> rfl
  · rfl

/-- A report is submitted at once where nothing is held back. -/
theorem enqueue_eq (hrunning : u.cancelled = false) (e : FileEvent) :
    u.enqueue e = if u.settings.debounce = 0 then u.submit [e] else u.hold e := by
  unfold enqueue
  rw [if_neg (by simp [hrunning])]

/-- The updater when it has looked at a file of which it was told. -/
def noting (u : Updater) (s : Sources) (p : Path) (c : Change) : Updater :=
  { u with
    tracking := (u.tracking.notice s p c).2
    stats := { u.stats with eventsRaised := u.stats.eventsRaised + 1 } }

theorem notify_eq (u : Updater) (s : Sources) (p : Path) (c : Change) :
    (notify s (fun _ us => us) p c (u, ())).1 =
      (u.noting s p c).enqueue (u.tracking.notice s p c).1 := rfl

/-- The updater when its timer has run out and what was held back is about to be submitted. -/
def disarmed (u : Updater) : Updater :=
  { u with armed := false, batch := {}, inFlight := u.inFlight - 1 }

/-- The timer is under way until the submission is done. -/
theorem fire_eq (h : u.inFlight ≠ 0) : u.fire = u.disarmed.submit u.batch.values := by
  have hcount : u.inFlight + 1 - 1 = u.inFlight - 1 + 1 := by omega
  unfold fire disarmed submit start
  dsimp only
  split_ifs
  · rfl
  · rfl
  · dsimp only
    rw [hcount]

/-! ## Parsing and putting into the index -/

theorem mem_middle {t v : UpdateTask} {before behind : List UpdateTask} :
    t ∈ before ++ v :: behind ↔ t = v ∨ t ∈ before ++ behind :=
  List.perm_middle.mem_iff.trans List.mem_cons

/-- A task among the others. -/
theorem exists_split (h : (u.tasks.map UpdateTask.id).Nodup) {v : UpdateTask} (hv : v ∈ u.tasks) :
    ∃ before behind, u.tasks = before ++ v :: behind ∧ ∀ w ∈ before ++ behind, w.id ≠ v.id := by
  obtain ⟨before, behind, hsplit⟩ := List.append_of_mem hv
  rw [hsplit, List.map_append, List.map_cons, List.nodup_middle, List.nodup_cons,
    ← List.map_append] at h
  refine ⟨before, behind, hsplit, fun w hw heq => h.1 ?_⟩
  rw [← heq]
  exact List.mem_map_of_mem hw

theorem apply_keeps (u : Updater) (x : Snapshot) (id : Nat) :
    (u.apply x id).2.2.cancelled = u.cancelled ∧ (u.apply x id).2.2.nextTask = u.nextTask ∧
    (u.apply x id).2.2.tracking = u.tracking ∧ (u.apply x id).2.2.batch = u.batch := by
  unfold Updater.apply
  split
  · exact ⟨rfl, rfl, rfl, rfl⟩
  · split
    · exact ⟨rfl, rfl, rfl, rfl⟩
    · dsimp only
      unfold finish
      split_ifs <;> exact ⟨rfl, rfl, rfl, rfl⟩

theorem apply_keeps_timer (u : Updater) (x : Snapshot) (id : Nat) :
    (u.apply x id).2.2.settings = u.settings ∧ (u.apply x id).2.2.armed = u.armed := by
  unfold Updater.apply
  split
  · exact ⟨rfl, rfl⟩
  · split
    · exact ⟨rfl, rfl⟩
    · dsimp only
      unfold finish
      split_ifs <;> exact ⟨rfl, rfl⟩

/-- Only a task that has parsed something puts anything into the index. -/
theorem apply_cases (h : (u.tasks.map UpdateTask.id).Nodup) (x : Snapshot) (id : Nat) :
    u.apply x id = (none, x, u) ∨ ∃ before behind slice rest,
      u.tasks = before ++ { id, parsed := some slice, rest } :: behind ∧
      ∀ t ∈ before ++ behind, t.id ≠ id := by
  cases hfind : u.tasks.find? (·.id == id) with
  | none =>
      left
      unfold Updater.apply
      rw [hfind]
  | some v =>
      obtain ⟨id', parsed, rest⟩ := v
      obtain rfl : id' = id := by simpa using List.find?_some hfind
      cases parsed with
      | none =>
          left
          unfold Updater.apply
          rw [hfind]
      | some slice =>
          right
          obtain ⟨before, behind, hsplit, hothers⟩ :=
            exists_split h (List.mem_of_find?_eq_some hfind)
          exact ⟨before, behind, slice, rest, hsplit, hothers⟩

theorem inFlight_apply (hsplit : u.tasks = before ++ { id, parsed := some slice, rest } :: behind)
    (hothers : ∀ t ∈ before ++ behind, t.id ≠ id) (x : Snapshot) :
    (u.apply x id).2.2.inFlight = if rest.isEmpty then u.inFlight - 1 else u.inFlight := by
  have hfind := find?_task hsplit hothers
  dsimp only at hfind
  unfold apply
  rw [hfind]
  dsimp only
  unfold finish
  split_ifs with hdone hrest hrest
  · rfl
  · simp [hrest] at hdone
  · simp [hrest] at hdone
  · rfl

theorem id_parse (t : UpdateTask) (s : Sources) : (t.parse s).id = t.id := by
  unfold UpdateTask.parse
  split <;> rfl

theorem map_id_parse (u : Updater) (s : Sources) (id : Nat) :
    (u.parse s id).tasks.map UpdateTask.id = u.tasks.map UpdateTask.id := by
  unfold parse
  rw [List.map_map]
  refine List.map_congr_left fun t _ => ?_
  rw [Function.comp_apply]
  split_ifs
  · exact id_parse t s
  · rfl

/-- Only a task that has nothing parsed goes on to its next project. -/
theorem parse_cases (h : (u.tasks.map UpdateTask.id).Nodup) (s : Sources) (id : Nat) :
    u.parse s id = u ∨ ∃ before behind project files rest,
      u.Waiting id ((project, files) :: rest) before behind := by
  by_cases hid : ∃ v ∈ u.tasks, v.id = id
  · obtain ⟨v, hv, rfl⟩ := hid
    obtain ⟨before, behind, hsplit, hothers⟩ := exists_split h hv
    have hself : v.parse s = v → u.parse s v.id = u := by
      intro hparse
      unfold Updater.parse
      have htasks : (u.tasks.map fun t => if t.id = v.id then t.parse s else t) = u.tasks := by
        rw [hsplit, List.map_append, List.map_cons, if_pos rfl, hparse,
          map_eq_self_of_forall_ne fun w hw => hothers w (List.mem_append_left _ hw),
          map_eq_self_of_forall_ne fun w hw => hothers w (List.mem_append_right _ hw)]
      rw [htasks]
    obtain ⟨id, parsed, rest⟩ := v
    cases parsed with
    | some slice => exact .inl (hself rfl)
    | none =>
        cases rest with
        | nil => exact .inl (hself rfl)
        | cons slice rest => exact .inr ⟨before, behind, slice.1, slice.2, rest, hsplit, hothers⟩
  · left
    push Not at hid
    unfold Updater.parse
    rw [map_eq_self_of_forall_ne hid]

/-! ## Files in tasks -/

/-- Whether the file of a place has still to be parsed by a task. -/
def Queued (u : Updater) (k : Place) : Prop :=
  ∃ t ∈ u.tasks, ∃ slice ∈ t.rest, k ∈ slice.2.map Path.place

variable {k : Place} {v : Updater}

theorem Queued.of_subset (h : u.Queued k) (htasks : u.tasks ⊆ v.tasks) : v.Queued k := by
  obtain ⟨t, ht, hslice⟩ := h
  exact ⟨t, htasks ht, hslice⟩

theorem queued_start {work : Work} (h : work.Covers k) : (u.start work).Queued k := by
  obtain ⟨slice, hslice, hk⟩ := h.exists_mem_slices
  unfold Updater.start
  rw [if_neg h.not_isEmpty]
  exact ⟨_, List.mem_append_right _ List.mem_cons_self, slice, hslice, hk⟩

theorem queued_split {t : UpdateTask} (h : u.tasks = before ++ t :: behind) :
    u.Queued k ↔ (∃ t ∈ before ++ behind, ∃ slice ∈ t.rest, k ∈ slice.2.map Path.place) ∨
      ∃ slice ∈ t.rest, k ∈ slice.2.map Path.place := by
  unfold Queued
  rw [h]
  constructor
  · rintro ⟨t, ht, hslice⟩
    rcases mem_middle.mp ht with rfl | hin
    · exact .inr hslice
    · exact .inl ⟨t, hin, hslice⟩
  · rintro (⟨t, ht, hslice⟩ | hslice)
    · exact ⟨t, mem_middle.mpr (.inr ht), hslice⟩
    · exact ⟨t, mem_middle.mpr (.inl rfl), hslice⟩

theorem Queued.parsed {project : String} {files : List Path} (hk : u.Queued k)
    (h : u.Waiting id ((project, files) :: rest) before behind) (s : Sources) :
    (u.parse s id).Queued k ∨ k ∈ files.map Path.place := by
  rw [queued_split (h.tasks_parse s)]
  rcases (queued_split h.tasks).mp hk with hothers | ⟨slice, hslice, hin⟩
  · exact .inl (.inl hothers)
  · rcases List.mem_cons.mp hslice with rfl | hlater
    · exact .inr hin
    · exact .inl (.inr ⟨slice, hlater, hin⟩)

theorem Queued.applied (hk : u.Queued k)
    (hsplit : u.tasks = before ++ { id, parsed := some slice, rest } :: behind)
    (hothers : ∀ t ∈ before ++ behind, t.id ≠ id) (x : Snapshot) :
    (u.apply x id).2.2.Queued k := by
  obtain ⟨-, -, htasks⟩ := apply_parsed hsplit hothers x
  rcases (queued_split hsplit).mp hk with ⟨t, ht, hslice⟩ | ⟨slice', hin, hk'⟩
  · refine ⟨t, ?_, hslice⟩
    rw [htasks]
    split_ifs
    · exact ht
    · exact mem_middle.mpr (.inr ht)
  · refine ⟨{ id, rest }, ?_, slice', hin, hk'⟩
    rw [htasks, if_neg]
    · exact mem_middle.mpr (.inl rfl)
    · rw [List.isEmpty_iff]
      exact List.ne_nil_of_mem hin

/-! ## Timers and tasks -/

/-- An updater whose timer runs as long as something is held back, and that counts its timers and
tasks. -/
structure Steady (u : Updater) : Prop where
  running : u.cancelled = false
  numbered : u.Numbered
  distinct : (u.tasks.map UpdateTask.id).Nodup
  armed_iff : u.armed = true ↔ u.batch.isEmpty = false
  inFlight_eq : u.inFlight = (if u.armed then 1 else 0) + u.tasks.length
  /-- Nothing is held back where reports are submitted at once. -/
  prompt : u.settings.debounce = 0 → u.armed = false

theorem steady_new (settings : Settings) (dependencies : ProjectGraph) :
    (new settings dependencies).Steady where
  running := rfl
  numbered := numbered_new settings dependencies
  distinct := List.nodup_nil
  armed_iff := by
    have hbatch : (new settings dependencies).batch.isEmpty = true :=
      Std.TreeMap.isEmpty_emptyc
    rw [hbatch]
    exact iff_of_false Bool.false_ne_true Bool.false_ne_true.symm
  inFlight_eq := rfl
  prompt _ := rfl

theorem Steady.start (h : u.Steady) (work : Work) : (u.start work).Steady := by
  have hnumbered := h.numbered.start work
  have hdistinct := h.numbered.nodup_start h.distinct work
  unfold Updater.start at hnumbered hdistinct ⊢
  split_ifs at hnumbered hdistinct ⊢
  · exact h
  · refine ⟨h.running, hnumbered, hdistinct, h.armed_iff, ?_, h.prompt⟩
    dsimp only
    rw [h.inFlight_eq, List.length_append, List.length_singleton, Nat.add_assoc]

theorem Steady.submit (h : u.Steady) (events : List FileEvent) : (u.submit events).Steady := by
  by_cases hevents : events = []
  · rw [hevents, submit_nil]
    exact h
  · rw [submit_eq_start h.running hevents]
    exact h.start _

theorem isEmpty_batch_hold (u : Updater) (e : FileEvent) : (u.hold e).batch.isEmpty = false := by
  have hin : e.path.place ∈ (u.hold e).batch := by
    rw [Std.TreeMap.mem_iff_isSome_getElem?, getElem?_batch_hold, if_pos rfl]
    rfl
  exact Std.TreeMap.isEmpty_eq_false_iff_exists_mem.mpr ⟨_, hin⟩

theorem Steady.hold (h : u.Steady) (hdebounce : u.settings.debounce ≠ 0) (e : FileEvent) :
    (u.hold e).Steady := by
  have hbatch := isEmpty_batch_hold u e
  unfold Updater.hold at hbatch ⊢
  dsimp only at hbatch ⊢
  split_ifs at hbatch ⊢ with harmed
  · exact ⟨h.running, h.numbered, h.distinct, iff_of_true harmed hbatch, h.inFlight_eq, h.prompt⟩
  · refine ⟨h.running, h.numbered, h.distinct, iff_of_true rfl hbatch, ?_,
      fun hprompt => absurd hprompt hdebounce⟩
    have hcount := h.inFlight_eq
    rw [if_neg harmed] at hcount
    dsimp only
    rw [if_pos rfl, hcount]
    omega

/-- What an updater tracks and its statistics do not matter. -/
theorem Steady.of_tracking (h : u.Steady) (tracking : Tracking) (stats : Stats) :
    ({ u with tracking, stats } : Updater).Steady :=
  ⟨h.running, h.numbered, h.distinct, h.armed_iff, h.inFlight_eq, h.prompt⟩

theorem Steady.inFlight_pos (h : u.Steady) (harmed : u.armed = true) : u.inFlight ≠ 0 := by
  rw [h.inFlight_eq, if_pos harmed]
  omega

theorem Steady.disarm (h : u.Steady) (harmed : u.armed = true) : u.disarmed.Steady := by
  have hcount := h.inFlight_eq
  rw [if_pos harmed] at hcount
  refine ⟨h.running, h.numbered, h.distinct, ?_, ?_, fun _ => rfl⟩
  · unfold disarmed
    dsimp only
    rw [Std.TreeMap.isEmpty_emptyc]
    decide
  · unfold disarmed
    dsimp only
    rw [hcount, if_neg Bool.false_ne_true]
    omega

/-- A task that goes on keeps its number. -/
theorem Numbered.of_map_id {v : Updater} (h : u.Numbered) (hnext : v.nextTask = u.nextTask)
    (hids : v.tasks.map UpdateTask.id ⊆ u.tasks.map UpdateTask.id) : v.Numbered := by
  intro t ht
  obtain ⟨t', ht', hid⟩ := List.mem_map.mp (hids (List.mem_map_of_mem ht))
  rw [hnext, ← hid]
  exact h t' ht'

theorem Steady.parse (h : u.Steady) (s : Sources) (id : Nat) : (u.parse s id).Steady := by
  have hids := map_id_parse u s id
  refine ⟨h.running, h.numbered.of_map_id rfl ?_, ?_, h.armed_iff, ?_, h.prompt⟩
  · rw [hids]
    exact List.Subset.refl _
  · rw [hids]
    exact h.distinct
  · have hlength := congrArg List.length hids
    rw [List.length_map, List.length_map] at hlength
    rw [hlength]
    exact h.inFlight_eq

theorem Steady.apply (h : u.Steady) (x : Snapshot) (id : Nat) : (u.apply x id).2.2.Steady := by
  rcases apply_cases h.distinct x id with hsame | ⟨before, behind, slice, rest, hsplit, hothers⟩
  · rw [hsame]
    exact h
  obtain ⟨-, -, htasks⟩ := apply_parsed hsplit hothers x
  obtain ⟨hcancelled, hnext, -, hbatch⟩ := apply_keeps u x id
  obtain ⟨hsettings, harmed⟩ := apply_keeps_timer u x id
  have hids : ((u.apply x id).2.2.tasks.map UpdateTask.id).Sublist
      (u.tasks.map UpdateTask.id) := by
    rw [htasks, hsplit]
    split_ifs <;> simp
  refine ⟨hcancelled.trans h.running, h.numbered.of_map_id hnext hids.subset,
    h.distinct.sublist hids, ?_, ?_, ?_⟩
  · rw [harmed, hbatch]
    exact h.armed_iff
  · have hcount := h.inFlight_eq
    have hlength : u.tasks.length = (before ++ behind).length + 1 := by
      rw [hsplit]
      simp
      omega
    rw [inFlight_apply hsplit hothers, htasks, harmed]
    split_ifs at hcount ⊢ <;> simp at hlength ⊢ <;> omega
  · rw [hsettings, harmed]
    exact h.prompt

end SymbolAtlas.Updater
