import SymbolAtlas.Proofs.Update.Diary

/-!
# Holding changes back

No change that is reported is lost. What is held back of a file is what its reports since the last
submission come to, and a submission takes all that is held back. A submission that has a file of
some project becomes a task for it, and an updater at which nothing is under way has done all tasks.
-/

namespace SymbolAtlas

open Diary

/-! ## Merging reports -/

/-- What some events of one file in a row come to. -/
def mergeAll : List FileEvent → Option FileEvent
  | [] => none
  | first :: rest => some (rest.foldl Updater.mergeEvents first)

theorem mergeAll_concat (events : List FileEvent) (e : FileEvent) :
    mergeAll (events ++ [e]) = some ((mergeAll events).elim e (Updater.mergeEvents · e)) := by
  cases events with
  | nil => rfl
  | cons first rest =>
      rw [List.cons_append, mergeAll, List.foldl_append]
      rfl

theorem foldl_mergeEvents (first : FileEvent) (rest : List FileEvent) :
    let e := rest.foldl Updater.mergeEvents first
    e.path = first.path ∧
    e.change = (rest.map FileEvent.change).foldl Change.andThen first.change ∧
    e.project = (first :: rest).findSome? FileEvent.project := by
  induction rest generalizing first with
  | nil =>
      refine ⟨rfl, rfl, ?_⟩
      rw [List.foldl_nil, List.findSome?_cons, List.findSome?_nil]
      cases first.project <;> rfl
  | cons next rest ih =>
      obtain ⟨hpath, hchange, hproject⟩ := ih (Updater.mergeEvents first next)
      refine ⟨hpath, hchange, ?_⟩
      have hmerged : (Updater.mergeEvents first next).project =
          first.project.orElse fun _ => next.project := rfl
      rw [List.foldl_cons, hproject, List.findSome?_cons, List.findSome?_cons, List.findSome?_cons,
        hmerged]
      cases first.project <;> rfl

/-- Events in which the notices of each file are merged into one. -/
structure Gathers (notices events : List FileEvent) : Prop where
  nodup : (events.map fun e => e.path.place).Nodup
  mem : ∀ n ∈ notices, ∃ e ∈ events, e.path.place = n.path.place
  merged : ∀ e ∈ events, ∃ first rest,
    notices.filter (fun n => n.path.place = e.path.place) = first :: rest ∧
    e.path = first.path ∧
    e.change = (rest.map FileEvent.change).foldl Change.andThen first.change ∧
    e.project = (first :: rest).findSome? FileEvent.project

theorem mem_filter_place {notices : List FileEvent} {n : FileEvent} (hn : n ∈ notices) :
    n ∈ notices.filter fun m => m.path.place = n.path.place :=
  List.mem_filter.mpr ⟨hn, decide_eq_true rfl⟩

/-- A project that is told by a notice is not lost in the merging. -/
theorem Gathers.isSome_project {notices events : List FileEvent} (h : Gathers notices events)
    {n e : FileEvent} (hn : n ∈ notices) (he : e ∈ events) (hplace : e.path.place = n.path.place)
    (hproject : n.project.isSome) : e.project.isSome := by
  obtain ⟨first, rest, hfilter, -, -, hmerged⟩ := h.merged e he
  rw [hmerged, List.findSome?_isSome_iff, ← hfilter, hplace]
  exact ⟨n, mem_filter_place hn, hproject⟩

theorem gathers_singleton (e : FileEvent) : Gathers [e] [e] where
  nodup := List.nodup_singleton _
  mem n hn := ⟨e, List.mem_singleton_self e, by rw [List.mem_singleton.mp hn]⟩
  merged e' he' := by
    rw [List.mem_singleton.mp he']
    refine ⟨e, [], by simp, rfl, rfl, ?_⟩
    rw [List.findSome?_cons]
    cases e.project <;> rfl

section Held

variable {notices : List FileEvent} {batch : Std.TreeMap Place FileEvent}

theorem gathers_values
    (h : ∀ k : Place, batch[k]? = mergeAll (notices.filter fun n => n.path.place = k)) :
    Gathers notices batch.values := by
  have hmerged : ∀ (k : Place) e, batch[k]? = some e → ∃ first rest,
      notices.filter (fun n => n.path.place = k) = first :: rest ∧
      rest.foldl Updater.mergeEvents first = e ∧ e.path.place = k := by
    intro k e he
    rw [h] at he
    cases hfilter : notices.filter (fun n => n.path.place = k) with
    | nil =>
        rw [hfilter] at he
        cases he
    | cons first rest =>
        rw [hfilter] at he
        cases he
        have hfirst : first ∈ notices.filter (fun n => n.path.place = k) := by
          rw [hfilter]
          exact List.mem_cons_self
        refine ⟨first, rest, rfl, rfl, ?_⟩
        rw [(foldl_mergeEvents first rest).1]
        exact of_decide_eq_true (List.mem_filter.mp hfirst).2
  have hplace : ∀ (k : Place) e, batch[k]? = some e → e.path.place = k := by
    intro k e he
    obtain ⟨first, rest, -, -, hk⟩ := hmerged k e he
    exact hk
  refine ⟨?_, fun n hn => ?_, fun e he => ?_⟩
  · rw [map_values_eq_keys batch _ hplace]
    exact nodup_keys batch
  · have hne : notices.filter (fun m => m.path.place = n.path.place) ≠ [] :=
      List.ne_nil_of_mem (mem_filter_place hn)
    obtain ⟨first, rest, hfilter⟩ := List.exists_cons_of_ne_nil hne
    have he := h n.path.place
    rw [hfilter, mergeAll] at he
    exact ⟨_, (mem_values batch _).mpr ⟨_, he⟩, hplace _ _ he⟩
  · obtain ⟨k, hk⟩ := (mem_values batch e).mp he
    obtain ⟨first, rest, hfilter, rfl, hplace'⟩ := hmerged k e hk
    refine ⟨first, rest, ?_, foldl_mergeEvents first rest⟩
    rw [hplace']
    exact hfilter

/-- Nothing was noticed that is not held back. -/
theorem eq_nil_of_isEmpty
    (h : ∀ k : Place, batch[k]? = mergeAll (notices.filter fun n => n.path.place = k))
    (hbatch : batch.isEmpty = true) : notices = [] := by
  cases notices with
  | nil => rfl
  | cons n rest =>
      obtain ⟨e, he, -⟩ := (gathers_values h).mem n List.mem_cons_self
      obtain ⟨k, hk⟩ := (mem_values batch e).mp he
      rw [Std.TreeMap.getElem?_of_isEmpty hbatch] at hk
      cases hk

end Held

/-! ## What tasks have still to do -/

/-- Whether a task has still to put the files of a project into the index. -/
def UpdateTask.Holds (t : UpdateTask) (slice : String × List Path) : Prop :=
  slice ∈ t.rest ∨ ∃ p, t.parsed = some p ∧ (p.project, p.files) = slice

theorem UpdateTask.Holds.parse {t : UpdateTask} {slice : String × List Path} (h : t.Holds slice)
    (s : Sources) : (t.parse s).Holds slice := by
  obtain ⟨id, parsed, rest⟩ := t
  unfold UpdateTask.parse
  split
  · next hparsed hrest =>
      dsimp only at hparsed hrest
      subst hparsed hrest
      rcases h with hrest | ⟨p, hp, -⟩
      · rcases List.mem_cons.mp hrest with rfl | hlater
        · exact .inr ⟨_, rfl, rfl⟩
        · exact .inl hlater
      · cases hp
  · exact h

namespace Updater

variable {u v : Updater} {id : Nat} {slice : String × List Path}

/-- Whether a task of some number has still to put the files of a project into the index. -/
def Holds (u : Updater) (id : Nat) (slice : String × List Path) : Prop :=
  ∃ t ∈ u.tasks, t.id = id ∧ t.Holds slice

theorem Holds.of_subset (h : u.Holds id slice) (htasks : u.tasks ⊆ v.tasks) : v.Holds id slice := by
  obtain ⟨t, ht, hid, hslice⟩ := h
  exact ⟨t, htasks ht, hid, hslice⟩

theorem Holds.parse (h : u.Holds id slice) (s : Sources) (id' : Nat) :
    (u.parse s id').Holds id slice := by
  obtain ⟨t, ht, hid, hslice⟩ := h
  refine ⟨if t.id = id' then t.parse s else t, List.mem_map_of_mem ht, ?_, ?_⟩
  · split_ifs
    · rw [id_parse, hid]
    · exact hid
  · split_ifs
    · exact hslice.parse s
    · exact hslice

/-- A task that puts something into the index raises an update for it, and still has the rest to
do. -/
theorem Holds.apply (h : u.Holds id slice) (hdistinct : (u.tasks.map UpdateTask.id).Nodup)
    (x : Snapshot) (id' : Nat) :
    (u.apply x id').2.2.Holds id slice ∨
      ∃ e, (u.apply x id').1 = some e ∧ e.task = id ∧ (e.project, e.files) = slice := by
  rcases apply_cases hdistinct x id' with hsame | ⟨before, behind, parsed, rest, hsplit, hothers⟩
  · left
    rw [hsame]
    exact h
  obtain ⟨hupdate, -, htasks⟩ := apply_parsed hsplit hothers x
  obtain ⟨t, ht, hid, hslice⟩ := h
  rw [hsplit] at ht
  rcases mem_middle.mp ht with rfl | hin
  · rcases hslice with hrest | ⟨p, hp, hslice⟩
    · left
      refine ⟨{ id := id', rest }, ?_, hid, .inl hrest⟩
      rw [htasks, if_neg]
      · exact mem_middle.mpr (.inl rfl)
      · rw [List.isEmpty_iff]
        exact List.ne_nil_of_mem hrest
    · right
      cases hp
      exact ⟨_, hupdate, hid, hslice⟩
  · left
    refine ⟨t, ?_, hid, hslice⟩
    rw [htasks]
    split_ifs
    · exact hin
    · exact mem_middle.mpr (.inr hin)

end Updater

/-! ## Diaries -/

/-- Whether an update was raised for the files of a project by a task. -/
def Raised (diary : List Happening) (id : Nat) (slice : String × List Path) : Prop :=
  ∃ e r, .indexed e r ∈ diary ∧ e.task = id ∧ (e.project, e.files) = slice

/-- A submission that took the notices since the one before it, became a task for all files that
are known to be of some project, and whose task has done what it does not hold any more. -/
structure Honoured (u : Updater) (before : List Happening) (events : List FileEvent)
    (tracking : Tracking) (task : Option UpdateTask) (after : List Happening) : Prop where
  gathers : Gathers (waiting before) events
  covers : ∀ e ∈ events, (Work.owner? tracking e).isSome →
    ∃ t, task = some t ∧ ∃ slice ∈ t.rest, e.path.place ∈ slice.2.map Path.place
  raised : ∀ t, task = some t → ∀ slice ∈ t.rest, Raised after t.id slice ∨ u.Holds t.id slice

/-- Whether all submissions that a diary tells of were honoured. -/
def HonouredIn (u : Updater) (diary : List Happening) : Prop :=
  ∀ before events tracking task after, diary = before ++ .submitted events tracking task :: after →
    Honoured u before events tracking task after

variable {u v : Updater} {diary : List Happening} {events : List FileEvent}

theorem HonouredIn.of_holds (h : HonouredIn u diary)
    (hv : ∀ id slice, u.Holds id slice → v.Holds id slice) : HonouredIn v diary := by
  intro before events tracking task after heq
  obtain ⟨hgathers, hcovers, hraised⟩ := h _ _ _ _ _ heq
  exact ⟨hgathers, hcovers, fun t ht slice hslice => (hraised t ht slice hslice).imp_right (hv _ _)⟩

theorem HonouredIn.concat (h : HonouredIn u diary) {g : Happening}
    (hg : ∀ events tracking task, g ≠ .submitted events tracking task)
    (hv : ∀ id slice, u.Holds id slice → Raised [g] id slice ∨ v.Holds id slice) :
    HonouredIn v (diary ++ [g]) := by
  intro before events tracking task after heq
  rcases concat_eq_split heq with ⟨-, hlast, -⟩ | ⟨earlier, rfl, hsplit⟩
  · exact absurd hlast.symm (hg _ _ _)
  · obtain ⟨hgathers, hcovers, hraised⟩ := h _ _ _ _ _ hsplit
    refine ⟨hgathers, hcovers, fun t ht slice hslice => ?_⟩
    rcases hraised t ht slice hslice with ⟨e, r, he, htask, hfiles⟩ | hholds
    · exact .inl ⟨e, r, List.mem_append_left _ he, htask, hfiles⟩
    · rcases hv t.id slice hholds with ⟨e, r, he, htask, hfiles⟩ | hholds
      · exact .inl ⟨e, r, List.mem_append_right _ he, htask, hfiles⟩
      · exact .inr hholds

theorem honoured_submit (hu : u.Steady) (hevents : events ≠ [])
    (hgathers : Gathers (waiting diary) events) :
    Honoured (u.submit events) diary events (u.submit events).tracking
      ((u.submit events).tasks.find? (·.id == u.nextTask)) [] := by
  refine ⟨hgathers, fun e he howner => ?_, fun t ht slice hslice => ?_⟩
  · rw [(Updater.submit_keeps u events).2] at howner
    have hcovers : (Work.ofChanges u.tracking u.dependents events).Covers e.path.place :=
      Work.covers_ofChanges he howner
    obtain ⟨slice, hslice, hplace⟩ := hcovers.exists_mem_slices
    rw [Updater.submit_eq_start hu.running hevents,
      Updater.find?_task_start hu.numbered hcovers.not_isEmpty]
    exact ⟨_, rfl, slice, hslice, hplace⟩
  · exact .inr ⟨t, List.mem_of_find?_eq_some ht, rfl, .inl hslice⟩

theorem HonouredIn.submit (h : HonouredIn u diary) (hu : u.Steady) (hevents : events ≠ [])
    (hgathers : Gathers (waiting diary) events) :
    HonouredIn (u.submit events)
      (diary ++ [(u.submit events).submission events u.nextTask]) := by
  intro before events' tracking task after heq
  rcases concat_eq_split heq with ⟨rfl, hlast, rfl⟩ | ⟨earlier, rfl, hsplit⟩
  · cases hlast
    exact honoured_submit hu hevents hgathers
  · have hkeeps : ∀ id slice, u.Holds id slice → (u.submit events).Holds id slice := by
      intro id slice hholds
      apply hholds.of_subset
      rw [Updater.submit_eq_start hu.running hevents]
      exact Updater.tasks_subset_start u _
    obtain ⟨hgathers', hcovers, hraised⟩ := h.of_holds hkeeps _ _ _ _ _ hsplit
    refine ⟨hgathers', hcovers, fun t ht slice hslice => ?_⟩
    refine (hraised t ht slice hslice).imp_left ?_
    rintro ⟨e, r, he, htask, hfiles⟩
    exact ⟨e, r, List.mem_append_left _ he, htask, hfiles⟩

/-! ## Runs -/

namespace UpdateDesk

variable {d : UpdateDesk}

/-- What holds all the time. -/
structure Accounted (d : UpdateDesk) : Prop where
  steady : d.updater.Steady
  held : ∀ k : Place, d.updater.batch[k]? =
    mergeAll ((waiting d.diary).filter fun n => n.path.place = k)
  honoured : HonouredIn d.updater d.diary

theorem accounted_new (s : Sources) (settings : Updater.Settings) (dependencies : ProjectGraph)
    (x : Snapshot) : (new s settings dependencies x).Accounted where
  steady := Updater.steady_new settings dependencies
  held k := by
    change ({} : Std.TreeMap Place FileEvent)[k]? = none
    exact Std.TreeMap.getElem?_emptyc
  honoured before _ _ _ _ heq := by
    have hnil : ([] : List Happening) = before ++ _ := heq
    simp at hnil

/-- An entry of what is neither noticed nor submitted, and an updater that holds back the same. -/
theorem Accounted.concat (h : d.Accounted) {v : Updater} {s : Sources} {x : Snapshot}
    {g : Happening} (hsteady : v.Steady) (hbatch : v.batch = d.updater.batch)
    (hwaiting : waiting (d.diary ++ [g]) = waiting d.diary)
    (hg : ∀ events tracking task, g ≠ .submitted events tracking task)
    (hv : ∀ id slice, d.updater.Holds id slice → Raised [g] id slice ∨ v.Holds id slice) :
    Accounted ⟨s, v, x, d.diary ++ [g]⟩ where
  steady := hsteady
  held k := by
    dsimp only
    rw [hbatch, hwaiting]
    exact h.held k
  honoured := h.honoured.concat hg hv

theorem waiting_concat (diary : List Happening) {g : Happening} (hnoticed : ∀ e, g ≠ .noticed e)
    (hsubmitted : ∀ events tracking task, g ≠ .submitted events tracking task) :
    waiting (diary ++ [g]) = waiting diary := by
  unfold waiting
  rw [List.foldl_append, List.foldl_cons, List.foldl_nil]
  cases g with
  | noticed e => exact absurd rfl (hnoticed e)
  | submitted events tracking task => exact absurd rfl (hsubmitted events tracking task)
  | edited | parsed | indexed => rfl

theorem Accounted.register (h : d.Accounted) (p : Project) :
    (d.register p).Accounted := by
  unfold UpdateDesk.register
  split
  · next hregister =>
      obtain ⟨tracking, rfl⟩ := Updater.register_eq hregister
      exact ⟨h.steady.of_tracking tracking _, h.held, h.honoured.of_holds fun _ _ hholds => hholds⟩
  · exact h

theorem Accounted.edit (h : d.Accounted) (s : Sources) : (d.edit s).Accounted :=
  h.concat h.steady rfl (waiting_concat _ (by simp) (by simp)) (by simp)
    fun _ _ hholds => .inr hholds

theorem Accounted.notify (h : d.Accounted) (p : Path) (c : Change) :
    (d.notify p c).Accounted := by
  let w := d.updater.noting d.sources p c
  let e := (d.updater.tracking.notice d.sources p c).1
  have hw : w.Steady := h.steady.of_tracking _ _
  have hnoticed : HonouredIn w (d.diary ++ [.noticed e]) :=
    h.honoured.concat (by simp) fun _ _ hholds => .inr hholds
  by_cases hdebounce : d.updater.settings.debounce = 0
  · -- Where reports are submitted at once, none was waiting before this one.
    have hbatch : d.updater.batch.isEmpty = true := by
      have harmed := h.steady.prompt hdebounce
      by_contra hne
      rw [Bool.not_eq_true, ← h.steady.armed_iff, harmed] at hne
      cases hne
    have hwaiting : waiting (d.diary ++ [.noticed e]) = [e] := by
      rw [waiting_noticed, eq_nil_of_isEmpty h.held hbatch]
      rfl
    rw [notify_of_prompt h.steady.running hdebounce]
    refine ⟨hw.submit [e], fun k => ?_, hnoticed.submit hw (List.cons_ne_nil e []) ?_⟩
    · dsimp only
      rw [(Updater.submit_keeps w [e]).1, Updater.submission, waiting_submitted]
      exact Std.TreeMap.getElem?_of_isEmpty hbatch
    · rw [hwaiting]
      exact gathers_singleton e
  · obtain ⟨-, -, htasks, -, -⟩ := Updater.hold_eq w e
    rw [notify_of_debounce h.steady.running hdebounce]
    refine ⟨hw.hold hdebounce e, fun k => ?_, hnoticed.of_holds fun id slice hholds =>
      hholds.of_subset (by rw [htasks]; exact List.Subset.refl _)⟩
    dsimp only
    rw [Updater.getElem?_batch_hold, waiting_noticed, List.filter_append, List.filter_cons,
      List.filter_nil]
    by_cases hk : e.path.place = k
    · rw [if_pos hk, if_pos (decide_eq_true hk), mergeAll_concat, ← h.held k]
      rfl
    · rw [if_neg hk, if_neg (by simpa using hk), List.append_nil]
      exact h.held k

theorem Accounted.fire (h : d.Accounted) : d.fire.Accounted := by
  by_cases harmed : d.updater.armed = true
  · let w := d.updater.disarmed
    have hw : w.Steady := h.steady.disarm harmed
    have hvalues : d.updater.batch.values ≠ [] := by
      obtain ⟨k, hk⟩ :=
        Std.TreeMap.isEmpty_eq_false_iff_exists_mem.mp (h.steady.armed_iff.mp harmed)
      obtain ⟨e, he⟩ := Option.isSome_iff_exists.mp (Std.TreeMap.mem_iff_isSome_getElem?.mp hk)
      exact List.ne_nil_of_mem ((mem_values _ e).mpr ⟨k, he⟩)
    have hhonoured : HonouredIn w d.diary := h.honoured.of_holds fun _ _ hholds => hholds
    rw [fire_of_armed h.steady harmed]
    refine ⟨hw.submit _, fun k => ?_, hhonoured.submit hw hvalues (gathers_values h.held)⟩
    dsimp only
    rw [(Updater.submit_keeps w _).1, Updater.submission, waiting_submitted]
    exact Std.TreeMap.getElem?_emptyc
  · unfold UpdateDesk.fire
    rw [if_neg harmed]
    exact h

theorem Accounted.parse (h : d.Accounted) (id : Nat) : (d.parse id).Accounted := by
  rcases parse_cases h.steady.distinct id with
    hsame | ⟨before, behind, project, files, rest, -, hparse⟩
  · rw [hsame]
    exact h
  · rw [hparse]
    exact h.concat (h.steady.parse d.sources id) rfl (waiting_concat _ (by simp) (by simp))
      (by simp) fun _ _ hholds => .inr (hholds.parse d.sources id)

theorem Accounted.apply (h : d.Accounted) (id : Nat) : (d.apply id).Accounted := by
  rcases apply_cases h.steady.distinct id with
    hsame | ⟨before, behind, slice, rest, hsplit, hothers, happly⟩
  · rw [hsame]
    exact h
  · obtain ⟨hupdate, -, -⟩ := Updater.apply_parsed hsplit hothers d.index
    obtain ⟨-, -, -, hbatch⟩ := Updater.apply_keeps d.updater d.index id
    rw [happly]
    refine h.concat (h.steady.apply d.index id) hbatch (waiting_concat _ (by simp) (by simp))
      (by simp) fun id' slice' hholds => ?_
    rcases hholds.apply h.steady.distinct d.index id with hlater | ⟨e, he, htask, hfiles⟩
    · exact .inr hlater
    · rw [hupdate] at he
      cases he
      exact .inl ⟨_, _, List.mem_singleton_self _, htask, hfiles⟩

theorem Accounted.move (h : d.Accounted) (m : UpdateMove) : (d.move m).Accounted := by
  cases m with
  | register p => exact h.register p
  | edit s => exact h.edit s
  | notify p c => exact h.notify p c
  | fire => exact h.fire
  | parse id => exact h.parse id
  | apply id => exact h.apply id

theorem Accounted.run (h : d.Accounted) (moves : List UpdateMove) : (d.run moves).Accounted := by
  induction moves generalizing d with
  | nil => exact h
  | cons m rest ih => exact ih (h.move m)

/-! ## When nothing is under way -/

/-- The first submission that a diary tells of, if there is one. -/
theorem first_submitted (diary : List Happening) :
    (∀ events tracking task, .submitted events tracking task ∉ diary) ∨
      ∃ front events tracking task back, diary = front ++ .submitted events tracking task :: back ∧
        ∀ events' tracking' task', .submitted events' tracking' task' ∉ front := by
  induction diary with
  | nil => exact .inl (by simp)
  | cons g rest ih =>
      cases g with
      | submitted events tracking task =>
          exact .inr ⟨[], events, tracking, task, rest, rfl, by simp⟩
      | edited | noticed | parsed | indexed =>
          rcases ih with hnone | ⟨front, events, tracking, task, back, rfl, hfront⟩
          · exact .inl (by simpa using hnone)
          · exact .inr ⟨_ :: front, events, tracking, task, back, rfl, by simpa using hfront⟩

/-- A notice waits as long as nothing is submitted. -/
theorem mem_waiting {before after : List Happening} {e : FileEvent}
    (hafter : ∀ events tracking task, .submitted events tracking task ∉ after) :
    e ∈ waiting (before ++ .noticed e :: after) := by
  induction after using List.reverseRecOn with
  | nil =>
      rw [waiting_noticed]
      exact List.mem_append_right _ (List.mem_singleton_self e)
  | append_singleton after g ih =>
      have hearlier := ih fun events tracking task hin =>
        hafter events tracking task (List.mem_append_left _ hin)
      rw [← List.cons_append, ← List.append_assoc]
      cases g with
      | submitted events tracking task => exact absurd (by simp) (hafter events tracking task)
      | noticed e' =>
          rw [waiting_noticed]
          exact List.mem_append_left _ hearlier
      | edited | parsed | indexed =>
          rw [waiting_concat _ (by simp) (by simp)]
          exact hearlier

theorem Accounted.idle (h : d.Accounted) (hidle : d.updater.inFlight = 0) :
    d.updater.batch.isEmpty = true ∧ d.updater.tasks = [] := by
  have hcount := h.steady.inFlight_eq
  rw [hidle] at hcount
  have harmed : ¬ d.updater.armed = true := by
    intro harmed
    rw [if_pos harmed] at hcount
    omega
  rw [if_neg harmed] at hcount
  rw [h.steady.armed_iff, Bool.not_eq_false] at harmed
  exact ⟨harmed, List.eq_nil_of_length_eq_zero (by omega)⟩

/-- When nothing is under way, a change that was noticed was taken by the next submission, and its
task has put the file into the index if the file was of any project. -/
theorem Accounted.settled (h : d.Accounted) (hidle : d.updater.inFlight = 0)
    {before after : List Happening} {e : FileEvent}
    (hsplit : d.diary = before ++ .noticed e :: after) :
    ∃ front events tracking task back, after = front ++ .submitted events tracking task :: back ∧
      (∀ events' tracking' task', .submitted events' tracking' task' ∉ front) ∧
      ∃ e' ∈ events, e'.path.place = e.path.place ∧ (e.project.isSome → e'.project.isSome) ∧
        ((Work.owner? tracking e').isSome → ∃ t, task = some t ∧ ∃ u r, .indexed u r ∈ back ∧
          u.task = t.id ∧ e.path.place ∈ u.files.map Path.place) := by
  obtain ⟨hbatch, htasks⟩ := h.idle hidle
  rcases first_submitted after with hnone | ⟨front, events, tracking, task, back, rfl, hfront⟩
  · -- Nothing waits, so something must have been submitted.
    have hin : e ∈ waiting d.diary := by
      rw [hsplit]
      exact mem_waiting hnone
    rw [eq_nil_of_isEmpty h.held hbatch] at hin
    simp at hin
  have hsubmitted : d.diary =
      (before ++ .noticed e :: front) ++ .submitted events tracking task :: back := by
    rw [hsplit]
    simp
  obtain ⟨hgathers, hcovers, hraised⟩ := h.honoured _ _ _ _ _ hsubmitted
  have hin : e ∈ waiting (before ++ .noticed e :: front) := mem_waiting hfront
  obtain ⟨e', he', hplace⟩ := hgathers.mem e hin
  refine ⟨front, events, tracking, task, back, rfl, hfront, e', he', hplace,
    hgathers.isSome_project hin he' hplace, fun howner => ?_⟩
  obtain ⟨t, rfl, slice, hslice, hmem⟩ := hcovers e' he' howner
  rcases hraised t rfl slice hslice with ⟨u, r, hindexed, htask, hfiles⟩ | ⟨v, hv, -⟩
  · refine ⟨t, rfl, u, r, hindexed, htask, ?_⟩
    rw [← hplace]
    rw [← hfiles] at hmem
    exact hmem
  · rw [htasks] at hv
    simp at hv

/-- No change that is reported is lost. However edits, reports, the timer and tasks follow one
another, what is noticed are the reports in their order, each with the project to which its file
belongs by then. The timer runs just while something is held back, and timers and tasks are counted.
What is held back and what is submitted is what all reports since the submission before come to,
file by file, so that each report is taken once. A submission becomes a task for all its files that
are known to be of some project. And when nothing is under way, the task of the submission that took
a report has put the file into the index. -/
theorem settled_run (s : Sources) (settings : Updater.Settings) (dependencies : ProjectGraph)
    (x : Snapshot) (moves : List UpdateMove) :
    let d := (new s settings dependencies x).run moves
    noticed d.diary = (new s settings dependencies x).reports moves ∧
    (d.updater.armed = true ↔ d.updater.batch.isEmpty = false) ∧
    d.updater.inFlight = (if d.updater.armed then 1 else 0) + d.updater.tasks.length ∧
    Gathers (waiting d.diary) d.updater.batch.values ∧
    (∀ before events tracking task after,
      d.diary = before ++ .submitted events tracking task :: after →
      Gathers (waiting before) events ∧
      ∀ e ∈ events, e.project.isSome ∨ (tracking.projectOf? e.path).isSome →
        ∃ t, task = some t ∧ ∃ slice ∈ t.rest, e.path.place ∈ slice.2.map Path.place) ∧
    (d.updater.inFlight = 0 → ∀ before e after, d.diary = before ++ .noticed e :: after →
      ∃ front events tracking task back, after = front ++ .submitted events tracking task :: back ∧
        (∀ events' tracking' task', .submitted events' tracking' task' ∉ front) ∧
        ∃ e' ∈ events, e'.path.place = e.path.place ∧ (e.project.isSome → e'.project.isSome) ∧
          (e'.project.isSome ∨ (tracking.projectOf? e'.path).isSome →
            ∃ t, task = some t ∧ ∃ u r, .indexed u r ∈ back ∧ u.task = t.id ∧
              e.path.place ∈ u.files.map Path.place)) := by
  intro d
  have h : d.Accounted := (accounted_new s settings dependencies x).run moves
  have howner : ∀ (tracking : Tracking) e, e.project.isSome ∨ (tracking.projectOf? e.path).isSome →
      (Work.owner? tracking e).isSome := by
    intro tracking e howner
    unfold Work.owner?
    cases hproject : e.project with
    | none =>
        rw [hproject] at howner
        simpa using howner
    | some project => rfl
  refine ⟨noticed_run _ moves, h.steady.armed_iff, h.steady.inFlight_eq, gathers_values h.held,
    ?_, ?_⟩
  · intro before events tracking task after hsplit
    have hhonoured := h.honoured _ _ _ _ _ hsplit
    exact ⟨hhonoured.gathers,
      fun e he hproject => hhonoured.covers e he (howner tracking e hproject)⟩
  · intro hidle before e after hsplit
    obtain ⟨front, events, tracking, task, back, hafter, hfront, e', he', hplace, hproject,
      hdone⟩ := h.settled hidle hsplit
    exact ⟨front, events, tracking, task, back, hafter, hfront, e', he', hplace, hproject,
      fun hown => hdone (howner tracking e' hown)⟩

end UpdateDesk

end SymbolAtlas
