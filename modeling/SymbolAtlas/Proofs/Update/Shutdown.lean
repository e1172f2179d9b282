import SymbolAtlas.Proofs.Update.Ownership

/-!
# After a shutdown

An updater that has been shut down does no more work, and the index stays as it is. But it still
listens. A report is passed on to whoever listens to changes of files, and a file that can be seen
when it is reported is tracked again, for no project.
-/

namespace SymbolAtlas

namespace Tracking

variable {t : Tracking} {p : Path} {c : Change} {s : Sources}

theorem size_eq_zero_iff : t.size = 0 ↔ ∀ k, k ∉ t.seen := by
  rw [← Std.TreeMap.isEmpty_iff_forall_not_mem, Std.TreeMap.isEmpty_eq_size_eq_zero, beq_iff_eq]
  rfl

/-- Tracking that knows of no projects and so of no owners. -/
structure Projectless (t : Tracking) : Prop where
  projects : ∀ name : String, t.projects[name]? = none
  owners : ∀ k : Place, t.owners[k]? = none

theorem projectless_empty : Projectless {} where
  projects := by simp
  owners := by simp

theorem Projectless.values_eq_nil (h : t.Projectless) : t.projects.values = [] := by
  rw [List.eq_nil_iff_forall_not_mem]
  intro q hq
  obtain ⟨name, hname⟩ := (mem_values t.projects q).mp hq
  rw [h.projects name] at hname
  cases hname

theorem Projectless.projectOf?_eq_none (h : t.Projectless) (p : Path) : t.projectOf? p = none := by
  unfold projectOf? around?
  rw [h.owners, h.values_eq_nil]
  rfl

theorem Projectless.appeared_eq_nil (h : t.Projectless) (s : Sources) : t.appeared s = [] := by
  unfold appeared
  rw [h.values_eq_nil]
  rfl

theorem Projectless.see (h : t.Projectless) (p : Path) (f : Fingerprint) :
    (t.see p f).Projectless := ⟨h.projects, h.owners⟩

theorem Projectless.untrack (h : t.Projectless) (p : Path) : (t.untrack p).Projectless := by
  refine ⟨h.projects, fun k => ?_⟩
  rw [getElem?_owners_untrack, h.owners]
  exact ite_self none

theorem Projectless.notice (h : t.Projectless) (s : Sources) (p : Path) (c : Change) :
    (t.notice s p c).1 = ⟨p, c, none⟩ ∧ (t.notice s p c).2.Projectless := by
  unfold Tracking.notice
  rw [h.projectOf?_eq_none]
  refine ⟨rfl, ?_⟩
  cases c with
  | deleted => exact h.untrack p
  | created | contentChanged =>
      dsimp only
      cases s.fingerprint p with
      | ok f => exact h.see p f
      | error e => exact h

/-- Whatever is noted step by step is of no project. -/
theorem Projectless.noteEach {α : Type} (h : t.Projectless)
    (note : Tracking → α → Option FileEvent × Tracking)
    (hnote : ∀ t x, Projectless t →
      (∀ e, (note t x).1 = some e → e.project = none) ∧ (note t x).2.Projectless) (xs : List α) :
    (∀ e ∈ (noteEach note t xs).1, e.project = none) ∧ (noteEach note t xs).2.Projectless := by
  induction xs using List.reverseRecOn with
  | nil => exact ⟨fun e he => absurd he List.not_mem_nil, h⟩
  | append_singleton xs x ih =>
      obtain ⟨hevents, hafter⟩ := ih
      obtain ⟨hevent, hnext⟩ := hnote _ x hafter
      rw [noteEach_concat]
      refine ⟨fun e he => ?_, hnext⟩
      rcases List.mem_append.mp he with hearlier | hlast
      · exact hevents e hearlier
      · exact hevent e (Option.mem_toList.mp hlast)

theorem Projectless.survey (h : t.Projectless) (s : Sources) (scan : Bool) :
    (∀ e ∈ (t.survey s scan).1, e.project = none) ∧ (t.survey s scan).2.Projectless := by
  have happeared : (if scan then t.appeared s else []) = [] := by
    rw [h.appeared_eq_nil]
    exact ite_self []
  obtain ⟨hgone, hfirst⟩ := h.noteEach (fun t p => (t.noteGone p).map some id)
    (fun t p ht => ⟨fun e he => by cases he; exact ht.projectOf?_eq_none p, ht.untrack p⟩)
    (t.gone s)
  obtain ⟨haltered, hsecond⟩ := hfirst.noteEach
    (fun t (e : Path × Fingerprint) => (t.noteAltered e.1 e.2).map some id)
    (fun t e ht => ⟨fun e' he => by cases he; exact ht.projectOf?_eq_none e.1, ht.see e.1 e.2⟩)
    (t.altered s)
  unfold Tracking.survey
  dsimp only
  rw [happeared, noteEach_nil, List.append_nil]
  refine ⟨fun e he => ?_, hsecond⟩
  rw [List.mem_mergeSort, List.mem_append] at he
  exact he.elim (hgone e) (haltered e)

/-- Where nothing is tracked and nothing is registered, nothing is found. -/
theorem Projectless.survey_of_empty (h : t.Projectless) (hempty : ∀ k, k ∉ t.seen) (s : Sources)
    (scan : Bool) : t.survey s scan = ([], t) := by
  have hvalues : t.seen.values = [] := by
    rw [List.eq_nil_iff_forall_not_mem]
    intro e he
    obtain ⟨k, hk⟩ := (mem_values t.seen e).mp he
    exact hempty k (Std.TreeMap.mem_iff_isSome_getElem?.mpr (by rw [hk]; rfl))
  have happeared : (if scan then t.appeared s else []) = [] := by
    rw [h.appeared_eq_nil]
    exact ite_self []
  have hgone : t.gone s = [] := by
    unfold gone
    rw [hvalues]
    rfl
  have haltered : t.altered s = [] := by
    unfold altered
    rw [hvalues]
    rfl
  unfold Tracking.survey
  dsimp only
  rw [happeared, hgone, haltered]
  simp only [noteEach_nil, List.append_nil, List.mergeSort_nil]

/-! ## Reports -/

/-- A file that can be seen when it is reported is tracked. -/
theorem mem_seen_notice (h : s.Sees p c) : p.place ∈ (t.notice s p c).2.seen := by
  obtain ⟨hchange, look, hlook⟩ := h
  unfold Tracking.notice
  cases c with
  | deleted => exact absurd rfl hchange
  | created | contentChanged =>
      dsimp only
      rw [hlook]
      cases t.projectOf? p <;> exact mem_seen_see.mpr (.inl rfl)

theorem notice_of_not_sees (hempty : ∀ k, k ∉ t.seen) (h : ¬ s.Sees p c) :
    ∀ k, k ∉ (t.notice s p c).2.seen := by
  unfold Tracking.notice
  cases c with
  | deleted => exact fun k hk => hempty k (mem_seen_untrack.mp hk).2
  | created | contentChanged =>
      dsimp only
      cases hlook : s.fingerprint p with
      | ok look => exact absurd ⟨by simp, look, hlook⟩ h
      | error e => exact hempty

end Tracking

namespace Updater

/-! ## Listening -/

/-- Someone who remembers every event. -/
def recorder : FileListener (List FileEvent) := fun e us => (us.1, us.2 ++ [e])

variable {u : Updater} {heard : List FileEvent}

theorem broadcast_recorder (events : List FileEvent) :
    broadcast recorder events (u, heard) =
      ({ u with stats := { u.stats with eventsRaised := u.stats.eventsRaised + events.length } },
        heard ++ events) := by
  have hfold : ∀ (v : Updater) (heard : List FileEvent),
      events.foldl (fun us e => recorder e us) (v, heard) = (v, heard ++ events) := by
    induction events with
    | nil => simp
    | cons e rest ih =>
        intro v heard
        rw [List.foldl_cons]
        refine (ih v (heard ++ [e])).trans ?_
        simp
  exact hfold _ _

theorem submit_of_cancelled (h : u.cancelled = true) (events : List FileEvent) :
    u.submit events = u := by
  unfold submit
  rw [if_pos (by rw [h]; rfl)]

theorem notify_of_cancelled (h : u.cancelled = true) (s : Sources) (p : Path) (c : Change) :
    notify s recorder p c (u, heard) =
      (u.noting s p c, heard ++ [(u.tracking.notice s p c).1]) := by
  unfold notify
  dsimp only
  rw [broadcast_recorder]
  unfold enqueue
  dsimp only
  rw [if_pos h]
  rfl

/-- An updater that was cancelled still looks for changes. -/
theorem detect_of_cancelled (h : u.cancelled = true) (s : Sources) (heard : List FileEvent) :
    ∃ stats, stats.tasksSubmitted = u.stats.tasksSubmitted ∧
      (detect s recorder (u, heard)).2 =
        if u.detecting then ({ u with stats }, heard)
        else ({ u with
            tracking := (u.tracking.survey s u.settings.scan).2, stats, detecting := false },
          heard ++ (u.tracking.survey s u.settings.scan).1) := by
  unfold detect
  dsimp only
  by_cases hdetecting : u.detecting = true
  · rw [if_pos hdetecting]
    exact ⟨{ u.stats with cyclesSkipped := u.stats.cyclesSkipped + 1 }, rfl,
      (if_pos hdetecting).symm⟩
  rw [if_neg hdetecting]
  simp only [if_neg hdetecting]
  by_cases hevents : (u.tracking.survey s u.settings.scan).1 = []
  · rw [hevents, if_pos List.isEmpty_nil, List.append_nil]
    refine ⟨{ u.stats with cyclesRun := u.stats.cyclesRun + 1 }, rfl, ?_⟩
    dsimp only
    rw [submit_of_cancelled (by exact h)]
  · rw [if_neg (by rwa [List.isEmpty_iff]), broadcast_recorder]
    refine ⟨{ u.stats with
      cyclesRun := u.stats.cyclesRun + 1
      eventsRaised := u.stats.eventsRaised + (u.tracking.survey s u.settings.scan).1.length },
      rfl, ?_⟩
    dsimp only
    rw [submit_of_cancelled (by exact h)]

end Updater

/-! ## What can still happen -/

/-- An updater with the index that it keeps, and what those who listen to it have been told. -/
structure Aftermath where
  updater : Updater
  index : Snapshot
  /-- The changes of files. -/
  heard : List FileEvent := []
  /-- The changes of the index. -/
  updates : List IndexUpdate := []

/-- What can happen next: changes are reported or looked for, and whatever timers and tasks there
are go on. -/
inductive LateMove where
  | notify (s : Sources) (p : Path) (c : Change)
  | detect (s : Sources)
  | fire
  | parse (s : Sources) (id : Nat)
  | apply (id : Nat)

def LateMove.IsReport : LateMove → Prop
  | .notify _ _ _ => True
  | _ => False

/-- Whether a move reports a file that can be seen. -/
def LateMove.ShowsFile : LateMove → Prop
  | .notify s p c => s.Sees p c
  | _ => False

namespace Aftermath

def move (a : Aftermath) : LateMove → Aftermath
  | .notify s p c =>
    let next := Updater.notify s Updater.recorder p c (a.updater, a.heard)
    { a with updater := next.1, heard := next.2 }
  | .detect s =>
    let next := (Updater.detect s Updater.recorder (a.updater, a.heard)).2
    { a with updater := next.1, heard := next.2 }
  | .fire => { a with updater := a.updater.fire }
  | .parse s id => { a with updater := a.updater.parse s id }
  | .apply id =>
    let (update, index, updater) := a.updater.apply a.index id
    { a with updater, index, updates := a.updates ++ update.toList }

def run (a : Aftermath) (moves : List LateMove) : Aftermath := moves.foldl move a

theorem run_cons (a : Aftermath) (m : LateMove) (moves : List LateMove) :
    a.run (m :: moves) = (a.move m).run moves := rfl

theorem run_append (a : Aftermath) (moves more : List LateMove) :
    a.run (moves ++ more) = (a.run moves).run more := List.foldl_append

theorem run_concat (a : Aftermath) (moves : List LateMove) (m : LateMove) :
    a.run (moves ++ [m]) = (a.run moves).move m := by
  unfold run
  rw [List.foldl_append]
  rfl

end Aftermath

/-- An updater that has been shut down, when so many tasks had been submitted. -/
structure Updater.Retired (submitted : Nat) (u : Updater) : Prop where
  cancelled : u.cancelled = true
  tasks : u.tasks = []
  inFlight : u.inFlight = 0
  submitted : u.stats.tasksSubmitted = submitted
  projectless : u.tracking.Projectless

namespace Aftermath

/-- Nothing but the listeners for changes of files has noticed anything since some index was left,
and what they heard is of no project. -/
structure Quiet (submitted : Nat) (x : Snapshot) (a : Aftermath) : Prop where
  retired : a.updater.Retired submitted
  index : a.index = x
  updates : a.updates = []
  heard : ∀ e ∈ a.heard, e.project = none

variable {n : Nat} {x : Snapshot} {a : Aftermath} {s : Sources} {p : Path} {c : Change}

theorem quiet_shutdown (u : Updater) (x : Snapshot) :
    Quiet u.stats.tasksSubmitted x { updater := u.shutdown, index := x } where
  retired := ⟨rfl, rfl, rfl, rfl, Tracking.projectless_empty⟩
  index := rfl
  updates := rfl
  heard _ he := absurd he List.not_mem_nil

theorem Quiet.notify_eq (h : a.Quiet n x) (s : Sources) (p : Path) (c : Change) :
    a.move (.notify s p c) =
      { a with updater := a.updater.noting s p c, heard := a.heard ++ [⟨p, c, none⟩] } := by
  unfold move
  dsimp only
  rw [Updater.notify_of_cancelled h.retired.cancelled, (h.retired.projectless.notice s p c).1]

/-- An updater that was shut down has no tasks. -/
theorem Quiet.parse_eq (h : a.Quiet n x) (s : Sources) (id : Nat) :
    a.move (.parse s id) = a := by
  have hparse : a.updater.parse s id = a.updater := by
    unfold Updater.parse
    rw [h.retired.tasks, List.map_nil, ← h.retired.tasks]
  unfold Aftermath.move
  dsimp only
  rw [hparse]

theorem Quiet.apply_eq (h : a.Quiet n x) (id : Nat) : a.move (.apply id) = a := by
  have happly : a.updater.apply a.index id = (none, a.index, a.updater) := by
    unfold Updater.apply
    rw [h.retired.tasks]
    rfl
  unfold Aftermath.move
  dsimp only
  rw [happly]
  simp only [Option.toList_none, List.append_nil]

theorem Quiet.move (h : a.Quiet n x) (m : LateMove) : (a.move m).Quiet n x := by
  have hr := h.retired
  cases m with
  | notify s p c =>
      rw [h.notify_eq]
      obtain ⟨hevent, htracking⟩ := hr.projectless.notice s p c
      refine ⟨⟨hr.cancelled, hr.tasks, hr.inFlight, hr.submitted, htracking⟩, h.index, h.updates,
        fun e he => ?_⟩
      rcases List.mem_append.mp he with hearlier | hlast
      · exact h.heard e hearlier
      · rw [List.mem_singleton.mp hlast]
  | detect s =>
      obtain ⟨stats, hstats, hdetect⟩ := Updater.detect_of_cancelled hr.cancelled s a.heard
      obtain ⟨hevents, htracking⟩ := hr.projectless.survey s a.updater.settings.scan
      unfold Aftermath.move
      dsimp only
      rw [hdetect]
      split_ifs
      · exact ⟨⟨hr.cancelled, hr.tasks, hr.inFlight, hstats.trans hr.submitted, hr.projectless⟩,
          h.index, h.updates, h.heard⟩
      · refine ⟨⟨hr.cancelled, hr.tasks, hr.inFlight, hstats.trans hr.submitted, htracking⟩,
          h.index, h.updates, fun e he => ?_⟩
        exact (List.mem_append.mp he).elim (h.heard e) (hevents e)
  | fire =>
      have hsubmit := Updater.submit_of_cancelled
        (u := { a.updater with armed := false, batch := {} }) hr.cancelled a.updater.batch.values
      unfold Aftermath.move Updater.fire
      dsimp only
      rw [hsubmit]
      exact ⟨⟨hr.cancelled, hr.tasks, congrArg (· - 1) hr.inFlight, hr.submitted,
        hr.projectless⟩, h.index, h.updates, h.heard⟩
  | parse s id =>
      rw [h.parse_eq]
      exact h
  | apply id =>
      rw [h.apply_eq]
      exact h

theorem Quiet.run (h : a.Quiet n x) (moves : List LateMove) : (a.run moves).Quiet n x := by
  induction moves generalizing a with
  | nil => exact h
  | cons m rest ih => exact ih (h.move m)

/-! ## What is tracked and what is heard -/

/-- Where nothing is tracked, nothing is found and nobody is told of anything. -/
theorem Quiet.detect_of_empty (h : a.Quiet n x) (hempty : ∀ k, k ∉ a.updater.tracking.seen)
    (s : Sources) :
    (a.move (.detect s)).updater.tracking = a.updater.tracking ∧
      (a.move (.detect s)).heard = a.heard := by
  obtain ⟨stats, -, hdetect⟩ := Updater.detect_of_cancelled h.retired.cancelled s a.heard
  rw [h.retired.projectless.survey_of_empty hempty, List.append_nil] at hdetect
  unfold Aftermath.move
  dsimp only
  rw [hdetect]
  split_ifs <;> exact ⟨rfl, rfl⟩

/-- Only the report of a file that can be seen ends that nothing is tracked. -/
theorem Quiet.empty_move (h : a.Quiet n x) (hempty : ∀ k, k ∉ a.updater.tracking.seen)
    {m : LateMove} (hm : ¬ m.ShowsFile) : ∀ k, k ∉ (a.move m).updater.tracking.seen := by
  cases m with
  | notify s p c =>
      rw [h.notify_eq]
      exact Tracking.notice_of_not_sees hempty hm
  | detect s =>
      rw [(h.detect_of_empty hempty s).1]
      exact hempty
  | fire =>
      change ∀ k, k ∉ (a.updater.move .fire).tracking.seen
      rw [Updater.tracking_fire]
      exact hempty
  | parse s id =>
      rw [h.parse_eq]
      exact hempty
  | apply id =>
      rw [h.apply_eq]
      exact hempty

theorem Quiet.empty_run (h : a.Quiet n x) (hempty : ∀ k, k ∉ a.updater.tracking.seen)
    {moves : List LateMove} (hmoves : ∀ m ∈ moves, ¬ m.ShowsFile) :
    ∀ k, k ∉ (a.run moves).updater.tracking.seen := by
  induction moves generalizing a with
  | nil => exact hempty
  | cons m rest ih =>
      have hfirst := h.empty_move hempty (hmoves m List.mem_cons_self)
      exact ih (h.move m) hfirst fun m' hm' => hmoves m' (List.mem_cons_of_mem m hm')

/-- Only a report makes anyone hear anything, as long as nothing is tracked. -/
theorem Quiet.heard_move (h : a.Quiet n x) (hempty : ∀ k, k ∉ a.updater.tracking.seen)
    {m : LateMove} (hm : ¬ m.IsReport) : (a.move m).heard = a.heard := by
  cases m with
  | notify s p c => exact absurd trivial hm
  | detect s => exact (h.detect_of_empty hempty s).2
  | fire | parse _ _ | apply _ => rfl

theorem LateMove.ShowsFile.isReport {m : LateMove} (h : m.ShowsFile) : m.IsReport := by
  cases m with
  | notify s p c => trivial
  | detect _ | fire | parse _ _ | apply _ => exact h.elim

theorem Quiet.heard_run (h : a.Quiet n x) (hempty : ∀ k, k ∉ a.updater.tracking.seen)
    {moves : List LateMove} (hmoves : ∀ m ∈ moves, ¬ m.IsReport) :
    (a.run moves).heard = a.heard := by
  induction moves generalizing a with
  | nil => rfl
  | cons m rest ih =>
      have hm := hmoves m List.mem_cons_self
      have hfirst := h.empty_move hempty (mt LateMove.ShowsFile.isReport hm)
      have hrest := ih (h.move m) hfirst fun m' hm' => hmoves m' (List.mem_cons_of_mem m hm')
      exact hrest.trans (h.heard_move hempty hm)

/-- What was heard stays heard. -/
theorem Quiet.heard_prefix_move (h : a.Quiet n x) (m : LateMove) :
    a.heard <+: (a.move m).heard := by
  cases m with
  | notify s p c =>
      rw [h.notify_eq]
      exact List.prefix_append _ _
  | detect s =>
      obtain ⟨stats, -, hdetect⟩ := Updater.detect_of_cancelled h.retired.cancelled s a.heard
      unfold Aftermath.move
      dsimp only
      rw [hdetect]
      split_ifs
      · exact List.prefix_refl _
      · exact List.prefix_append _ _
  | fire | parse _ _ | apply _ => exact List.prefix_refl _

theorem Quiet.heard_prefix_run (h : a.Quiet n x) (moves : List LateMove) :
    a.heard <+: (a.run moves).heard := by
  induction moves generalizing a with
  | nil => exact List.prefix_refl _
  | cons m rest ih => exact (h.heard_prefix_move m).trans (ih (h.move m))

/-- Nobody hears anything exactly when there is no report. -/
theorem Quiet.heard_eq_nil_iff (h : a.Quiet n x) (hempty : ∀ k, k ∉ a.updater.tracking.seen)
    (hheard : a.heard = []) (moves : List LateMove) :
    (a.run moves).heard = [] ↔ ∀ m ∈ moves, ¬ m.IsReport := by
  -- What a report made someone hear is still heard at the end.
  refine ⟨fun hnothing m hm hreport => ?_, fun hmoves => (h.heard_run hempty hmoves).trans hheard⟩
  obtain ⟨earlier, later, rfl⟩ := List.append_of_mem hm
  cases m with
  | notify s p c =>
      have hbefore := h.run earlier
      have htold : ⟨p, c, none⟩ ∈ ((a.run earlier).move (.notify s p c)).heard := by
        rw [hbefore.notify_eq]
        exact List.mem_append_right _ (List.mem_singleton.mpr rfl)
      have hstill := ((hbefore.move (.notify s p c)).heard_prefix_run later).subset htold
      rw [← run_cons, ← run_append, hnothing] at hstill
      cases hstill
  | detect _ | fire | parse _ _ | apply _ => exact hreport.elim

/-- Nothing is ever tracked exactly when no report shows a file. -/
theorem Quiet.size_eq_zero_iff (h : a.Quiet n x) (hempty : ∀ k, k ∉ a.updater.tracking.seen)
    (moves : List LateMove) :
    (∀ earlier, earlier <+: moves → (a.run earlier).updater.tracking.size = 0) ↔
      ∀ m ∈ moves, ¬ m.ShowsFile := by
  constructor
  · intro hnever m hm hshows
    obtain ⟨earlier, later, rfl⟩ := List.append_of_mem hm
    cases m with
    | notify s p c =>
        have hsize := hnever (earlier ++ [.notify s p c]) (by simp)
        rw [run_concat, (h.run earlier).notify_eq, Tracking.size_eq_zero_iff] at hsize
        exact hsize p.place (Tracking.mem_seen_notice hshows)
    | detect _ | fire | parse _ _ | apply _ => exact hshows.elim
  · intro hmoves earlier hearlier
    rw [Tracking.size_eq_zero_iff]
    exact h.empty_run hempty fun m hm => hmoves m (hearlier.subset hm)

/-- An updater that was shut down works no more, but still listens. Whatever happens afterwards, no
task is submitted or under way, the index stays as it is, and nobody is told of a change of it. But
each report is passed on to those who listen to changes of files, as one of no project, and files
are tracked again as soon as one is reported that can be seen. -/
theorem shutdown_run (u : Updater) (x : Snapshot) (moves : List LateMove) :
    let after (moves : List LateMove) : Aftermath :=
      ({ updater := u.shutdown, index := x } : Aftermath).run moves
    (after moves).updater.stats.tasksSubmitted = u.stats.tasksSubmitted ∧
    (after moves).updater.tasks = [] ∧ (after moves).updater.inFlight = 0 ∧
    (after moves).index = x ∧ (after moves).updates = [] ∧
    (∀ e ∈ (after moves).heard, e.project = none) ∧
    ((after moves).heard = [] ↔ ∀ m ∈ moves, ¬ m.IsReport) ∧
    ((∀ earlier, earlier <+: moves → (after earlier).updater.tracking.size = 0) ↔
      ∀ m ∈ moves, ¬ m.ShowsFile) := by
  intro after
  have hstart := quiet_shutdown u x
  have hempty : ∀ k, k ∉ u.shutdown.tracking.seen := fun k => Std.TreeMap.not_mem_emptyc
  obtain ⟨hretired, hindex, hupdates, hheard⟩ := hstart.run moves
  exact ⟨hretired.submitted, hretired.tasks, hretired.inFlight, hindex, hupdates, hheard,
    hstart.heard_eq_nil_iff hempty rfl moves, hstart.size_eq_zero_iff hempty moves⟩

/-- A file that is reported after the shutdown is heard of and tracked. -/
theorem heard_of_late_report :
    let late : LateMove := .notify Updater.nestedSources ⟨"r/a.sym"⟩ .contentChanged
    let a := ({ updater := (Updater.new {} {}).shutdown, index := {} } : Aftermath).run [late]
    a.heard ≠ [] ∧ a.updater.tracking.size ≠ 0 := by
  intro late a
  have hshows : late.ShowsFile := ⟨by decide, { modified := 0, size := 0 }, rfl⟩
  obtain ⟨-, -, -, -, -, -, hheard, htracked⟩ := shutdown_run (Updater.new {} {}) {} [late]
  refine ⟨fun hnothing => hheard.mp hnothing late List.mem_cons_self trivial, fun hsize => ?_⟩
  refine htracked.mp (fun earlier hearlier => ?_) late List.mem_cons_self hshows
  rcases List.prefix_cons_iff.mp hearlier with rfl | ⟨rest, rfl, hrest⟩
  · rfl
  · rw [List.prefix_nil.mp hrest]
    exact hsize

end Aftermath

end SymbolAtlas
