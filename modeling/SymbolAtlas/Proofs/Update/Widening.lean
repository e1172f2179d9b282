import SymbolAtlas.Proofs.Update.Ownership
import SymbolAtlas.Proofs.Update.Shutdown

/-!
# Widening the work

The work for some changes is for the projects that have changed and for those that depend directly
on one of them. Which projects are widened is settled before any is, and to widen a project is only
to add its files. So projects that depend on each other, or on themselves, are no trouble, and it
does not matter in which order they are visited.
-/

namespace SymbolAtlas

/-! ## Dependencies turned round -/

namespace ProjectGraph

/-- Whether a project depends directly on another one, or on itself. -/
def DependsOn (g : ProjectGraph) (project target : String) : Prop :=
  ∃ targets, g[project]? = some targets ∧ target ∈ targets

variable {g r : ProjectGraph} {project target name : String}

theorem mem_dependentsOf_alter {source : String} :
    project ∈ Work.dependentsOf (r.alter source fun sources =>
      some ((sources.getD {}).insert name)) target ↔
      project ∈ Work.dependentsOf r target ∨ project = name ∧ target = source := by
  unfold Work.dependentsOf
  rw [Std.TreeMap.getElem?_alter]
  simp only [Std.LawfulEqCmp.compare_eq_iff_eq]
  split_ifs with hsource
  · subst hsource
    rw [Option.getD_some, Std.TreeSet.mem_toList, Std.TreeSet.mem_toList, Std.TreeSet.mem_insert,
      Std.LawfulEqCmp.compare_eq_iff_eq, or_comm, and_iff_left rfl, eq_comm]
  · simp [Ne.symm hsource]

/-- The edges of one project, turned round. -/
theorem mem_dependentsOf_foldl_alter {targets : List String} :
    project ∈ Work.dependentsOf (targets.foldl (fun r target =>
      r.alter target fun sources => some ((sources.getD {}).insert name)) r) target ↔
      project ∈ Work.dependentsOf r target ∨ project = name ∧ target ∈ targets := by
  induction targets generalizing r with
  | nil => simp
  | cons first rest ih =>
      rw [List.foldl_cons, ih, mem_dependentsOf_alter, List.mem_cons, or_assoc, ← and_or_left]

/-- The edges of some projects, turned round. -/
theorem mem_dependentsOf_foldl_foldl {entries : List (String × Std.TreeSet String)} :
    project ∈ Work.dependentsOf (entries.foldl (fun r entry => entry.2.toList.foldl (fun r target =>
      r.alter target fun sources => some ((sources.getD {}).insert entry.1)) r) r) target ↔
      project ∈ Work.dependentsOf r target ∨
        ∃ targets, (project, targets) ∈ entries ∧ target ∈ targets := by
  induction entries generalizing r with
  | nil => simp
  | cons first rest ih =>
      obtain ⟨name, targets⟩ := first
      rw [List.foldl_cons, ih, mem_dependentsOf_foldl_alter, or_assoc, Std.TreeSet.mem_toList]
      refine or_congr_right ⟨?_, ?_⟩
      · rintro (⟨rfl, htarget⟩ | ⟨others, hmem, htarget⟩)
        · exact ⟨targets, List.mem_cons_self, htarget⟩
        · exact ⟨others, List.mem_cons_of_mem _ hmem, htarget⟩
      · rintro ⟨others, hmem, htarget⟩
        rcases List.mem_cons.mp hmem with heq | hmem
        · cases heq
          exact .inl ⟨rfl, htarget⟩
        · exact .inr ⟨others, hmem, htarget⟩

/-- The dependents of a project are those that depend on it directly. -/
theorem mem_dependentsOf_reverse :
    project ∈ Work.dependentsOf g.reverse target ↔ g.DependsOn project target := by
  refine (mem_dependentsOf_foldl_foldl (r := {})).trans ?_
  rw [or_iff_right (by simp [Work.dependentsOf])]
  simp only [DependsOn, Std.TreeMap.mem_toList_iff_getElem?_eq_some]

end ProjectGraph

namespace PathSet

theorem contains_eq_true_iff {s : PathSet} {k : Place} :
    s.contains k = true ↔ ∃ p, s.at? k = some p := by
  unfold contains at?
  rw [Std.TreeMap.contains_iff_mem, Std.TreeMap.mem_iff_isSome_getElem?,
    Option.isSome_iff_exists]

theorem toList_congr {s s' : PathSet} (h : ∀ k, s.at? k = s'.at? k) : s.toList = s'.toList :=
  (Std.TreeMap.Equiv.of_forall_constGet?_eq h).values_eq

end PathSet

namespace Work

variable {w w' : Work} {t : Tracking} {events : List FileEvent} {g : ProjectGraph}
  {visits : List String} {project name : String} {p : Path} {k : Place}

/-! ## Visiting projects -/

/-- Work that is for the same projects and names the same files is the same as a list. -/
theorem slices_congr (hprojects : ∀ name, name ∈ w ↔ name ∈ w')
    (hnames : ∀ name p k, w.Names name p k ↔ w'.Names name p k) : w.slices = w'.slices := by
  have hlist : ∀ v : Work, v.slices = (v.map fun _ paths => paths.toList).toList := by
    intro v
    rw [Std.TreeMap.toList_map, slices]
  rw [hlist, hlist]
  refine Std.TreeMap.Equiv.toList_eq (Std.TreeMap.Equiv.of_forall_constGet?_eq fun name => ?_)
  rw [Std.TreeMap.getElem?_map, Std.TreeMap.getElem?_map]
  have hsome := hprojects name
  rw [Std.TreeMap.mem_iff_isSome_getElem?, Std.TreeMap.mem_iff_isSome_getElem?] at hsome
  cases hw : w[name]? with
  | none =>
      have hw' : w'[name]? = none := by
        rw [← Option.not_isSome_iff_eq_none, ← hsome, hw]
        decide
      rw [hw']
  | some paths =>
      obtain ⟨paths', hw'⟩ := Option.isSome_iff_exists.mp (hsome.mp (by rw [hw]; rfl))
      rw [hw', Option.map_some, Option.map_some, PathSet.toList_congr fun k => ?_]
      have hpaths := fun p => hnames name p k
      simp only [Names, hw, hw', Option.some.injEq, exists_eq_left'] at hpaths
      exact Option.ext hpaths

/-- The work with all files of some projects, which are visited one after the other. -/
def visit (w : Work) (t : Tracking) (visits : List String) : Work :=
  visits.foldl (fun w project => w.add project (t.filesOf project)) w

theorem mem_add {paths : PathSet} : name ∈ w.add project paths ↔ name = project ∨ name ∈ w := by
  rw [Std.TreeMap.mem_iff_isSome_getElem?, Std.TreeMap.mem_iff_isSome_getElem?, getElem?_add]
  split_ifs with hname
  · simp [hname]
  · simp [Ne.symm hname]

theorem mem_visit : name ∈ w.visit t visits ↔ name ∈ w ∨ name ∈ visits := by
  induction visits generalizing w with
  | nil => simp [visit]
  | cons first rest ih =>
      refine ih.trans ?_
      rw [mem_add, List.mem_cons, or_comm (a := name = first), or_assoc]

/-- A file that was named before keeps its spelling, and a project may be visited again. -/
theorem names_visit : (w.visit t visits).Names name p k ↔ w.Names name p k ∨
    name ∈ visits ∧ (∀ q, ¬ w.Names name q k) ∧ (t.filesOf name).at? k = some p := by
  induction visits generalizing w with
  | nil => simp [visit]
  | cons first rest ih =>
      refine ih.trans ?_
      rw [names_add, List.mem_cons]
      constructor
      · rintro ((hold | ⟨rfl, hfirst⟩) | ⟨hrest, hnot, hfile⟩)
        · exact .inl hold
        · exact .inr ⟨.inl rfl, hfirst⟩
        · exact .inr ⟨.inr hrest, fun q hq => hnot q (hq.add first _), hfile⟩
      · rintro (hold | ⟨hmem, hnot, hfile⟩)
        · exact .inl (.inl hold)
        · by_cases hfirst : name = first
          · subst hfirst
            exact .inl (.inr ⟨rfl, hnot, hfile⟩)
          · refine .inr ⟨hmem.resolve_left hfirst, fun q hq => ?_, hfile⟩
            rcases hq.of_add with hold | ⟨hnew, -⟩
            · exact hnot q hold
            · exact hfirst hnew

/-- In whatever order projects are visited, and however often, the work is the same. -/
theorem slices_visit_congr {visits' : List String} (h : ∀ name, name ∈ visits ↔ name ∈ visits') :
    (w.visit t visits).slices = (w.visit t visits').slices := by
  refine slices_congr (fun name => ?_) fun name p k => ?_
  · rw [mem_visit, mem_visit, h]
  · rw [names_visit, names_visit, h]

/-! ## Changed and widened projects -/

/-- A project that an event is for. -/
def Changed (t : Tracking) (events : List FileEvent) (project : String) : Prop :=
  ∃ e ∈ events, owner? t e = some project

/-- A project that depends directly on one that has changed. -/
def Widened (t : Tracking) (g : ProjectGraph) (events : List FileEvent) (project : String) : Prop :=
  ∃ changed, Changed t events changed ∧ g.DependsOn project changed

theorem mem_ofEvents : name ∈ ofEvents t events ↔ Changed t events name := by
  induction events using List.reverseRecOn with
  | nil =>
      refine iff_of_false (Std.TreeMap.not_mem_emptyc) ?_
      rintro ⟨e, he, -⟩
      simp at he
  | append_singleton events e ih =>
      have hconcat : Changed t (events ++ [e]) name ↔
          Changed t events name ∨ owner? t e = some name := by
        simp [Changed, or_and_right, exists_or]
      rw [hconcat, ← ih]
      cases howner : owner? t e with
      | none => rw [ofEvents_concat_of_none howner, or_iff_left nofun]
      | some project => rw [ofEvents_concat howner, mem_add, or_comm, Option.some_inj, eq_comm]

/-- Work that is just what some changes and a graph of dependencies ask for. -/
structure AsAsked (t : Tracking) (g : ProjectGraph) (events : List FileEvent) (w : Work) :
    Prop where
  mem_iff : ∀ name, name ∈ w ↔ Changed t events name ∨ Widened t g events name
  names_iff : ∀ name k, (∃ p, w.Names name p k) ↔
    (∃ e ∈ events, owner? t e = some name ∧ e.path.place = k) ∨
      Widened t g events name ∧ t.Lists name k
  spelled : ∀ name p k, w.Names name p k →
    (∃ e ∈ events, owner? t e = some name ∧ e.path = p) ∨
      Widened t g events name ∧ (t.filesOf name).at? k = some p
  ordered : ∀ visits, (∀ name, name ∈ visits ↔ Widened t g events name) →
    ((ofEvents t events).visit t visits).slices = w.slices

/-- There is nothing to do just when no change belongs to a project. -/
theorem AsAsked.isEmpty_iff (h : AsAsked t g events w) :
    w.isEmpty = true ↔ ∀ e ∈ events, owner? t e = none := by
  rw [Std.TreeMap.isEmpty_iff_forall_not_mem]
  simp only [h.mem_iff]
  constructor
  · intro hnone e he
    rw [Option.eq_none_iff_forall_ne_some]
    exact fun name howner => hnone name (.inl ⟨e, he, howner⟩)
  · rintro hnobody name (⟨e, he, howner⟩ | ⟨changed, ⟨e, he, howner⟩, -⟩) <;>
      simp [hnobody e he] at howner

theorem mem_flatMap_dependentsOf :
    name ∈ (ofEvents t events).keys.flatMap (dependentsOf g.reverse) ↔ Widened t g events name := by
  rw [List.mem_flatMap]
  refine exists_congr fun changed => ?_
  rw [Std.TreeMap.mem_keys, mem_ofEvents, ProjectGraph.mem_dependentsOf_reverse]

theorem exists_names_ofEvents_iff : (∃ p, (ofEvents t events).Names name p k) ↔
    ∃ e ∈ events, owner? t e = some name ∧ e.path.place = k := by
  constructor
  · rintro ⟨p, hp⟩
    obtain ⟨e, he, howner, hpath⟩ := hp.of_ofEvents
    obtain ⟨paths, -, hat⟩ := hp
    refine ⟨e, he, howner, ?_⟩
    rw [hpath]
    exact PathSet.place_of_at? hat
  · rintro ⟨e, he, howner, rfl⟩
    exact exists_names_ofEvents he howner

theorem asAsked_ofChanges (t : Tracking) (g : ProjectGraph) (events : List FileEvent) :
    AsAsked t g events (ofChanges t g.reverse events) := by
  have hwork : ofChanges t g.reverse events = (ofEvents t events).visit t
      ((ofEvents t events).keys.flatMap (dependentsOf g.reverse)) := rfl
  rw [hwork]
  refine ⟨fun name => ?_, fun name k => ?_, fun name p k h => ?_, fun visits hvisits => ?_⟩
  · rw [mem_visit, mem_ofEvents, mem_flatMap_dependentsOf]
  · simp only [names_visit, mem_flatMap_dependentsOf, ← exists_names_ofEvents_iff]
    constructor
    · rintro ⟨p, hevent | ⟨hwidened, -, hfile⟩⟩
      · exact .inl ⟨p, hevent⟩
      · exact .inr ⟨hwidened, PathSet.contains_eq_true_iff.mpr ⟨p, hfile⟩⟩
    · rintro (⟨p, hevent⟩ | ⟨hwidened, hlists⟩)
      · exact ⟨p, .inl hevent⟩
      · by_cases hevent : ∃ q, (ofEvents t events).Names name q k
        · exact hevent.imp fun q => .inl
        · obtain ⟨p, hfile⟩ := PathSet.contains_eq_true_iff.mp hlists
          exact ⟨p, .inr ⟨hwidened, not_exists.mp hevent, hfile⟩⟩
  · rw [names_visit, mem_flatMap_dependentsOf] at h
    rcases h with hevent | ⟨hwidened, -, hfile⟩
    · exact .inl hevent.of_ofEvents
    · exact .inr ⟨hwidened, hfile⟩
  · exact slices_visit_congr fun name => (hvisits name).trans mem_flatMap_dependentsOf.symm

end Work

namespace Updater

variable {u : Updater} {events : List FileEvent}

theorem tasks_start (u : Updater) (work : Work) : (u.start work).tasks =
    if work.isEmpty then u.tasks else u.tasks ++ [{ id := u.nextTask, rest := work.slices }] := by
  unfold start
  split_ifs <;> rfl

/-- The work for some changes is for the projects that have changed and for those that depend
directly on one of them. It names the files of the changes for their projects, all files of those
that depend on others, and none else, and it is the same in whatever order the dependent projects
are visited. A task is submitted for it, unless the updater has been shut down or no change belongs
to a project. -/
theorem tasks_submit {g : ProjectGraph} (hu : u.dependents = g.reverse) (events : List FileEvent) :
    let work := Work.ofChanges u.tracking u.dependents events
    Work.AsAsked u.tracking g events work ∧
    (u.submit events).tasks =
      if u.cancelled = true ∨ ∀ e ∈ events, Work.owner? u.tracking e = none then u.tasks
      else u.tasks ++ [{ id := u.nextTask, rest := work.slices }] := by
  intro work
  have hwork : Work.AsAsked u.tracking g events work := by
    simp only [work, hu]
    exact Work.asAsked_ofChanges u.tracking g events
  refine ⟨hwork, ?_⟩
  by_cases hcancelled : u.cancelled = true
  · rw [submit_of_cancelled hcancelled, if_pos (.inl hcancelled)]
  · rw [if_congr (or_iff_right hcancelled) rfl rfl]
    by_cases hevents : events = []
    · rw [hevents, submit_nil, if_pos (by simp)]
    · rw [submit_eq_start (Bool.eq_false_of_not_eq_true hcancelled) hevents, tasks_start,
        if_congr hwork.isEmpty_iff rfl rfl]

/-- Two projects depend on each other and one of them also on itself. A change in this one is work
for both, but not for a third that depends on the second. -/
theorem tasks_submit_of_cycle :
    let g : ProjectGraph := .ofList [("A", {"A", "B"}), ("B", {"A"}), ("C", {"B"})]
    let u := new {} g
    let events : List FileEvent := [⟨⟨"a/x.sym"⟩, .contentChanged, some "A"⟩]
    let work := Work.ofChanges u.tracking u.dependents events
    "A" ∈ work ∧ "B" ∈ work ∧ "C" ∉ work ∧
      (u.submit events).tasks = [{ id := 0, rest := work.slices }] := by
  intro g u events work
  obtain ⟨hwork, htasks⟩ := tasks_submit (u := u) (g := g) rfl events
  have hchanged : ∀ name, Work.Changed u.tracking events name ↔ name = "A" := by
    intro name
    simp [Work.Changed, events, Work.owner?, eq_comm]
  refine ⟨(hwork.mem_iff "A").mpr (.inl ((hchanged "A").mpr rfl)),
    (hwork.mem_iff "B").mpr (.inr ⟨"A", (hchanged "A").mpr rfl, {"A"}, rfl, by decide +kernel⟩),
    fun hthird => ?_, ?_⟩
  · rcases (hwork.mem_iff "C").mp hthird with hdirect | ⟨changed, hdirect, targets, hget, hmem⟩
    · exact absurd ((hchanged "C").mp hdirect) (by decide)
    · obtain rfl := (hchanged changed).mp hdirect
      have hthis : g["C"]? = some {"B"} := rfl
      cases hthis.symm.trans hget
      exact absurd hmem (by decide +kernel)
  · rw [htasks, if_neg]
    · rfl
    · rintro (hcancelled | hnobody)
      · cases hcancelled
      · obtain ⟨e, he, howner⟩ := (hchanged "A").mpr rfl
        rw [hnobody e he] at howner
        cases howner

/-- An updater that has been shut down submits nothing, though the change of a file that it tracks
belongs to a project. -/
theorem submit_of_tracked_after_shutdown :
    let project : Project := { name := "Outer", root := ⟨"r"⟩ }
    let u := (new {} {}).shutdown.run [.register nestedSources project]
    let e : FileEvent := ⟨⟨"r/sub/b.sym"⟩, .contentChanged, none⟩
    Work.owner? u.tracking e = some "Outer" ∧
      ¬ ((u.submit [e]).tasks = u.tasks ↔ ∀ e' ∈ [e], Work.owner? u.tracking e' = none) := by
  intro project u e
  have howner : Work.owner? u.tracking e = some "Outer" := by decide +kernel
  refine ⟨howner, fun hclaim => ?_⟩
  have hnobody := hclaim.mp (congrArg Updater.tasks (submit_of_cancelled rfl [e])) e (by simp)
  rw [howner] at hnobody
  cases hnobody

end Updater

end SymbolAtlas
