import SymbolAtlas.Proofs.TreeMap
import SymbolAtlas.Update.Work

/-!
# The work of a task

Which files the work names, and for which project a file is indexed last.
-/

namespace SymbolAtlas

namespace PathSet

variable {s : PathSet} {p q : Path} {k : Place}

theorem place_of_at? (h : s.at? k = some p) : p.place = k := s.leads k p h

theorem mem_toList : p ∈ s.toList ↔ s.at? p.place = some p := by
  rw [toList, mem_values]
  constructor
  · rintro ⟨k, hk⟩
    rw [place_of_at? hk]
    exact hk
  · intro h
    exact ⟨p.place, h⟩

theorem mem_map_place_toList : k ∈ s.toList.map Path.place ↔ ∃ p, s.at? k = some p := by
  rw [List.mem_map]
  constructor
  · rintro ⟨p, hp, rfl⟩
    exact ⟨p, mem_toList.mp hp⟩
  · rintro ⟨p, hp⟩
    refine ⟨p, mem_toList.mpr ?_, place_of_at? hp⟩
    rw [place_of_at? hp]
    exact hp

theorem nodup_map_place_toList (s : PathSet) : (s.toList.map Path.place).Nodup := by
  rw [toList, map_values_eq_keys s.paths Path.place s.leads]
  exact nodup_keys s.paths

theorem at?_add (s : PathSet) (p : Path) (k : Place) :
    (s.add p).at? k = if p.place = k then some ((s.at? k).getD p) else s.at? k := by
  unfold at? add
  rw [Std.TreeMap.getElem?_insertIfNew]
  simp only [Std.LawfulEqCmp.compare_eq_iff_eq]
  by_cases hk : p.place = k
  · subst hk
    rw [if_pos rfl]
    by_cases hold : p.place ∈ s.paths
    · rw [if_neg (by simp [hold])]
      obtain ⟨q, hq⟩ := Option.isSome_iff_exists.mp (Std.TreeMap.mem_iff_isSome_getElem?.mp hold)
      rw [hq]
      rfl
    · rw [if_pos ⟨rfl, hold⟩, Std.TreeMap.getElem?_eq_none hold]
      rfl
  · rw [if_neg hk, if_neg (by simp [hk])]

theorem at?_erase (s : PathSet) (k k' : Place) :
    (s.erase k).at? k' = if k = k' then none else s.at? k' := by
  unfold at? erase
  rw [Std.TreeMap.getElem?_erase]
  simp only [Std.LawfulEqCmp.compare_eq_iff_eq]

/-- The path of a set to which others were added is the one that was there before, if any was. -/
theorem at?_addAll (s t : PathSet) (k : Place) :
    (s.addAll t).at? k = (s.at? k).or (t.at? k) := by
  have hfold : ∀ (l : List Path) (s : PathSet),
      (l.foldl add s).at? k = (s.at? k).or (l.find? fun p => p.place = k) := by
    intro l
    induction l with
    | nil => simp
    | cons q rest ih =>
        intro s
        rw [List.foldl_cons, ih, at?_add, List.find?_cons]
        by_cases hq : q.place = k
        · cases s.at? k <;> simp [hq]
        · simp [hq]
  have hfind : t.toList.find? (fun p => p.place = k) = t.at? k := by
    cases hat : t.at? k with
    | none =>
        rw [List.find?_eq_none]
        intro p hp hk
        rw [mem_toList, of_decide_eq_true hk, hat] at hp
        cases hp
    | some p =>
        have hin : p ∈ t.toList := by rw [mem_toList, place_of_at? hat, hat]
        have hsome : (t.toList.find? fun p => p.place = k).isSome :=
          List.find?_isSome.mpr ⟨p, hin, decide_eq_true (place_of_at? hat)⟩
        obtain ⟨q, hq⟩ := Option.isSome_iff_exists.mp hsome
        have hplace : q.place = k := by simpa using List.find?_some hq
        have hmem := mem_toList.mp (List.mem_of_find?_eq_some hq)
        rw [hplace, hat] at hmem
        rw [hq, hmem]
  unfold addAll
  rw [hfold, hfind]

end PathSet

namespace Work

variable {w : Work} {project name : String} {p : Path} {k : Place}

/-- A project for which the work names the file of a place, by a path. -/
def Names (w : Work) (project : String) (p : Path) (k : Place) : Prop :=
  ∃ paths, w[project]? = some paths ∧ paths.at? k = some p

/-- The last project, in the order of the names, for which the work names a file. -/
def LastNames (w : Work) (project : String) (p : Path) (k : Place) : Prop :=
  w.Names project p k ∧ ∀ later q, compare project later = .lt → ¬ w.Names later q k

theorem mem_slices {slice : String × List Path} :
    slice ∈ w.slices ↔ ∃ paths, w[slice.1]? = some paths ∧ slice.2 = paths.toList := by
  rw [slices, List.mem_map]
  constructor
  · rintro ⟨⟨project, paths⟩, hmem, rfl⟩
    exact ⟨paths, Std.TreeMap.mem_toList_iff_getElem?_eq_some.mp hmem, rfl⟩
  · rintro ⟨paths, hget, hfiles⟩
    refine ⟨(slice.1, paths), Std.TreeMap.mem_toList_iff_getElem?_eq_some.mpr hget, ?_⟩
    exact Prod.ext rfl hfiles.symm

theorem not_mem_of_not_names (h : ∀ project p, ¬ w.Names project p k) :
    ∀ slice ∈ w.slices, k ∉ slice.2.map Path.place := by
  intro slice hslice hmem
  obtain ⟨paths, hget, hfiles⟩ := mem_slices.mp hslice
  rw [hfiles] at hmem
  obtain ⟨p, hp⟩ := PathSet.mem_map_place_toList.mp hmem
  exact h slice.1 p ⟨paths, hget, hp⟩

/-- The slices around that of the last project that names a file. -/
theorem LastNames.slices_eq (h : w.LastNames project p k) :
    ∃ front back, ∃ paths : PathSet, w.slices = front ++ (project, paths.toList) :: back ∧
      paths.at? k = some p ∧
      ∀ slice ∈ back, k ∉ slice.2.map Path.place := by
  obtain ⟨⟨paths, hget, hp⟩, hlast⟩ := h
  have hmem : (project, paths) ∈ w.toList :=
    Std.TreeMap.mem_toList_iff_getElem?_eq_some.mpr hget
  obtain ⟨front, back, hsplit⟩ := List.append_of_mem hmem
  refine ⟨front.map fun e => (e.1, e.2.toList), back.map fun e => (e.1, e.2.toList), paths,
    ?_, hp, ?_⟩
  · rw [slices, hsplit, List.map_append, List.map_cons]
  · intro slice hslice hin
    obtain ⟨⟨later, paths'⟩, hback, rfl⟩ := List.mem_map.mp hslice
    have hlater : compare project later = .lt := by
      have hordered := Std.TreeMap.ordered_keys_toList (t := w)
      rw [hsplit, List.pairwise_append, List.pairwise_cons] at hordered
      exact hordered.2.1.1 (later, paths') hback
    have hget' : w[later]? = some paths' := by
      rw [← Std.TreeMap.mem_toList_iff_getElem?_eq_some, hsplit]
      simp [hback]
    obtain ⟨q, hq⟩ := PathSet.mem_map_place_toList.mp hin
    exact hlast later q hlater ⟨paths', hget', hq⟩

/-- Of the projects that name a file one is the last. -/
theorem Names.exists_last (h : w.Names project p k) : ∃ last q, w.LastNames last q k := by
  have hkey : ∀ {project p}, w.Names project p k → project ∈ w.keys := by
    rintro project p ⟨paths, hget, -⟩
    exact mem_keys_of_getElem? hget
  obtain ⟨last, -, ⟨q, hq⟩, hlast⟩ :=
    exists_last_of_pairwise (P := fun name => ∃ q, w.Names name q k) Std.TreeMap.ordered_keys
      (hkey h) ⟨p, h⟩
  refine ⟨last, q, hq, fun later q' hlater hnames => ?_⟩
  exact hlast later (hkey hnames) hlater ⟨q', hnames⟩

/-! ## The work for some changes -/

theorem getElem?_add (w : Work) (project name : String) (paths : PathSet) :
    (w.add project paths)[name]? =
      if project = name then some (((w[name]?).getD {}).addAll paths) else w[name]? := by
  unfold add
  rw [Std.TreeMap.getElem?_alter]
  simp only [Std.LawfulEqCmp.compare_eq_iff_eq]
  split_ifs with hname
  · rw [hname]
  · rfl

/-- Work names what it did before, and what was added under no other spelling. -/
theorem names_add {paths : PathSet} : (w.add project paths).Names name p k ↔
    w.Names name p k ∨
      name = project ∧ (∀ q, ¬ w.Names name q k) ∧ paths.at? k = some p := by
  unfold Names
  rw [getElem?_add]
  split_ifs with hname
  · have hold : (((w[name]?).getD {}).addAll paths).at? k =
        ((w[name]?).bind fun old => old.at? k).or (paths.at? k) := by
      rw [PathSet.at?_addAll]
      cases w[name]? <;> rfl
    have hnames : ∀ q, (∃ old, w[name]? = some old ∧ old.at? k = some q) ↔
        (w[name]?).bind (fun old => old.at? k) = some q := fun q => Option.bind_eq_some_iff.symm
    simp only [hnames, Option.some.injEq, exists_eq_left', hold, hname, true_and]
    cases (w[name]?).bind fun old => old.at? k <;> simp
  · simp [Ne.symm hname]

theorem Names.add (h : w.Names name p k) (project : String) (paths : PathSet) :
    (w.add project paths).Names name p k := names_add.mpr (.inl h)

theorem Names.of_add {paths : PathSet} (h : (w.add project paths).Names name p k) :
    w.Names name p k ∨ (name = project ∧ paths.at? k = some p) :=
  (names_add.mp h).imp_right fun hnew => ⟨hnew.1, hnew.2.2⟩

theorem exists_names_add_self (w : Work) (project : String) {paths : PathSet}
    (h : paths.at? k = some p) : ∃ q, (w.add project paths).Names project q k := by
  by_cases hold : ∃ q, w.Names project q k
  · exact hold.imp fun q hq => hq.add project paths
  · exact ⟨p, names_add.mpr (.inr ⟨rfl, not_exists.mp hold, h⟩)⟩

/-- The places for which the work names a file. -/
def Covers (w : Work) (k : Place) : Prop := ∃ project p, w.Names project p k

variable {t : Tracking} {events : List FileEvent} {dependents : ProjectGraph}

/-- The project that the file of an event is indexed for: the one that the event tells, or else the
one that the file belongs to. -/
def owner? (t : Tracking) (e : FileEvent) : Option String :=
  e.project.orElse fun _ => t.projectOf? e.path

theorem owner?_of_project {e : FileEvent} (he : e.project = some project) :
    owner? t e = some project := by
  unfold owner?
  rw [he]
  rfl

theorem ofEvents_concat {e : FileEvent} (he : owner? t e = some project) :
    ofEvents t (events ++ [e]) = (ofEvents t events).add project (PathSet.add {} e.path) := by
  unfold owner? at he
  unfold ofEvents
  rw [List.foldl_append, List.foldl_cons, List.foldl_nil, he]

theorem ofEvents_concat_of_none {e : FileEvent} (he : owner? t e = none) :
    ofEvents t (events ++ [e]) = ofEvents t events := by
  unfold owner? at he
  unfold ofEvents
  rw [List.foldl_append, List.foldl_cons, List.foldl_nil, he]

theorem at?_singleton_eq_some {q : Path} (h : (PathSet.add {} q).at? k = some p) :
    p = q ∧ q.place = k := by
  rw [PathSet.at?_add] at h
  split_ifs at h with hk
  · exact ⟨(Option.some.inj h).symm, hk⟩
  · simp [PathSet.at?] at h

/-- The work names files of the events only, each for its project. -/
theorem Names.of_ofEvents (h : (ofEvents t events).Names name p k) :
    ∃ e ∈ events, owner? t e = some name ∧ e.path = p := by
  induction events using List.reverseRecOn with
  | nil =>
      obtain ⟨paths, hget, -⟩ := h
      change ({} : Work)[name]? = some paths at hget
      simp at hget
  | append_singleton events e ih =>
      have hearlier : (ofEvents t events).Names name p k →
          ∃ e' ∈ events ++ [e], owner? t e' = some name ∧ e'.path = p := fun hold => by
        obtain ⟨e', he', hname⟩ := ih hold
        exact ⟨e', List.mem_append_left [e] he', hname⟩
      cases howner : owner? t e with
      | none =>
          rw [ofEvents_concat_of_none howner] at h
          exact hearlier h
      | some project =>
          rw [ofEvents_concat howner] at h
          rcases h.of_add with hold | ⟨rfl, hnew⟩
          · exact hearlier hold
          · exact ⟨e, by simp, howner, (at?_singleton_eq_some hnew).1.symm⟩

theorem exists_names_ofEvents {e : FileEvent} (hmem : e ∈ events)
    (howner : owner? t e = some project) :
    ∃ q, (ofEvents t events).Names project q e.path.place := by
  induction events using List.reverseRecOn with
  | nil => simp at hmem
  | append_singleton events e' ih =>
      cases howner' : owner? t e' with
      | none =>
          rw [ofEvents_concat_of_none howner']
          rcases List.mem_append.mp hmem with hin | hin
          · exact ih hin
          · rw [List.mem_singleton.mp hin, howner'] at howner
            cases howner
      | some project' =>
          rw [ofEvents_concat howner']
          rcases List.mem_append.mp hmem with hin | hin
          · exact (ih hin).imp fun q hq => hq.add project' _
          · obtain rfl := List.mem_singleton.mp hin
            cases howner.symm.trans howner'
            apply exists_names_add_self
            rw [PathSet.at?_add, if_pos rfl]

theorem Names.of_foldl_add {projects : List String}
    (h : (projects.foldl (fun w project => w.add project (t.filesOf project)) w).Names name p k) :
    w.Names name p k ∨ (t.filesOf name).at? k = some p := by
  induction projects generalizing w with
  | nil => exact .inl h
  | cons project rest ih =>
      rcases ih h with hadd | hfiles
      · rcases hadd.of_add with hold | ⟨rfl, hnew⟩
        · exact .inl hold
        · exact .inr hnew
      · exact .inr hfiles

theorem Names.foldl_add {projects : List String} (h : w.Names name p k) :
    (projects.foldl (fun w project => w.add project (t.filesOf project)) w).Names name p k := by
  induction projects generalizing w with
  | nil => exact h
  | cons project rest ih => exact ih (h.add project (t.filesOf project))

/-- Where all events tell their projects, the work names their files and those of dependent
projects. -/
theorem Names.of_ofChanges (he : ∀ e ∈ events, ∃ project, e.project = some project)
    (h : (ofChanges t dependents events).Names name p k) :
    (∃ e ∈ events, e.project = some name ∧ e.path = p) ∨ (t.filesOf name).at? k = some p := by
  rcases Names.of_foldl_add h with hevents | hfiles
  · obtain ⟨e, hmem, howner, hpath⟩ := hevents.of_ofEvents
    obtain ⟨project, hproject⟩ := he e hmem
    rw [owner?_of_project hproject] at howner
    exact .inl ⟨e, hmem, hproject.trans howner, hpath⟩
  · exact .inr hfiles

/-- The work names the file of an event for its project. -/
theorem exists_names_ofChanges {e : FileEvent} (hmem : e ∈ events)
    (howner : owner? t e = some project) :
    ∃ q, (ofChanges t dependents events).Names project q e.path.place :=
  (exists_names_ofEvents hmem howner).imp fun _ hq => hq.foldl_add

theorem covers_ofChanges {e : FileEvent} (hmem : e ∈ events) (howner : (owner? t e).isSome) :
    (ofChanges t dependents events).Covers e.path.place := by
  obtain ⟨project, hproject⟩ := Option.isSome_iff_exists.mp howner
  exact ⟨project, exists_names_ofChanges hmem hproject⟩

theorem Covers.exists_mem_slices (h : w.Covers k) :
    ∃ slice ∈ w.slices, k ∈ slice.2.map Path.place := by
  obtain ⟨project, p, paths, hget, hp⟩ := h
  refine ⟨(project, paths.toList), mem_slices.mpr ⟨paths, hget, rfl⟩, ?_⟩
  exact PathSet.mem_map_place_toList.mpr ⟨p, hp⟩

theorem Covers.not_isEmpty (h : w.Covers k) : ¬ w.isEmpty := by
  obtain ⟨slice, hslice, -⟩ := h.exists_mem_slices
  intro hempty
  rw [slices, List.isEmpty_iff.mp (Std.TreeMap.isEmpty_toList.trans hempty)] at hslice
  simp at hslice

theorem names_of_mem_slices {slice : String × List Path} (hslice : slice ∈ w.slices) {q : Path}
    (hq : q ∈ slice.2) : w.Names slice.1 q q.place := by
  obtain ⟨paths, hget, hfiles⟩ := mem_slices.mp hslice
  rw [hfiles] at hq
  exact ⟨paths, hget, PathSet.mem_toList.mp hq⟩

theorem nodup_of_mem_slices {slice : String × List Path} (hslice : slice ∈ w.slices) :
    (slice.2.map Path.place).Nodup := by
  obtain ⟨paths, -, hfiles⟩ := mem_slices.mp hslice
  rw [hfiles]
  exact paths.nodup_map_place_toList

end Work

end SymbolAtlas
