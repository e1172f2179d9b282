import SymbolAtlas.Proofs.Update.Attribution

/-!
# How files are discovered

A file comes to an owner in one of three ways. A project that is registered takes every file that it
finds. When new files are looked for, the first project by name takes a file that several have. And
a file that is reported goes to the project with the deepest root around it. Where roots are nested
the three do not agree.
-/

namespace SymbolAtlas

namespace Tracking

/-- Whether a project is registered and its root is around a place. -/
def Encloses (t : Tracking) (k : Place) (p : Project) : Prop :=
  t.projects[p.name]? = some p ∧ p.root.place <+: k

/-- Whether a project has the deepest root around a place. Of equally deep ones the last by name
counts. -/
def Deepest (t : Tracking) (k : Place) (p : Project) : Prop :=
  t.Encloses k p ∧ ∀ q, t.Encloses k q →
    q.root.place.length < p.root.place.length ∨
      q.root.place.length = p.root.place.length ∧ (compare q.name p.name).isLE

/-- Whether a project is the first by name of the registered ones with some property. -/
def FirstWith (t : Tracking) (P : Project → Prop) (p : Project) : Prop :=
  t.projects[p.name]? = some p ∧ P p ∧
    ∀ q, t.projects[q.name]? = some q → P q → (compare p.name q.name).isLE

/-- Whether a file is owned by the project with the deepest root around it. -/
def OwnedByDeepest (t : Tracking) (k : Place) : Prop :=
  ∃ p, t.Deepest k p ∧ t.owners[k]? = some p.name

/-- Tracking that keeps projects by their names and files by their places. -/
structure Keyed (t : Tracking) : Prop where
  projects : ∀ (name : String) p, t.projects[name]? = some p → p.name = name
  seen : ∀ (k : Place) e, t.seen[k]? = some e → e.1.place = k

variable {t u : Tracking} {p q : Project} {k : Place} {f : Path} {s : Sources} {name : String}

/-! ## The deepest and the first -/

theorem Keyed.mem_values_iff (h : t.Keyed) :
    p ∈ t.projects.values ↔ t.projects[p.name]? = some p := by
  rw [mem_values]
  refine ⟨fun ⟨name, hname⟩ => ?_, fun hp => ⟨p.name, hp⟩⟩
  rw [h.projects name p hname]
  exact hname

theorem Keyed.pairwise_values (h : t.Keyed) :
    t.projects.values.Pairwise fun a b => compare a.name b.name = .lt := by
  have hkeys := Std.TreeMap.ordered_keys (t := t.projects)
  rw [← map_values_eq_keys t.projects Project.name h.projects, List.pairwise_map] at hkeys
  exact hkeys

/-- Of projects one after the other the deepest is kept, and of equally deep ones the last. -/
theorem foldl_deeper_split (first : Project) (rest : List Project) :
    ∃ before after, first :: rest = before ++ rest.foldl deeper first :: after ∧
      (∀ q ∈ before,
        q.root.place.length ≤ (rest.foldl deeper first).root.place.length) ∧
      ∀ q ∈ after, q.root.place.length < (rest.foldl deeper first).root.place.length := by
  induction rest using List.reverseRecOn with
  | nil => exact ⟨[], [], rfl, by simp, by simp⟩
  | append_singleton rest p ih =>
      obtain ⟨before, after, hsplit, hbefore, hafter⟩ := ih
      rw [List.foldl_append, List.foldl_cons, List.foldl_nil, ← List.cons_append, hsplit]
      generalize rest.foldl deeper first = kept at hbefore hafter ⊢
      unfold deeper
      split_ifs with hless
      · refine ⟨before, after ++ [p], by simp, hbefore, fun q hq => ?_⟩
        rcases List.mem_append.mp hq with hq | hq
        · exact hafter q hq
        · rw [List.mem_singleton.mp hq]
          exact hless
      · refine ⟨before ++ kept :: after, [], rfl, fun q hq => ?_, by simp⟩
        have hkept := Nat.le_of_not_lt hless
        rcases List.mem_append.mp hq with hq | hq
        · exact (hbefore q hq).trans hkept
        · rcases List.mem_cons.mp hq with rfl | hq
          · exact hkept
          · exact (hafter q hq).le.trans hkept

theorem Keyed.mem_filter_startsWith (h : t.Keyed) :
    p ∈ t.projects.values.filter (fun q => f.startsWith q.root) ↔ t.Encloses f.place p := by
  unfold Path.startsWith
  rw [List.mem_filter, h.mem_values_iff, List.isPrefixOf_iff_prefix]
  rfl

theorem Keyed.deepest_of_around? (h : t.Keyed) (haround : t.around? f = some p) :
    t.Deepest f.place p := by
  unfold around? at haround
  split at haround
  · cases haround
  next first rest hfilter =>
    obtain ⟨before, after, hsplit, hbefore, hafter⟩ := foldl_deeper_split first rest
    rw [Option.some.inj haround, ← hfilter] at hsplit
    rw [Option.some.inj haround] at hbefore hafter
    have hordered := h.pairwise_values.filter fun q => f.startsWith q.root
    rw [hsplit, List.pairwise_append] at hordered
    refine ⟨h.mem_filter_startsWith.mp (by rw [hsplit]; simp), fun q hq => ?_⟩
    have hmem := h.mem_filter_startsWith.mpr hq
    rw [hsplit, List.mem_append, List.mem_cons] at hmem
    rcases hmem with hmem | rfl | hmem
    · have hname : compare q.name p.name = .lt :=
        hordered.2.2 q hmem p List.mem_cons_self
      rcases Nat.lt_or_eq_of_le (hbefore q hmem) with hless | heq
      · exact .inl hless
      · exact .inr ⟨heq, by rw [hname]; rfl⟩
    · exact .inr ⟨rfl, by rw [Std.ReflOrd.compare_self]; rfl⟩
    · exact .inl (hafter q hmem)

/-- Only one project is the deepest around a place. -/
theorem Deepest.eq (hp : t.Deepest k p) (hq : t.Deepest k q) : p = q := by
  have hname : p.name = q.name := by
    -- Neither root can be deeper than the other, so the names decide both ways.
    rcases hp.2 q hq.1 with hless | ⟨hlength, hqp⟩
    · have := hq.2 p hp.1
      omega
    rcases hq.2 p hp.1 with hless | ⟨-, hpq⟩
    · omega
    exact Std.LawfulEqCmp.compare_eq_iff_eq.mp (Std.OrientedCmp.isLE_antisymm hpq hqp)
  have hregistered := hp.1.1
  rw [hname, hq.1.1] at hregistered
  exact (Option.some.inj hregistered).symm

theorem Keyed.exists_deepest (h : t.Keyed) (hq : t.Encloses f.place q) :
    ∃ p, t.around? f = some p ∧ t.Deepest f.place p := by
  cases haround : t.around? f with
  | some p => exact ⟨p, rfl, h.deepest_of_around? haround⟩
  | none =>
      have hmem := h.mem_filter_startsWith.mpr hq
      unfold around? at haround
      split at haround
      · next hfilter =>
        rw [hfilter] at hmem
        cases hmem
      · cases haround

theorem Keyed.around?_eq_some_iff (h : t.Keyed) :
    t.around? f = some p ↔ t.Deepest f.place p := by
  refine ⟨h.deepest_of_around?, fun hp => ?_⟩
  obtain ⟨q, haround, hq⟩ := h.exists_deepest hp.1
  rw [haround, hp.eq hq]

/-- Going through the projects one finds something at the first by name that has it. -/
theorem Keyed.findSome?_values (h : t.Keyed) {α : Type} (g : Project → Option α) (a : α) :
    t.projects.values.findSome? g = some a ↔
      ∃ p, t.FirstWith (fun q => g q ≠ none) p ∧ g p = some a := by
  rw [List.findSome?_eq_some_iff]
  constructor
  · rintro ⟨before, p, after, hsplit, hp, hbefore⟩
    have hordered := h.pairwise_values
    rw [hsplit, List.pairwise_append, List.pairwise_cons] at hordered
    have hregistered : p ∈ t.projects.values := by
      rw [hsplit]
      exact List.mem_append_right _ List.mem_cons_self
    refine ⟨p, ⟨h.mem_values_iff.mp hregistered, by simp [hp], fun q hq hg => ?_⟩, hp⟩
    have hmem := h.mem_values_iff.mpr hq
    rw [hsplit, List.mem_append, List.mem_cons] at hmem
    rcases hmem with hmem | rfl | hmem
    · exact absurd (hbefore q hmem) hg
    · rw [Std.ReflOrd.compare_self]
      rfl
    · rw [hordered.2.1.1 q hmem]
      rfl
  · rintro ⟨p, ⟨hregistered, -, hfirst⟩, hp⟩
    obtain ⟨before, after, hsplit⟩ := List.append_of_mem (h.mem_values_iff.mpr hregistered)
    have hordered := h.pairwise_values
    rw [hsplit, List.pairwise_append] at hordered
    refine ⟨before, p, after, hsplit, hp, fun q hq => ?_⟩
    by_contra hg
    have hmem : q ∈ t.projects.values := by
      rw [hsplit]
      exact List.mem_append_left _ hq
    have hle := hfirst q (h.mem_values_iff.mp hmem) hg
    rw [Std.OrientedCmp.gt_of_lt (hordered.2.2 q hq p List.mem_cons_self)] at hle
    cases hle

theorem deepest_congr (hprojects : u.projects = t.projects) : u.Deepest k p ↔ t.Deepest k p := by
  unfold Deepest Encloses
  rw [hprojects]

/-- A registered project that owns a file is the one that counts. -/
theorem ownedByDeepest_iff (hregistered : t.projects[p.name]? = some p)
    (howner : t.owners[k]? = some p.name) : t.OwnedByDeepest k ↔ t.Deepest k p := by
  refine ⟨fun ⟨q, hq, howner'⟩ => ?_, fun hp => ⟨p, hp, howner⟩⟩
  have hregistered' := hq.1.1
  rw [← Option.some.inj (howner.symm.trans howner'), hregistered] at hregistered'
  rw [Option.some.inj hregistered']
  exact hq

theorem FirstWith.congr {P Q : Project → Prop}
    (hPQ : ∀ q, t.projects[q.name]? = some q → (P q ↔ Q q)) :
    t.FirstWith P p ↔ t.FirstWith Q p := by
  unfold FirstWith
  constructor
  · rintro ⟨hregistered, hp, hfirst⟩
    exact ⟨hregistered, (hPQ p hregistered).mp hp, fun q hq hQ => hfirst q hq ((hPQ q hq).mpr hQ)⟩
  · rintro ⟨hregistered, hp, hfirst⟩
    exact ⟨hregistered, (hPQ p hregistered).mpr hp, fun q hq hP => hfirst q hq ((hPQ q hq).mp hP)⟩

theorem Keyed.exists_firstWith (h : t.Keyed) {P : Project → Prop}
    (hq : t.projects[q.name]? = some q) (hP : P q) : ∃ p, t.FirstWith P p := by
  classical
  have hsome : (t.projects.values.findSome? fun p => if P p then some () else none) = some () := by
    have hne : (t.projects.values.findSome? fun p => if P p then some () else none) ≠ none := by
      rw [ne_eq, List.findSome?_eq_none_iff]
      exact fun hnone => by simpa [hP] using hnone q (h.mem_values_iff.mpr hq)
    obtain ⟨⟨⟩, hunit⟩ := Option.ne_none_iff_exists'.mp hne
    exact hunit
  obtain ⟨p, hp, -⟩ := (h.findSome?_values _ ()).mp hsome
  exact ⟨p, (FirstWith.congr fun q _ => by simp).mp hp⟩

/-! ## Keys -/

theorem keyed_empty : Keyed {} where
  projects := by simp
  seen := by simp

theorem Keyed.see (h : t.Keyed) (f : Path) (look : Fingerprint) : (t.see f look).Keyed := by
  refine ⟨h.projects, fun k e he => ?_⟩
  rw [getElem?_seen_see] at he
  split_ifs at he with hk
  · cases hold : t.seen[k]? with
    | none =>
        rw [hold] at he
        cases he
        exact hk
    | some old =>
        rw [hold] at he
        cases he
        exact h.seen k old hold
  · exact h.seen k e he

theorem Keyed.track (h : t.Keyed) (f : Path) (project : String) (look : Fingerprint) :
    (t.track f project look).Keyed :=
  ⟨h.projects, (h.see f look).seen⟩

theorem Keyed.untrack (h : t.Keyed) (f : Path) : (t.untrack f).Keyed := by
  refine ⟨h.projects, fun k e he => ?_⟩
  change (t.seen.erase f.place)[k]? = some e at he
  rw [Std.TreeMap.getElem?_erase] at he
  split_ifs at he
  exact h.seen k e he

theorem Keyed.insert (h : t.Keyed) (p : Project) :
    ({ t with projects := t.projects.insert p.name p } : Tracking).Keyed := by
  refine ⟨fun name q hq => ?_, h.seen⟩
  change (t.projects.insert p.name p)[name]? = some q at hq
  rw [Std.TreeMap.getElem?_insert] at hq
  split_ifs at hq with hname
  · cases hq
    exact Std.LawfulEqCmp.compare_eq_iff_eq.mp hname
  · exact h.projects name q hq

theorem Keyed.trackAll (h : t.Keyed) (project : String) (found : List (Path × Fingerprint)) :
    (t.trackAll project found).Keyed := by
  induction found generalizing t with
  | nil => exact h
  | cons e rest ih => exact ih (h.track e.1 project e.2)

theorem projects_trackAll (t : Tracking) (project : String) (found : List (Path × Fingerprint)) :
    (t.trackAll project found).projects = t.projects := by
  induction found generalizing t with
  | nil => rfl
  | cons e rest ih => exact ih (t.track e.1 project e.2)

theorem Keyed.notice (h : t.Keyed) (s : Sources) (f : Path) (c : Change) :
    (t.notice s f c).2.Keyed ∧ (t.notice s f c).2.projects = t.projects := by
  unfold Tracking.notice
  cases c with
  | deleted => exact ⟨h.untrack f, rfl⟩
  | created | contentChanged =>
      dsimp only
      cases s.fingerprint f with
      | error e => exact ⟨h, rfl⟩
      | ok look =>
          cases t.projectOf? f with
          | none => exact ⟨h.see f look, rfl⟩
          | some owner => exact ⟨h.track f owner look, rfl⟩

theorem Keyed.survey (h : t.Keyed) (s : Sources) (scan : Bool) :
    (t.survey s scan).2.Keyed ∧ (t.survey s scan).2.projects = t.projects :=
  survey_induction (motive := fun u => u.Keyed ∧ u.projects = t.projects)
    (fun _ f hu => ⟨hu.1.untrack f, hu.2⟩) (fun _ f look hu => ⟨hu.1.see f look, hu.2⟩)
    (fun _ f project look _ hu => ⟨hu.1.track f project look, hu.2⟩) ⟨h, rfl⟩ s scan

end Tracking

/-- Whether a project has a source file at a place that looking for new files can find. -/
def Sources.Offers (s : Sources) (p : Project) (k : Place) : Prop :=
  ∃ files, s.list p = .ok files ∧
    ∃ f ∈ files, f.place = k ∧ s.isSource f = true ∧ ∃ look, s.fingerprint f = .ok look

namespace Tracking

variable {t : Tracking} {p q : Project} {k : Place} {f : Path} {s : Sources} {name : String}

/-! ## Looking for new files -/

/-- The new files of one project. -/
def newFiles (t : Tracking) (s : Sources) (p : Project) : List (Path × String × Fingerprint) :=
  match s.list p with
  | .error _ => []
  | .ok files => files.filterMap fun f =>
    if t.seen.contains f.place || !s.isSource f then none
    else match s.fingerprint f with
      | .ok look => some (f, p.name, look)
      | .error _ => none

theorem appeared_eq (t : Tracking) (s : Sources) :
    t.appeared s = t.projects.values.flatMap (t.newFiles s) := rfl

theorem mem_newFiles {e : Path × String × Fingerprint} :
    e ∈ t.newFiles s p ↔ e.2.1 = p.name ∧ ∃ files, s.list p = .ok files ∧ e.1 ∈ files ∧
      e.1.place ∉ t.seen ∧ s.isSource e.1 = true ∧ s.fingerprint e.1 = .ok e.2.2 := by
  unfold newFiles
  cases hlist : s.list p with
  | error message => simp
  | ok files =>
      simp only [List.mem_filterMap, Except.ok.injEq, exists_eq_left']
      constructor
      · rintro ⟨f, hf, hsome⟩
        split_ifs at hsome with hskip
        rw [Bool.or_eq_true, not_or, Bool.not_eq_true', Bool.not_eq_false,
          ← Std.TreeMap.mem_iff_contains] at hskip
        split at hsome
        · next look hlook =>
          cases hsome
          exact ⟨rfl, hf, hskip.1, hskip.2, hlook⟩
        · cases hsome
      · rintro ⟨hname, hf, hseen, hsource, hlook⟩
        refine ⟨e.1, hf, ?_⟩
        rw [if_neg, hlook, ← hname]
        rw [Bool.or_eq_true, not_or, Bool.not_eq_true', Bool.not_eq_false,
          ← Std.TreeMap.mem_iff_contains]
        exact ⟨hseen, hsource⟩

/-- A project has a new file at an untracked place just when it offers one. -/
theorem find?_newFiles_ne_none (hk : k ∉ t.seen) :
    (t.newFiles s p).find? (fun e => e.1.place = k) ≠ none ↔ s.Offers p k := by
  rw [← Option.isSome_iff_ne_none, List.find?_isSome]
  constructor
  · rintro ⟨e, he, hplace⟩
    obtain ⟨-, files, hlist, hf, -, hsource, hlook⟩ := mem_newFiles.mp he
    exact ⟨files, hlist, e.1, hf, of_decide_eq_true hplace, hsource, e.2.2, hlook⟩
  · rintro ⟨files, hlist, f, hf, rfl, hsource, look, hlook⟩
    exact ⟨(f, p.name, look), mem_newFiles.mpr ⟨rfl, files, hlist, hf, hk, hsource, hlook⟩,
      decide_eq_true rfl⟩

/-- The first new file at a place is of the first project by name that offers one. -/
theorem Keyed.find?_appeared (h : t.Keyed) (hk : k ∉ t.seen) :
    ((t.appeared s).find? fun e => e.1.place = k).map (fun e => e.2.1) = some name ↔
      ∃ p, t.FirstWith (s.Offers · k) p ∧ p.name = name := by
  have hfirst : ∀ p, t.FirstWith
        (fun q => (t.newFiles s q).find? (fun e => e.1.place = k) ≠ none) p ↔
      t.FirstWith (s.Offers · k) p :=
    fun p => FirstWith.congr fun q _ => find?_newFiles_ne_none hk
  have hname : ∀ p e, (t.newFiles s p).find? (fun e => e.1.place = k) = some e →
      e.2.1 = p.name :=
    fun p e he => (mem_newFiles.mp (List.mem_of_find?_eq_some he)).1
  rw [appeared_eq, List.find?_flatMap, Option.map_eq_some_iff]
  constructor
  · rintro ⟨e, he, rfl⟩
    obtain ⟨p, hp, hfind⟩ := (h.findSome?_values _ e).mp he
    exact ⟨p, (hfirst p).mp hp, (hname p e hfind).symm⟩
  · rintro ⟨p, hp, rfl⟩
    have hp' := (hfirst p).mpr hp
    obtain ⟨e, hfind⟩ := Option.ne_none_iff_exists'.mp hp'.2.1
    exact ⟨e, (h.findSome?_values _ e).mpr ⟨p, hp', hfind⟩, hname p e hfind⟩

/-- Of new files the first at a place is tracked, unless there is one already. -/
theorem getElem?_owners_noteAppeared (t : Tracking) (xs : List (Path × String × Fingerprint))
    (k : Place) :
    (noteEach (fun t e => t.noteAppeared e.1 e.2.1 e.2.2) t xs).2.owners[k]? =
      if k ∈ t.seen then t.owners[k]?
      else ((xs.find? fun e => e.1.place = k).map fun e => e.2.1).or t.owners[k]? := by
  -- Once a new file at the place is tracked, the remaining ones meet a place that is taken.
  rw [snd_noteEach]
  induction xs generalizing t with
  | nil => exact (ite_self _).symm
  | cons e rest ih =>
      rw [List.foldl_cons, ih]
      unfold noteAppeared
      by_cases hseen : t.seen.contains e.1.place = true
      · rw [if_pos hseen]
        split_ifs with hk
        · rfl
        · rw [List.find?_cons_of_neg]
          intro hplace
          rw [← of_decide_eq_true hplace, Std.TreeMap.mem_iff_contains] at hk
          exact hk hseen
      · rw [if_neg hseen]
        have hmem : k ∈ (t.track e.1 e.2.1 e.2.2).seen ↔ e.1.place = k ∨ k ∈ t.seen := mem_seen_see
        dsimp only
        rw [getElem?_owners_track]
        by_cases hplace : e.1.place = k
        · rw [if_pos (hmem.mpr (.inl hplace)), if_pos hplace, if_neg,
            List.find?_cons_of_pos (by simpa using hplace)]
          · rfl
          · rw [← hplace]
            exact hseen
        · rw [if_neg hplace, List.find?_cons_of_neg (by simpa using hplace)]
          simp only [hmem, hplace, false_or]

/-- What is tracked once the files that are gone and those that look different are taken in. -/
def refresh (t : Tracking) (s : Sources) : Tracking :=
  (noteEach (fun t (e : Path × Fingerprint) => (t.noteAltered e.1 e.2).map some id)
    (noteEach (fun t p => (t.noteGone p).map some id) t (t.gone s)).2 (t.altered s)).2

theorem snd_survey (t : Tracking) (s : Sources) (scan : Bool) :
    (t.survey s scan).2 =
      (noteEach (fun t (e : Path × String × Fingerprint) => t.noteAppeared e.1 e.2.1 e.2.2)
        (t.refresh s) (if scan then t.appeared s else [])).2 := rfl

theorem Keyed.mem_seen_of_mem_altered (h : t.Keyed) {e : Path × Fingerprint}
    (he : e ∈ t.altered s) : e.1.place ∈ t.seen := by
  unfold altered at he
  obtain ⟨⟨f, old⟩, hvalue, hsome⟩ := List.mem_filterMap.mp he
  obtain ⟨k, hk⟩ := (mem_values t.seen (f, old)).mp hvalue
  have hf : e.1 = f := by
    dsimp only at hsome
    split at hsome
    · split_ifs at hsome
      cases hsome
      rfl
    · cases hsome
  rw [hf, h.seen k (f, old) hk, Std.TreeMap.mem_iff_isSome_getElem?, hk]
  rfl

/-- Taking in what is gone and what looks different tracks no other files. -/
theorem Keyed.mem_seen_of_refresh (h : t.Keyed) (hk : k ∈ (t.refresh s).seen) : k ∈ t.seen := by
  revert hk
  unfold refresh
  -- The second pass sees files again that were tracked at the start, so it needs to know its list.
  rw [snd_noteEach]
  refine List.foldlRecOn (motive := fun (u : Tracking) => k ∈ u.seen → k ∈ t.seen) _ _ ?_
    fun u hu e he hk => ?_
  · exact noteEach_induction (motive := fun u => k ∈ u.seen → k ∈ t.seen)
      (fun u f hu hk => hu (mem_seen_untrack.mp hk).2) id _
  · rcases mem_seen_see.mp hk with rfl | hk
    · exact h.mem_seen_of_mem_altered he
    · exact hu hk

/-- Taking in what is gone and what looks different gives nobody a file. -/
theorem owners_of_refresh (howner : (t.refresh s).owners[k]? = some name) :
    t.owners[k]? = some name := by
  revert howner
  unfold refresh
  apply noteEach_induction (motive := fun u => u.owners[k]? = some name → t.owners[k]? = some name)
  · exact fun u e hu => hu
  refine noteEach_induction (motive := fun u => u.owners[k]? = some name → t.owners[k]? = some name)
    (fun u f hu howner => ?_) id _
  change (u.untrack f).owners[k]? = some name at howner
  rw [getElem?_owners_untrack] at howner
  split_ifs at howner
  exact hu howner

/-- A new file is given to the first project by name that offers it. -/
theorem Keyed.owner_survey (h : t.Keyed) (hk : k ∉ t.seen) (hp : t.FirstWith (s.Offers · k) p) :
    (t.survey s true).2.owners[k]? = some p.name := by
  rw [snd_survey, getElem?_owners_noteAppeared, if_neg fun hmem => hk (h.mem_seen_of_refresh hmem),
    if_pos rfl, (h.find?_appeared hk).mpr ⟨p, hp, rfl⟩]
  rfl

theorem Keyed.owner_survey_cases (h : t.Keyed) {scan : Bool}
    (howner : (t.survey s scan).2.owners[k]? = some name) :
    t.owners[k]? = some name ∨
      scan = true ∧ k ∉ t.seen ∧ ∃ p, t.FirstWith (s.Offers · k) p ∧ p.name = name := by
  rw [snd_survey, getElem?_owners_noteAppeared] at howner
  split_ifs at howner with hseen hscan
  · exact .inl (owners_of_refresh howner)
  · rcases Option.or_eq_some_iff.mp howner with hnew | ⟨-, hold⟩
    · have hk : k ∉ t.seen := by
        obtain ⟨e, he, -⟩ := Option.map_eq_some_iff.mp hnew
        have hplace : e.1.place = k := by simpa using List.find?_some he
        rw [appeared_eq] at he
        obtain ⟨p, -, hmem⟩ := List.mem_flatMap.mp (List.mem_of_find?_eq_some he)
        obtain ⟨-, files, -, -, hseen, -⟩ := mem_newFiles.mp hmem
        rwa [hplace] at hseen
      exact .inr ⟨hscan, hk, (h.find?_appeared hk).mp hnew⟩
    · exact .inl (owners_of_refresh hold)
  · exact .inl (owners_of_refresh howner)

/-! ## Reports -/

/-- A file that has no owner goes to the deepest project around it when it is reported. -/
theorem Keyed.owner_notice (h : t.Keyed) {c : Change} (hsees : s.Sees f c)
    (hnone : t.owners[f.place]? = none) (hp : t.Deepest f.place p) :
    (t.notice s f c).2.owners[f.place]? = some p.name := by
  have hproject : t.projectOf? f = some p.name := by
    unfold projectOf?
    rw [hnone, h.around?_eq_some_iff.mpr hp]
    rfl
  obtain ⟨hchange, look, hlook⟩ := hsees
  unfold Tracking.notice
  cases c with
  | deleted => exact absurd rfl hchange
  | created | contentChanged =>
      dsimp only
      rw [hlook, hproject]
      exact getElem?_owners_track.trans (if_pos rfl)

/-- A file is taken for one of its owner, or else of the deepest project around it. -/
theorem Keyed.projectOf?_eq_some (h : t.Keyed) (hproject : t.projectOf? f = some name) :
    t.owners[f.place]? = some name ∨
      t.owners[f.place]? = none ∧ ∃ p, t.Deepest f.place p ∧ p.name = name := by
  unfold projectOf? at hproject
  cases howner : t.owners[f.place]? with
  | some owner =>
      rw [howner] at hproject
      exact .inl hproject
  | none =>
      rw [howner] at hproject
      obtain ⟨p, haround, hname⟩ := Option.map_eq_some_iff.mp hproject
      exact .inr ⟨rfl, p, h.deepest_of_around? haround, hname⟩

theorem Keyed.owner_notice_cases (h : t.Keyed) {c : Change}
    (howner : (t.notice s f c).2.owners[k]? = some name) :
    t.owners[k]? = some name ∨ f.place = k ∧ s.Sees f c ∧ t.owners[k]? = none ∧
      ∃ p, t.Deepest k p ∧ p.name = name := by
  unfold Tracking.notice at howner
  cases c with
  | deleted =>
      change (t.untrack f).owners[k]? = some name at howner
      rw [getElem?_owners_untrack] at howner
      split_ifs at howner
      exact .inl howner
  | created | contentChanged =>
      dsimp only at howner
      cases hlook : s.fingerprint f with
      | error e =>
          rw [hlook] at howner
          exact .inl howner
      | ok look =>
          rw [hlook] at howner
          cases hproject : t.projectOf? f with
          | none =>
              rw [hproject] at howner
              exact .inl howner
          | some owner =>
              rw [hproject] at howner
              dsimp only at howner
              rw [getElem?_owners_track] at howner
              split_ifs at howner with hplace
              · subst hplace
                rw [Option.some.inj howner] at hproject
                exact (h.projectOf?_eq_some hproject).imp_right
                  fun ⟨hnone, hp⟩ => ⟨rfl, ⟨by simp, look, hlook⟩, hnone, hp⟩
              · exact .inl howner

end Tracking

namespace Updater

variable {u : Updater} {k : Place} {p : Project} {s : Sources} {name : String}

/-! ## Runs -/

/-- Whether a move gives a file to a project. A project that is registered takes all that it finds,
whoever owns it. New files are for the first project by name that offers them. A file that is
reported is only given away if nobody owns it. -/
def Gives (u : Updater) (k : Place) (p : Project) : Move → Prop
  | .register s q => q = p ∧ s.Finds p k
  | .detect s => u.detecting = false ∧ u.settings.scan = true ∧ k ∉ u.tracking.seen ∧
      u.tracking.FirstWith (s.Offers · k) p
  | .notify s f c => f.place = k ∧ s.Sees f c ∧ u.tracking.owners[k]? = none ∧
      u.tracking.Deepest k p
  | _ => False

theorem keyed_move (h : u.tracking.Keyed) (m : Move) : (u.move m).tracking.Keyed := by
  cases m with
  | register s p =>
      rw [tracking_register]
      rcases u.tracking.register_finds s p with ⟨e, hregister, -⟩ | ⟨found, hregister, -⟩
      · rw [hregister]
        exact h
      · rw [hregister]
        exact (h.insert p).trackAll p.name found
  | detect s =>
      rw [tracking_detect]
      split_ifs
      · exact h
      · exact (h.survey s _).1
  | notify s f c =>
      rw [tracking_notify]
      exact (h.notice s f c).1
  | fire =>
      rw [tracking_fire]
      exact h
  | parse s id => exact h
  | apply x id =>
      rw [tracking_apply]
      exact h

theorem keyed_run (settings : Settings) (dependencies : ProjectGraph) (moves : List Move) :
    ((new settings dependencies).run moves).tracking.Keyed := by
  induction moves using List.reverseRecOn with
  | nil => exact Tracking.keyed_empty
  | append_singleton moves m ih =>
      rw [run_concat]
      exact keyed_move ih m

/-- The project that finds a file when it is registered is registered and owns the file. -/
theorem register_gives (hfinds : s.Finds p k) :
    (u.move (.register s p)).tracking.projects[p.name]? = some p ∧
      (u.move (.register s p)).tracking.owners[k]? = some p.name := by
  rw [tracking_register]
  rcases u.tracking.register_finds s p with ⟨e, -, hnone⟩ | ⟨found, hregister, hfound⟩
  · exact absurd hfinds (hnone k)
  · rw [hregister]
    dsimp only
    refine ⟨?_, Tracking.getElem?_owners_trackAll.trans (if_pos ((hfound k).mpr hfinds))⟩
    rw [Tracking.projects_trackAll]
    exact Std.TreeMap.getElem?_insert_self

/-- Whom a move gives a file owns it. -/
theorem owner_move (h : u.tracking.Keyed) {m : Move} (hm : u.Gives k p m) :
    (u.move m).tracking.owners[k]? = some p.name := by
  cases m with
  | register s q =>
      obtain ⟨rfl, hfinds⟩ := hm
      exact (register_gives hfinds).2
  | detect s =>
      obtain ⟨hdetecting, hscan, hk, hp⟩ := hm
      rw [tracking_detect, hdetecting, hscan, if_neg Bool.false_ne_true]
      exact h.owner_survey hk hp
  | notify s f c =>
      obtain ⟨rfl, hsees, hnone, hp⟩ := hm
      rw [tracking_notify]
      exact h.owner_notice hsees hnone hp
  | fire | parse _ _ | apply _ _ => exact hm.elim

/-- Who owns a file after a move owned it before or was given it. -/
theorem gives_of_owner (h : u.tracking.Keyed) {m : Move}
    (howner : (u.move m).tracking.owners[k]? = some name) :
    u.tracking.owners[k]? = some name ∨ ∃ p, u.Gives k p m ∧ p.name = name := by
  cases m with
  | register s p =>
      rw [tracking_register] at howner
      rcases u.tracking.register_finds s p with ⟨e, hregister, -⟩ | ⟨found, hregister, hfound⟩
      · rw [hregister] at howner
        exact .inl howner
      · rw [hregister] at howner
        dsimp only at howner
        rw [Tracking.getElem?_owners_trackAll] at howner
        split_ifs at howner with hmem
        · exact .inr ⟨p, ⟨rfl, (hfound k).mp hmem⟩, Option.some.inj howner⟩
        · exact .inl howner
  | detect s =>
      rw [tracking_detect] at howner
      split_ifs at howner with hdetecting
      · exact .inl howner
      · refine (h.owner_survey_cases howner).imp_right ?_
        rintro ⟨hscan, hk, p, hp, hname⟩
        exact ⟨p, ⟨by simpa using hdetecting, hscan, hk, hp⟩, hname⟩
  | notify s f c =>
      rw [tracking_notify] at howner
      refine (h.owner_notice_cases howner).imp_right ?_
      rintro ⟨hplace, hsees, hnone, p, hp, hname⟩
      exact ⟨p, ⟨hplace, hsees, hnone, hp⟩, hname⟩
  | fire =>
      rw [tracking_fire] at howner
      exact .inl howner
  | parse s id => exact .inl howner
  | apply x id =>
      rw [tracking_apply] at howner
      exact .inl howner

/-- Who owns a file was given it by a move and has owned it ever since. -/
theorem given_run (settings : Settings) (dependencies : ProjectGraph) (moves : List Move)
    (howner : ((new settings dependencies).run moves).tracking.owners[k]? = some name) :
    ∃ earlier m later, moves = earlier ++ m :: later ∧
      (∃ p, p.name = name ∧ ((new settings dependencies).run earlier).Gives k p m) ∧
      ∀ since, since <+: later →
        ((new settings dependencies).run (earlier ++ m :: since)).tracking.owners[k]? =
          some name := by
  induction moves using List.reverseRecOn with
  | nil => simp [run, new] at howner
  | append_singleton moves m ih =>
      have hafter := howner
      rw [run_concat] at hafter
      rcases gives_of_owner (keyed_run settings dependencies moves) hafter with
        hbefore | ⟨p, hgives, hname⟩
      · obtain ⟨earlier, m', later, hsplit, hgave, hsince⟩ := ih hbefore
        refine ⟨earlier, m', later ++ [m], by simp [hsplit], hgave, fun since hprefix => ?_⟩
        rcases List.prefix_concat_iff.mp hprefix with rfl | hprefix
        · rw [← List.cons_append, ← List.append_assoc, ← hsplit]
          exact howner
        · exact hsince since hprefix
      · refine ⟨moves, m, [], rfl, ⟨p, hname, hgives⟩, fun since hprefix => ?_⟩
        rw [List.prefix_nil.mp hprefix]
        exact howner

/-- What is found anew belongs to the deepest project around it if the first one by name is the
deepest. -/
theorem ownedByDeepest_detect (h : u.tracking.Keyed)
    (hoffers : ∀ p, u.tracking.projects[p.name]? = some p → (s.Offers p k ↔ p.root.place <+: k))
    (hdetecting : u.detecting = false) (hscan : u.settings.scan = true)
    (hk : k ∉ u.tracking.seen) (hsome : ∃ p, u.tracking.Encloses k p) :
    (u.move (.detect s)).tracking.OwnedByDeepest k ↔
      ∀ p, u.tracking.FirstWith (·.root.place <+: k) p → u.tracking.Deepest k p := by
  have hprojects : (u.move (.detect s)).tracking.projects = u.tracking.projects := by
    rw [tracking_detect, hdetecting, if_neg Bool.false_ne_true]
    exact (h.survey s _).2
  have hfirst : ∀ p, u.tracking.FirstWith (·.root.place <+: k) p →
      ((u.move (.detect s)).tracking.OwnedByDeepest k ↔ u.tracking.Deepest k p) := by
    intro p hp
    have howner := owner_move (m := .detect s) h
      ⟨hdetecting, hscan, hk, (Tracking.FirstWith.congr hoffers).mpr hp⟩
    rw [Tracking.ownedByDeepest_iff (by rw [hprojects]; exact hp.1) howner,
      Tracking.deepest_congr hprojects]
  refine ⟨fun howned p hp => (hfirst p hp).mp howned, fun hall => ?_⟩
  obtain ⟨q, hregistered, hprefix⟩ := hsome
  obtain ⟨p, hp⟩ := h.exists_firstWith (P := fun q => q.root.place <+: k) hregistered hprefix
  exact (hfirst p hp).mpr (hall p hp)

theorem ownedByDeepest_notify (h : u.tracking.Keyed) {f : Path} {c : Change} (hsees : s.Sees f c)
    (hnone : u.tracking.owners[f.place]? = none) (hsome : ∃ p, u.tracking.Encloses f.place p) :
    (u.move (.notify s f c)).tracking.OwnedByDeepest f.place := by
  obtain ⟨q, hq⟩ := hsome
  obtain ⟨p, -, hp⟩ := h.exists_deepest hq
  refine ⟨p, ?_, owner_move (m := .notify s f c) h ⟨rfl, hsees, hnone, hp⟩⟩
  have hprojects : (u.move (.notify s f c)).tracking.projects = u.tracking.projects := by
    rw [tracking_notify]
    exact (h.notice s f c).2
  exact (Tracking.deepest_congr hprojects).mpr hp

/-- Who owns a file depends on how it was discovered. After any moves of an updater, the owner of a
file was given it by some move and has owned it ever since. A registration gives all files that are
found to the project that is registered, so they have the owner that the roots tell only if this is
the project. Of the projects whose roots are around a new file the first by name gets it when new
files are looked for, so the owner is right only if none is deeper. A report always gives a file
that has no owner to the project with the deepest root around it. -/
theorem discovery_run (settings : Settings) (dependencies : ProjectGraph) (moves : List Move)
    (k : Place) :
    let after (moves : List Move) := (new settings dependencies).run moves
    let tracking (moves : List Move) := (after moves).tracking
    (∀ name, (tracking moves).owners[k]? = some name →
      ∃ earlier m later, moves = earlier ++ m :: later ∧
        (∃ p, p.name = name ∧ (after earlier).Gives k p m) ∧
        ∀ since, since <+: later → (tracking (earlier ++ m :: since)).owners[k]? = some name) ∧
    (∀ m p, (after moves).Gives k p m → (tracking (moves ++ [m])).owners[k]? = some p.name) ∧
    (∀ s p, s.Finds p k →
      ((tracking (moves ++ [.register s p])).OwnedByDeepest k ↔
        (tracking (moves ++ [.register s p])).Deepest k p)) ∧
    (∀ s, (∀ p, (tracking moves).projects[p.name]? = some p →
        (s.Offers p k ↔ p.root.place <+: k)) →
      (after moves).detecting = false → (after moves).settings.scan = true →
      k ∉ (tracking moves).seen → (∃ p, (tracking moves).Encloses k p) →
      ((tracking (moves ++ [.detect s])).OwnedByDeepest k ↔
        ∀ p, (tracking moves).FirstWith (·.root.place <+: k) p → (tracking moves).Deepest k p)) ∧
    ∀ s f c, f.place = k → s.Sees f c → (tracking moves).owners[k]? = none →
      (∃ p, (tracking moves).Encloses k p) →
      (tracking (moves ++ [.notify s f c])).OwnedByDeepest k := by
  intro after tracking
  have hkeyed : (tracking moves).Keyed := keyed_run settings dependencies moves
  have hstep : ∀ m, tracking (moves ++ [m]) = ((after moves).move m).tracking :=
    fun m => congrArg Updater.tracking (run_concat _ moves m)
  refine ⟨fun name => given_run settings dependencies moves, fun m p hgives => ?_,
    fun s p hfinds => ?_, fun s hoffers hdetecting hscan hk hsome => ?_,
    fun s f c hplace hsees hnone hsome => ?_⟩
  · rw [hstep]
    exact owner_move hkeyed hgives
  · rw [hstep]
    obtain ⟨hregistered, howner⟩ := register_gives (u := after moves) hfinds
    exact Tracking.ownedByDeepest_iff hregistered howner
  · rw [hstep]
    exact ownedByDeepest_detect hkeyed hoffers hdetecting hscan hk hsome
  · subst hplace
    rw [hstep]
    exact ownedByDeepest_notify hkeyed hsees hnone hsome

/-- The file of a project within another goes to the outer one when this is registered last or when
new files are looked for, but to the inner one when it is reported. -/
theorem discovery_of_nested_roots :
    let outer : Project := { name := "Alpha", root := ⟨"r"⟩ }
    let inner : Project := { name := "Inner", root := ⟨"r/sub"⟩ }
    let k : Place := [.name "r", .name "sub", .name "b.sym"]
    let bare : Sources := { nestedSources with list := fun _ => .ok [] }
    let known : List Move := [.register bare inner, .register bare outer]
    let tracking (moves : List Move) := ((new { scan := true } {}).run (known ++ moves)).tracking
    ¬ (tracking [.register nestedSources outer]).OwnedByDeepest k ∧
    ¬ (tracking [.detect nestedSources]).OwnedByDeepest k ∧
    (tracking [.notify nestedSources ⟨"r/sub/b.sym"⟩ .created]).OwnedByDeepest k := by
  intro outer inner k bare known tracking
  obtain ⟨-, -, hregister, hdetect, hnotify⟩ := discovery_run { scan := true } {} known k
  have hprojects : ((new { scan := true } {}).run known).tracking.projects =
      (({} : Std.TreeMap String Project).insert "Inner" inner).insert "Alpha" outer := rfl
  have houter : ((new { scan := true } {}).run known).tracking.Encloses k outer :=
    ⟨by rw [hprojects]; exact Std.TreeMap.getElem?_insert_self, by decide +kernel⟩
  have hinner : ((new { scan := true } {}).run known).tracking.Encloses k inner := by
    refine ⟨?_, by decide +kernel⟩
    rw [hprojects, Std.TreeMap.getElem?_insert, if_neg (by decide +kernel)]
    exact Std.TreeMap.getElem?_insert_self
  have honly : ∀ p, ((new { scan := true } {}).run known).tracking.projects[p.name]? = some p →
      p = outer ∨ p = inner := by
    intro p hp
    rw [hprojects, Std.TreeMap.getElem?_insert, Std.TreeMap.getElem?_insert] at hp
    split_ifs at hp
    · exact .inl (Option.some.inj hp).symm
    · exact .inr (Option.some.inj hp).symm
    · simp at hp
  have hdeeper : ∀ t : Tracking, t.Encloses k inner → ¬ t.Deepest k outer := by
    intro t hinner hdeepest
    exact absurd (hdeepest.2 inner hinner) (by decide +kernel)
  have hlook : ∀ f, ∃ look, nestedSources.fingerprint f = .ok look :=
    fun f => ⟨{ modified := 0, size := 0 }, rfl⟩
  have hfile : (⟨"r/sub/b.sym"⟩ : Path).place = k := by decide +kernel
  refine ⟨?_, ?_, ?_⟩
  · rw [hregister nestedSources outer ⟨_, rfl, ⟨"r/sub/b.sym"⟩, by simp [outer], hfile, hlook _⟩]
    refine hdeeper _ ⟨?_, hinner.2⟩
    have hagain : (tracking [.register nestedSources outer]).projects =
        ((new { scan := true } {}).run known).tracking.projects.insert "Alpha" outer := rfl
    rw [hagain, Std.TreeMap.getElem?_insert, if_neg (by decide +kernel)]
    exact hinner.1
  · rw [hdetect nestedSources ?_ rfl rfl ?_ ⟨outer, houter⟩]
    · refine fun hall => hdeeper _ hinner (hall outer ⟨houter.1, houter.2, fun q hq _ => ?_⟩)
      rcases honly q hq with rfl | rfl <;> decide +kernel
    · intro p hp
      rcases honly p hp with rfl | rfl
      · exact iff_of_true ⟨_, rfl, ⟨"r/sub/b.sym"⟩, by simp [outer], hfile, rfl, hlook _⟩ houter.2
      · exact iff_of_true ⟨_, rfl, ⟨"r/sub/b.sym"⟩, by simp [inner], hfile, rfl, hlook _⟩ hinner.2
    · decide +kernel
  · exact hnotify nestedSources ⟨"r/sub/b.sym"⟩ .created hfile ⟨by decide, hlook _⟩
      (by decide +kernel) ⟨outer, houter⟩

end Updater

end SymbolAtlas
