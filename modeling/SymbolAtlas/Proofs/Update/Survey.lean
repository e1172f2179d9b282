import SymbolAtlas.Proofs.Files.Missing
import SymbolAtlas.Proofs.Update.Discovery

/-!
# What a survey detects

A survey compares every tracked file with what it looks like now and, if asked to, looks for new
ones. It is exact: there is one event for each file that is gone, looks different or is new, and no
other. What it tracks then agrees with the files, so a second survey detects nothing.
-/

namespace SymbolAtlas

namespace Tracking

variable {t : Tracking} {s : Sources} {p : Path} {f look : Fingerprint} {k : Place} {scan : Bool}

/-! ## The three lists -/

theorem Keyed.mem_gone (h : t.Keyed) : p ∈ t.gone s ↔
    (∃ f, t.seen[p.place]? = some (p, f)) ∧ s.fingerprint p = .error .missing := by
  unfold gone
  rw [List.mem_filterMap]
  constructor
  · rintro ⟨⟨q, f⟩, hvalue, hsome⟩
    obtain ⟨k, hk⟩ := (mem_values t.seen (q, f)).mp hvalue
    dsimp only at hsome
    split at hsome
    · next hmissing =>
      cases hsome
      rw [h.seen k _ hk]
      exact ⟨⟨f, hk⟩, hmissing⟩
    · cases hsome
  · rintro ⟨⟨f, hf⟩, hmissing⟩
    refine ⟨(p, f), (mem_values t.seen (p, f)).mpr ⟨p.place, hf⟩, ?_⟩
    dsimp only
    rw [hmissing]

theorem Keyed.mem_altered (h : t.Keyed) : (p, look) ∈ t.altered s ↔
    (∃ f, t.seen[p.place]? = some (p, f) ∧ look ≠ f) ∧ s.fingerprint p = .ok look := by
  unfold altered
  rw [List.mem_filterMap]
  constructor
  · rintro ⟨⟨q, f⟩, hvalue, hsome⟩
    obtain ⟨k, hk⟩ := (mem_values t.seen (q, f)).mp hvalue
    dsimp only at hsome
    split at hsome
    · next new hnew =>
      split_ifs at hsome with hsame
      cases hsome
      rw [h.seen k _ hk]
      exact ⟨⟨f, hk, hsame⟩, hnew⟩
    · cases hsome
  · rintro ⟨⟨f, hf, hne⟩, hlook⟩
    refine ⟨(p, f), (mem_values t.seen (p, f)).mpr ⟨p.place, hf⟩, ?_⟩
    dsimp only
    rw [hlook]
    exact if_neg hne

theorem Keyed.nodup_seen (h : t.Keyed) : (t.seen.values.map fun e => e.1.place).Nodup := by
  rw [map_values_eq_keys t.seen _ h.seen]
  exact nodup_keys t.seen

theorem Keyed.nodup_gone (h : t.Keyed) (s : Sources) : ((t.gone s).map Path.place).Nodup := by
  refine nodup_map_filterMap (fun ⟨q, f⟩ p hp => ?_) h.nodup_seen
  dsimp only at hp
  split at hp <;> cases hp
  rfl

theorem Keyed.nodup_altered (h : t.Keyed) (s : Sources) :
    ((t.altered s).map fun e => e.1.place).Nodup := by
  refine nodup_map_filterMap (fun ⟨q, f⟩ e he => ?_) h.nodup_seen
  dsimp only at he
  split at he
  · split_ifs at he
    cases he
    rfl
  · cases he

/-- New files are source files that registered projects have and that can be seen. -/
theorem Keyed.mem_appeared (h : t.Keyed) {e : Path × String × Fingerprint} :
    e ∈ t.appeared s ↔ e.1.place ∉ t.seen ∧ ∃ p, t.projects[p.name]? = some p ∧ e.2.1 = p.name ∧
      (∃ files, s.list p = .ok files ∧ e.1 ∈ files) ∧ s.isSource e.1 = true ∧
      s.fingerprint e.1 = .ok e.2.2 := by
  rw [appeared_eq, List.mem_flatMap]
  simp only [h.mem_values_iff, mem_newFiles]
  constructor
  · rintro ⟨p, hp, hname, files, hlist, hfile, hseen, hsource, hlook⟩
    exact ⟨hseen, p, hp, hname, ⟨files, hlist, hfile⟩, hsource, hlook⟩
  · rintro ⟨hseen, p, hp, hname, ⟨files, hlist, hfile⟩, hsource, hlook⟩
    exact ⟨p, hp, hname, files, hlist, hfile, hseen, hsource, hlook⟩

/-! ## What is tracked afterwards -/

theorem getElem?_seen_noteGone (t : Tracking) (xs : List Path) (k : Place) :
    (noteEach (fun t p => (t.noteGone p).map some id) t xs).2.seen[k]? =
      if k ∈ xs.map Path.place then none else t.seen[k]? := by
  rw [snd_noteEach]
  induction xs generalizing t with
  | nil => rfl
  | cons p rest ih =>
      rw [List.foldl_cons, ih]
      change (if _ then none else (t.seen.erase p.place)[k]?) = _
      rw [Std.TreeMap.getElem?_erase, List.map_cons]
      simp only [Std.LawfulEqCmp.compare_eq_iff_eq, List.mem_cons]
      by_cases hplace : p.place = k
      · simp [hplace]
      · simp [hplace, Ne.symm hplace]

theorem getElem?_seen_noteAltered (t : Tracking) {xs : List (Path × Fingerprint)}
    (hxs : (xs.map fun e => e.1.place).Nodup) (k : Place) :
    (noteEach (fun t (e : Path × Fingerprint) => (t.noteAltered e.1 e.2).map some id)
        t xs).2.seen[k]? =
      match xs.find? fun e => e.1.place = k with
        | some e => some (((t.seen[k]?).map Prod.fst).getD e.1, e.2)
        | none => t.seen[k]? := by
  rw [snd_noteEach]
  induction xs generalizing t with
  | nil => rfl
  | cons e rest ih =>
      obtain ⟨hfresh, hrest⟩ := List.nodup_cons.mp hxs
      have hstep : ((t.noteAltered e.1 e.2).map some id).2 = t.see e.1 e.2 := rfl
      rw [List.foldl_cons, ih _ hrest, hstep, getElem?_seen_see]
      by_cases hplace : e.1.place = k
      · have hnone : rest.find? (fun e' => e'.1.place = k) = none := by
          rw [List.find?_eq_none]
          intro e' he' hplace'
          exact hfresh (List.mem_map.mpr ⟨e', he', (of_decide_eq_true hplace').trans hplace.symm⟩)
        rw [hnone, List.find?_cons_of_pos (by simpa using hplace), if_pos hplace]
      · rw [List.find?_cons_of_neg (by simpa using hplace), if_neg hplace]

theorem noteAppeared_eq (t : Tracking) (p : Path) (project : String) (f : Fingerprint) :
    t.noteAppeared p project f =
      if p.place ∈ t.seen then (none, t)
      else (some ⟨p, .created, some project⟩, t.track p project f) :=
  if_congr Std.TreeMap.contains_iff_mem rfl rfl

theorem getElem?_seen_noteAppeared (t : Tracking) (xs : List (Path × String × Fingerprint))
    (k : Place) :
    (noteEach (fun t e => t.noteAppeared e.1 e.2.1 e.2.2) t xs).2.seen[k]? =
      if k ∈ t.seen then t.seen[k]?
      else (xs.find? fun e => e.1.place = k).map fun e => (e.1, e.2.2) := by
  -- Once a new file at the place is tracked, the remaining ones meet a place that is taken.
  rw [snd_noteEach]
  induction xs generalizing t with
  | nil =>
      split_ifs with hk
      · rfl
      · exact Std.TreeMap.getElem?_eq_none hk
  | cons e rest ih =>
      rw [List.foldl_cons, ih, noteAppeared_eq]
      by_cases hseen : e.1.place ∈ t.seen
      · rw [if_pos hseen]
        split_ifs with hk
        · rfl
        · rw [List.find?_cons_of_neg]
          intro hplace
          rw [← of_decide_eq_true hplace] at hk
          exact hk hseen
      · rw [if_neg hseen]
        have hmem : k ∈ (t.track e.1 e.2.1 e.2.2).seen ↔ e.1.place = k ∨ k ∈ t.seen := mem_seen_see
        rw [if_congr hmem rfl rfl, seen_track, getElem?_seen_see]
        by_cases hplace : e.1.place = k
        · subst hplace
          rw [if_pos (.inl rfl), if_pos rfl, if_neg hseen, Std.TreeMap.getElem?_eq_none hseen,
            List.find?_cons_of_pos (by simp)]
          rfl
        · rw [if_neg hplace, List.find?_cons_of_neg (by simpa using hplace)]
          simp only [hplace, false_or]

/-- What becomes of the record of a file when it is looked at again. -/
def looked (s : Sources) : Path × Fingerprint → Option (Path × Fingerprint)
  | (p, f) =>
    match s.fingerprint p with
    | .ok look => some (p, look)
    | .error .missing => none
    | .error .notFolder => some (p, f)

theorem Keyed.place_mem_gone (h : t.Keyed) (hf : t.seen[p.place]? = some (p, f)) :
    p.place ∈ (t.gone s).map Path.place ↔ s.fingerprint p = .error .missing := by
  rw [List.mem_map]
  constructor
  · rintro ⟨q, hq, hplace⟩
    obtain ⟨⟨g, hg⟩, hmissing⟩ := h.mem_gone.mp hq
    rw [hplace, hf] at hg
    cases hg
    exact hmissing
  · intro hmissing
    exact ⟨p, h.mem_gone.mpr ⟨⟨f, hf⟩, hmissing⟩, rfl⟩

theorem Keyed.find?_altered (h : t.Keyed) (hf : t.seen[p.place]? = some (p, f)) :
    (t.altered s).find? (fun e => e.1.place = p.place) =
      match s.fingerprint p with
      | .ok look => if look = f then none else some (p, look)
      | .error _ => none := by
  have honly : ∀ e ∈ t.altered s, e.1.place = p.place →
      e.1 = p ∧ e.2 ≠ f ∧ s.fingerprint p = .ok e.2 := by
    rintro ⟨q, look⟩ he hplace
    obtain ⟨⟨g, hg, hne⟩, hlook⟩ := h.mem_altered.mp he
    dsimp only at hplace hne ⊢
    rw [hplace, hf] at hg
    cases hg
    exact ⟨rfl, hne, hlook⟩
  cases hfind : (t.altered s).find? fun e => e.1.place = p.place with
  | some e =>
      obtain ⟨hpath, hne, hlook⟩ :=
        honly e (List.mem_of_find?_eq_some hfind) (by simpa using List.find?_some hfind)
      rw [hlook]
      dsimp only
      rw [if_neg hne, ← hpath]
  | none =>
      cases hlook : s.fingerprint p with
      | error e => rfl
      | ok look =>
          dsimp only
          rw [if_pos]
          by_contra hne
          have he := h.mem_altered.mpr ⟨⟨f, hf, hne⟩, hlook⟩
          exact List.find?_eq_none.mp hfind (p, look) he (by simp)

/-- Looking at the tracked files again forgets those that are gone. -/
theorem Keyed.seen_refresh (h : t.Keyed) (s : Sources) (k : Place) :
    (t.refresh s).seen[k]? = (t.seen[k]?).bind (looked s) := by
  unfold refresh
  rw [getElem?_seen_noteAltered _ (h.nodup_altered s), getElem?_seen_noteGone]
  cases hk : t.seen[k]? with
  | none =>
      have haltered : (t.altered s).find? (fun e => e.1.place = k) = none := by
        rw [List.find?_eq_none]
        rintro ⟨q, look⟩ he hplace
        obtain ⟨⟨g, hg, -⟩, -⟩ := h.mem_altered.mp he
        rw [of_decide_eq_true hplace, hk] at hg
        cases hg
      rw [haltered]
      exact ite_self _
  | some e =>
      obtain ⟨p, f⟩ := e
      obtain rfl : p.place = k := h.seen k _ hk
      rw [h.find?_altered hk, Option.bind_some, looked]
      have hgone := h.place_mem_gone (s := s) hk
      cases hlook : s.fingerprint p with
      | ok look =>
          rw [hlook] at hgone
          rw [if_neg (by simpa using hgone)]
          dsimp only
          split_ifs with hsame
          · rw [hsame]
          · rfl
      | error e =>
          cases e with
          | missing => rw [if_pos (hgone.mpr hlook)]
          | notFolder =>
              rw [hlook] at hgone
              rw [if_neg (by simpa using hgone)]

theorem Keyed.find?_appeared_of_seen (h : t.Keyed) (hk : k ∈ t.seen) :
    (if scan then t.appeared s else []).find? (fun e => e.1.place = k) = none := by
  rw [List.find?_eq_none]
  intro e he hplace
  split_ifs at he
  · rw [← of_decide_eq_true hplace] at hk
    exact (h.mem_appeared.mp he).1 hk
  · cases he

/-- A survey looks at the tracked files again and tracks the new ones. -/
theorem Keyed.seen_survey (h : t.Keyed) (s : Sources) (scan : Bool) (k : Place) :
    (t.survey s scan).2.seen[k]? =
      if k ∈ t.seen then (t.seen[k]?).bind (looked s)
      else ((if scan then t.appeared s else []).find? fun e => e.1.place = k).map
        fun e => (e.1, e.2.2) := by
  rw [snd_survey, getElem?_seen_noteAppeared, h.seen_refresh]
  by_cases hk : k ∈ t.seen
  · rw [if_pos hk, h.find?_appeared_of_seen hk]
    split_ifs with hrefresh
    · rfl
    · rw [← h.seen_refresh, Std.TreeMap.getElem?_eq_none hrefresh]
      rfl
  · rw [if_neg hk, if_neg fun hrefresh => hk (h.mem_seen_of_refresh hrefresh)]

/-! ## Events -/

/-- Where each thing that is taken in makes an event, its path and change are told by the thing. -/
theorem map_noteEach {α : Type} (note : Tracking → α → FileEvent × Tracking)
    (told : α → Path × Change)
    (hnote : ∀ t x, ((note t x).1.path, (note t x).1.change) = told x) (t : Tracking)
    (xs : List α) :
    (noteEach (fun t x => (note t x).map some id) t xs).1.map (fun e => (e.path, e.change)) =
      xs.map told := by
  induction xs using List.reverseRecOn with
  | nil => rfl
  | append_singleton xs x ih =>
      rw [noteEach_concat, List.map_append, List.map_append, ih]
      exact congrArg (xs.map told ++ [·]) (hnote _ x)

/-- Events for new files of a list, one for each place that was not tracked before. -/
structure Introduces (t : Tracking) (xs : List (Path × String × Fingerprint))
    (events : List FileEvent) : Prop where
  created : ∀ e ∈ events, e.change = .created
  path : ∀ e ∈ events, ∃ x ∈ xs, x.1 = e.path
  nodup : (events.map fun e => e.path.place).Nodup
  place : ∀ k, k ∈ events.map (fun e => e.path.place) ↔
    k ∉ t.seen ∧ k ∈ xs.map fun x => x.1.place

theorem mem_seen_noteAppeared {xs : List (Path × String × Fingerprint)} :
    k ∈ (noteEach (fun t e => t.noteAppeared e.1 e.2.1 e.2.2) t xs).2.seen ↔
      k ∈ t.seen ∨ k ∈ xs.map fun x => x.1.place := by
  rw [Std.TreeMap.mem_iff_isSome_getElem?, getElem?_seen_noteAppeared]
  split_ifs with hk
  · exact iff_of_true (Std.TreeMap.mem_iff_isSome_getElem?.mp hk) (.inl hk)
  · rw [Option.isSome_map, List.find?_isSome, or_iff_right hk, List.mem_map]
    simp only [decide_eq_true_eq]

theorem introduces_noteEach (t : Tracking) (xs : List (Path × String × Fingerprint)) :
    t.Introduces xs (noteEach (fun t e => t.noteAppeared e.1 e.2.1 e.2.2) t xs).1 := by
  induction xs using List.reverseRecOn with
  | nil => constructor <;> simp [noteEach_nil]
  | append_singleton xs x ih =>
      rw [noteEach_concat, noteAppeared_eq, if_congr mem_seen_noteAppeared rfl rfl]
      have hpath : ∀ e ∈ (noteEach (fun t e => t.noteAppeared e.1 e.2.1 e.2.2) t xs).1,
          ∃ y ∈ xs ++ [x], y.1 = e.path := fun e he => by
        obtain ⟨y, hy, heq⟩ := ih.path e he
        exact ⟨y, List.mem_append_left [x] hy, heq⟩
      split_ifs with hseen
      · -- The place of the file is taken, so no event is added.
        simp only [Option.toList_none, List.append_nil]
        refine ⟨ih.created, hpath, ih.nodup, fun k => ?_⟩
        rw [ih.place, List.map_append, List.mem_append, List.map_singleton, List.mem_singleton]
        refine and_congr_right fun hk => (or_iff_left_of_imp ?_).symm
        rintro rfl
        exact hseen.resolve_left hk
      · obtain ⟨hnew, hfirst⟩ := not_or.mp hseen
        simp only [Option.toList_some]
        refine ⟨?_, ?_, ?_, fun k => ?_⟩
        · rw [List.forall_mem_append]
          exact ⟨ih.created, by simp⟩
        · rw [List.forall_mem_append]
          exact ⟨hpath, by simp⟩
        · rw [List.map_append, List.map_singleton, List.nodup_append]
          refine ⟨ih.nodup, by simp, fun k hk k' hk' => ?_⟩
          rw [List.mem_singleton.mp hk']
          rintro rfl
          exact hfirst ((ih.place _).mp hk).2
        · rw [List.map_append, List.mem_append, ih.place, List.map_append, List.mem_append,
            List.map_singleton, List.map_singleton, List.mem_singleton, and_or_left]
          refine or_congr_right ⟨?_, And.right⟩
          rintro rfl
          exact ⟨hnew, rfl⟩

/-- The events of a survey for new files. -/
def introduced (t : Tracking) (s : Sources) (scan : Bool) : List FileEvent :=
  (noteEach (fun t e => t.noteAppeared e.1 e.2.1 e.2.2) (t.refresh s)
    (if scan then t.appeared s else [])).1

theorem introduces_introduced (t : Tracking) (s : Sources) (scan : Bool) :
    (t.refresh s).Introduces (if scan then t.appeared s else []) (t.introduced s scan) :=
  introduces_noteEach _ _

/-- Each event of a survey is for a file that is gone, for one that looks different or for a new
one. -/
theorem perm_survey (t : Tracking) (s : Sources) (scan : Bool) :
    ((t.survey s scan).1.map fun e => (e.path, e.change)).Perm
      ((t.gone s).map (fun p => (p, .deleted)) ++
        (t.altered s).map (fun e => (e.1, .contentChanged)) ++
          (t.introduced s scan).map fun e => (e.path, e.change)) := by
  have hgone := map_noteEach noteGone (·, Change.deleted) (fun _ _ => rfl) t (t.gone s)
  have haltered := map_noteEach (fun t (e : Path × Fingerprint) => t.noteAltered e.1 e.2)
    (fun e => (e.1, Change.contentChanged)) (fun _ _ => rfl)
    (noteEach (fun t p => (t.noteGone p).map some id) t (t.gone s)).2 (t.altered s)
  rw [← hgone, ← haltered, ← List.map_append, ← List.map_append]
  exact (List.mergeSort_perm _ _).map _

theorem exists_event_survey {c : Change} :
    (∃ e ∈ (t.survey s scan).1, e.path = p ∧ e.change = c) ↔
      p ∈ t.gone s ∧ c = .deleted ∨ (∃ look, (p, look) ∈ t.altered s) ∧ c = .contentChanged ∨
        c = .created ∧ ∃ e ∈ t.introduced s scan, e.path = p := by
  have hpair : ∀ l : List FileEvent, (∃ e ∈ l, e.path = p ∧ e.change = c) ↔
      (p, c) ∈ l.map fun e => (e.path, e.change) := by simp
  have hcreated := (introduces_introduced t s scan).created
  have hnew : (∃ e ∈ t.introduced s scan, e.path = p ∧ e.change = c) ↔
      c = .created ∧ ∃ e ∈ t.introduced s scan, e.path = p := by
    constructor
    · rintro ⟨e, he, hpath, rfl⟩
      exact ⟨hcreated e he, e, he, hpath⟩
    · rintro ⟨rfl, e, he, hpath⟩
      exact ⟨e, he, hpath, hcreated e he⟩
  rw [hpair, (perm_survey t s scan).mem_iff, List.mem_append, List.mem_append, ← hpair, hnew,
    or_assoc]
  simp [eq_comm]

/-- Events that tell exactly how files differ from what is tracked. -/
structure Detects (t : Tracking) (s : Sources) (scan : Bool) (events : List FileEvent) :
    Prop where
  /-- The events are in the order of their paths, and no two have the same one. -/
  sorted : events.Pairwise fun a b => a.path.compare b.path = .lt
  deleted : ∀ p, (∃ e ∈ events, e.path = p ∧ e.change = .deleted) ↔
    (∃ f, t.seen[p.place]? = some (p, f)) ∧ s.fingerprint p = .error .missing
  altered : ∀ p, (∃ e ∈ events, e.path = p ∧ e.change = .contentChanged) ↔
    ∃ look, (∃ f, t.seen[p.place]? = some (p, f) ∧ look ≠ f) ∧ s.fingerprint p = .ok look
  created : ∀ k, (∃ e ∈ events, e.path.place = k ∧ e.change = .created) ↔
    scan = true ∧ k ∉ t.seen ∧ ∃ p, t.projects[p.name]? = some p ∧ s.Offers p k
  /-- A new file is told by a path that some project has. -/
  listed : ∀ e ∈ events, e.change = .created → ∃ p files, t.projects[p.name]? = some p ∧
    s.list p = .ok files ∧ e.path ∈ files ∧ s.isSource e.path = true ∧
      ∃ look, s.fingerprint e.path = .ok look

theorem Keyed.place_mem_appeared (h : t.Keyed) : k ∈ (t.appeared s).map (fun e => e.1.place) ↔
    k ∉ t.seen ∧ ∃ p, t.projects[p.name]? = some p ∧ s.Offers p k := by
  rw [List.mem_map]
  constructor
  · rintro ⟨e, he, rfl⟩
    obtain ⟨hseen, p, hp, -, ⟨files, hlist, hfile⟩, hsource, hlook⟩ := h.mem_appeared.mp he
    exact ⟨hseen, p, hp, files, hlist, e.1, hfile, rfl, hsource, _, hlook⟩
  · rintro ⟨hseen, p, hp, files, hlist, q, hfile, rfl, hsource, look, hlook⟩
    exact ⟨(q, p.name, look),
      h.mem_appeared.mpr ⟨hseen, p, hp, rfl, ⟨files, hlist, hfile⟩, hsource, hlook⟩, rfl⟩

theorem Keyed.place_mem_introduced (h : t.Keyed) :
    k ∈ (t.introduced s scan).map (fun e => e.path.place) ↔
      scan = true ∧ k ∉ t.seen ∧ ∃ p, t.projects[p.name]? = some p ∧ s.Offers p k := by
  rw [(introduces_introduced t s scan).place]
  cases scan with
  | false => simp
  | true =>
      rw [if_pos rfl, h.place_mem_appeared]
      refine ⟨fun hk => ⟨rfl, hk.2⟩, fun hk => ⟨fun hin => ?_, hk.2⟩⟩
      exact hk.2.1 (h.mem_seen_of_refresh hin)

/-- Files that are gone, that look different and that are new are all different ones. -/
theorem Keyed.nodup_places_survey (h : t.Keyed) (s : Sources) (scan : Bool) :
    ((t.survey s scan).1.map fun e => e.path.place).Nodup := by
  have hplaces : ((t.survey s scan).1.map fun e => e.path.place).Perm
      ((t.gone s).map Path.place ++ (t.altered s).map (fun e => e.1.place) ++
        (t.introduced s scan).map fun e => e.path.place) := by
    simpa [Function.comp_def] using (perm_survey t s scan).map fun x => x.1.place
  have hgone : ∀ k ∈ (t.gone s).map Path.place, k ∈ t.seen := by
    intro k hk
    obtain ⟨p, hp, rfl⟩ := List.mem_map.mp hk
    obtain ⟨⟨f, hf⟩, -⟩ := h.mem_gone.mp hp
    rw [Std.TreeMap.mem_iff_isSome_getElem?, hf]
    rfl
  have haltered : ∀ k ∈ (t.altered s).map (fun e => e.1.place), k ∈ t.seen := by
    intro k hk
    obtain ⟨e, he, rfl⟩ := List.mem_map.mp hk
    exact h.mem_seen_of_mem_altered he
  rw [hplaces.nodup_iff, List.nodup_append, List.nodup_append]
  refine ⟨⟨h.nodup_gone s, h.nodup_altered s, ?_⟩, (introduces_introduced t s scan).nodup, ?_⟩
  · rintro k hk k' hk' rfl
    obtain ⟨e, he, rfl⟩ := List.mem_map.mp hk'
    obtain ⟨⟨f, hf, -⟩, hlook⟩ := h.mem_altered.mp he
    rw [(h.place_mem_gone hf).mp hk] at hlook
    cases hlook
  · rintro k hk k' hk' rfl
    obtain ⟨-, hnew, -⟩ := h.place_mem_introduced.mp hk'
    exact hnew ((List.mem_append.mp hk).elim (hgone k) (haltered k))

theorem pairwise_survey (t : Tracking) (s : Sources) (scan : Bool) :
    (t.survey s scan).1.Pairwise fun a b => (a.path.compare b.path).isLE := by
  refine List.pairwise_mergeSort (fun a b c hab hbc => ?_) (fun a b => ?_) _
  · exact Std.TransOrd.isLE_trans (show (compare a.path.place b.path.place).isLE from hab) hbc
  · unfold Path.compare
    rw [Bool.or_eq_true]
    cases hab : compare a.path.place b.path.place with
    | lt | eq => exact .inl rfl
    | gt => exact .inr (by rw [Std.OrientedCmp.gt_iff_lt.mp hab]; rfl)

theorem Keyed.sorted_survey (h : t.Keyed) (s : Sources) (scan : Bool) :
    (t.survey s scan).1.Pairwise fun a b => a.path.compare b.path = .lt := by
  have hdistinct := List.pairwise_map.mp (h.nodup_places_survey s scan)
  refine ((pairwise_survey t s scan).and hdistinct).imp ?_
  rintro a b ⟨hle, hne⟩
  unfold Path.compare at hle ⊢
  cases hab : compare a.path.place b.path.place with
  | lt => rfl
  | eq => exact absurd (Std.LawfulEqCmp.compare_eq_iff_eq.mp hab) hne
  | gt =>
      rw [hab] at hle
      cases hle

/-- A survey tells exactly how the files differ from what is tracked. -/
theorem Keyed.detects_survey (h : t.Keyed) (s : Sources) (scan : Bool) :
    t.Detects s scan (t.survey s scan).1 := by
  have hcreated : ∀ e ∈ (t.survey s scan).1, e.change = .created →
      ∃ e' ∈ t.introduced s scan, e'.path = e.path := by
    intro e he hchange
    have hevent := exists_event_survey.mp ⟨e, he, rfl, hchange⟩
    simpa using hevent
  refine ⟨h.sorted_survey s scan, fun p => ?_, fun p => ?_, fun k => ?_, fun e he hchange => ?_⟩
  · rw [exists_event_survey, ← h.mem_gone]
    simp
  · rw [exists_event_survey]
    simp only [← h.mem_altered]
    simp
  · rw [← h.place_mem_introduced, List.mem_map]
    constructor
    · rintro ⟨e, he, rfl, hchange⟩
      obtain ⟨e', he', hpath⟩ := hcreated e he hchange
      exact ⟨e', he', by rw [hpath]⟩
    · rintro ⟨e, he, rfl⟩
      obtain ⟨e', he', hpath, hchange⟩ :=
        exists_event_survey.mpr (.inr (.inr ⟨rfl, e, he, rfl⟩))
      exact ⟨e', he', by rw [hpath], hchange⟩
  · obtain ⟨e', he', hpath⟩ := hcreated e he hchange
    obtain ⟨x, hx, hx'⟩ := (introduces_introduced t s scan).path e' he'
    split_ifs at hx
    · obtain ⟨-, p, hp, -, ⟨files, hlist, hfile⟩, hsource, hlook⟩ := h.mem_appeared.mp hx
      rw [hx', hpath] at hfile hsource hlook
      exact ⟨p, files, hp, hlist, hfile, hsource, _, hlook⟩
    · cases hx

/-! ## Settling -/

/-- Tracking that agrees with the files, so that a survey has nothing to detect. -/
structure Settled (t : Tracking) (s : Sources) (scan : Bool) : Prop where
  found : ∀ (k : Place) p f, t.seen[k]? = some (p, f) → s.fingerprint p ≠ .error .missing
  current : ∀ (k : Place) p f look, t.seen[k]? = some (p, f) → s.fingerprint p = .ok look → f = look
  tracked : scan = true → ∀ p k, t.projects[p.name]? = some p → s.Offers p k → k ∈ t.seen

theorem Settled.survey_eq (hsettled : t.Settled s scan) (h : t.Keyed) :
    t.survey s scan = ([], t) := by
  have hgone : t.gone s = [] := by
    rw [List.eq_nil_iff_forall_not_mem]
    intro p hp
    obtain ⟨⟨f, hf⟩, hmissing⟩ := h.mem_gone.mp hp
    exact hsettled.found _ p f hf hmissing
  have haltered : t.altered s = [] := by
    rw [List.eq_nil_iff_forall_not_mem]
    rintro ⟨p, look⟩ hp
    obtain ⟨⟨f, hf, hne⟩, hlook⟩ := h.mem_altered.mp hp
    exact hne (hsettled.current _ p f look hf hlook).symm
  have happeared : (if scan then t.appeared s else []) = [] := by
    split_ifs with hscan
    · rw [← List.map_eq_nil_iff (f := fun e => e.1.place), List.eq_nil_iff_forall_not_mem]
      intro k hk
      obtain ⟨hseen, p, hp, hoffers⟩ := h.place_mem_appeared.mp hk
      exact hseen (hsettled.tracked hscan p k hp hoffers)
    · rfl
  unfold survey
  dsimp only
  rw [hgone, haltered, happeared, noteEach_nil, noteEach_nil, noteEach_nil, List.append_nil,
    List.append_nil, List.mergeSort_nil]

/-- A tracked file stays so unless it is missing. -/
theorem Keyed.mem_survey_of_seen (h : t.Keyed) (hf : t.seen[k]? = some (p, f)) :
    k ∈ (t.survey s scan).2.seen ↔ s.fingerprint p ≠ .error .missing := by
  have hk : k ∈ t.seen := by
    rw [Std.TreeMap.mem_iff_isSome_getElem?, hf]
    rfl
  rw [Std.TreeMap.mem_iff_isSome_getElem?, h.seen_survey, if_pos hk, hf, Option.bind_some, looked]
  cases s.fingerprint p with
  | ok look => simp
  | error e => cases e <;> simp

/-- Another file is tracked if a project offers it when new files are looked for. -/
theorem Keyed.mem_survey_of_new (h : t.Keyed) (hk : k ∉ t.seen) :
    k ∈ (t.survey s scan).2.seen ↔
      scan = true ∧ ∃ p, t.projects[p.name]? = some p ∧ s.Offers p k := by
  rw [Std.TreeMap.mem_iff_isSome_getElem?, h.seen_survey, if_neg hk, Option.isSome_map,
    List.find?_isSome]
  have happeared := h.place_mem_appeared (s := s) (k := k)
  rw [List.mem_map, and_iff_right hk] at happeared
  cases scan with
  | false => simp
  | true => simpa using happeared

/-- What a survey leaves in track is not missing, and looks as it is recorded. -/
theorem Keyed.look_survey (h : t.Keyed) (hf : (t.survey s scan).2.seen[k]? = some (p, f)) :
    s.fingerprint p ≠ .error .missing ∧ ∀ look, s.fingerprint p = .ok look → f = look := by
  rw [h.seen_survey] at hf
  by_cases hk : k ∈ t.seen
  · rw [if_pos hk] at hf
    obtain ⟨⟨q, old⟩, -, hlooked⟩ := Option.bind_eq_some_iff.mp hf
    unfold looked at hlooked
    dsimp only at hlooked
    split at hlooked
    · next look hlook =>
      cases hlooked
      simp [hlook]
    · cases hlooked
    · next hfolder =>
      cases hlooked
      simp [hfolder]
  · rw [if_neg hk] at hf
    obtain ⟨e, he, heq⟩ := Option.map_eq_some_iff.mp hf
    cases heq
    have hmem := List.mem_of_find?_eq_some he
    split_ifs at hmem
    · obtain ⟨-, -, -, -, -, -, hlook⟩ := h.mem_appeared.mp hmem
      simp [hlook]
    · cases hmem

/-- What is tracked afterwards is told by the events. -/
theorem Keyed.mem_survey (h : t.Keyed) (s : Sources) (scan : Bool) (k : Place) :
    k ∈ (t.survey s scan).2.seen ↔
      (k ∈ t.seen ∧ ∀ e ∈ (t.survey s scan).1, e.change = .deleted → e.path.place ≠ k) ∨
        ∃ e ∈ (t.survey s scan).1, e.path.place = k ∧ e.change = .created := by
  have hdetects := h.detects_survey s scan
  rw [hdetects.created]
  by_cases hk : k ∈ t.seen
  · obtain ⟨⟨p, f⟩, hf⟩ := Option.isSome_iff_exists.mp (Std.TreeMap.mem_iff_isSome_getElem?.mp hk)
    obtain rfl : p.place = k := h.seen k _ hf
    rw [h.mem_survey_of_seen hf, and_iff_right hk, or_iff_left fun hnew => hnew.2.1 hk]
    constructor
    · rintro hfound e he hdeleted hplace
      obtain ⟨⟨g, hg⟩, hmissing⟩ := (hdetects.deleted e.path).mp ⟨e, he, rfl, hdeleted⟩
      rw [hplace, hf] at hg
      cases hg
      exact hfound hmissing
    · rintro hnone hmissing
      obtain ⟨e, he, hpath, hdeleted⟩ := (hdetects.deleted p).mpr ⟨⟨f, hf⟩, hmissing⟩
      exact hnone e he hdeleted (by rw [hpath])
  · rw [h.mem_survey_of_new hk]
    simp [hk]

/-- A survey settles. A file that is gone cannot be found again by another spelling of its path. -/
theorem Keyed.settled_survey (h : t.Keyed) (tree : FileTree) (hs : s.fingerprint = tree.fingerprint)
    (scan : Bool) : (t.survey s scan).2.Settled s scan := by
  refine ⟨fun k p f hf => (h.look_survey hf).1, fun k p f look hf => (h.look_survey hf).2 look,
    fun hscan p k hp hoffers => ?_⟩
  rw [(h.survey s scan).2] at hp
  by_cases hk : k ∈ t.seen
  · obtain ⟨⟨q, f⟩, hf⟩ := Option.isSome_iff_exists.mp (Std.TreeMap.mem_iff_isSome_getElem?.mp hk)
    rw [h.mem_survey_of_seen hf]
    intro hmissing
    obtain ⟨files, -, q', -, hplace, -, look, hlook⟩ := hoffers
    have hsame : q.place = q'.place := (h.seen k _ hf).trans hplace.symm
    rw [hs, FileTree.fingerprint_eq_missing_congr hsame, ← hs, hlook] at hmissing
    cases hmissing
  · exact (h.mem_survey_of_new hk).mpr ⟨hscan, p, hp, hoffers⟩

end Tracking

/-! ## Looking for changes -/

/-- A listener that leaves alone what is tracked and how files are looked for. -/
def FileListener.LooksOn {σ : Type} (listen : FileListener σ) : Prop :=
  ∀ e us, (listen e us).1.tracking = us.1.tracking ∧ (listen e us).1.settings = us.1.settings

namespace Updater

variable {σ : Type} {u : Updater} {listen : FileListener σ} {s : Sources}

/-- An updater as it can be between two calls. -/
inductive Reached : Updater → Prop
  | new (settings : Settings) (dependencies : ProjectGraph) : Reached (new settings dependencies)
  | move {u : Updater} (h : Reached u) (m : Move) : Reached (u.move m)
  | shutdown {u : Updater} (h : Reached u) : Reached u.shutdown

theorem Reached.keyed (h : u.Reached) : u.tracking.Keyed := by
  induction h with
  | new settings dependencies => exact Tracking.keyed_empty
  | move _ m ih => exact keyed_move ih m
  | shutdown _ _ => exact Tracking.keyed_empty

theorem detecting_submit (u : Updater) (events : List FileEvent) :
    (u.submit events).detecting = u.detecting := by
  unfold submit start
  split_ifs <;> rfl

theorem settings_submit (u : Updater) (events : List FileEvent) :
    (u.submit events).settings = u.settings := by
  unfold submit start
  split_ifs <;> rfl

/-- Only looking for changes sets the mark that it is going on, and takes it back at the end. -/
theorem detecting_move (h : u.detecting = false) (m : Move) : (u.move m).detecting = false := by
  cases m with
  | register s p =>
      unfold move register
      dsimp only
      cases u.tracking.register s p <;> exact h
  | detect s =>
      unfold move detect
      dsimp only
      rw [if_neg (by simp [h])]
  | notify s p c =>
      unfold move
      dsimp only
      rw [notify_eq]
      unfold enqueue
      split_ifs
      · exact h
      · exact (detecting_submit _ _).trans h
      · unfold hold
        dsimp only
        split_ifs <;> exact h
  | fire => exact (detecting_submit _ _).trans h
  | parse s id => exact h
  | apply x id =>
      unfold move Updater.apply
      dsimp only
      split
      · exact h
      · split
        · exact h
        · dsimp only
          unfold finish
          split_ifs <;> exact h

theorem Reached.detecting (h : u.Reached) : u.detecting = false := by
  induction h with
  | new settings dependencies => rfl
  | move _ m ih => exact detecting_move ih m
  | shutdown _ ih => exact ih

theorem broadcast_of_looksOn (hlisten : listen.LooksOn) (events : List FileEvent)
    (us : Updater × σ) : (broadcast listen events us).1.tracking = us.1.tracking ∧
      (broadcast listen events us).1.settings = us.1.settings := by
  unfold broadcast
  refine List.foldlRecOn (motive := fun v : Updater × σ =>
    v.1.tracking = us.1.tracking ∧ v.1.settings = us.1.settings) events _ ⟨rfl, rfl⟩
    fun v hv e _ => ?_
  obtain ⟨htracking, hsettings⟩ := hlisten e v
  exact ⟨htracking.trans hv.1, hsettings.trans hv.2⟩

/-- A search for changes takes in what the survey detects. -/
theorem detect_eq (h : u.detecting = false) (hlisten : listen.LooksOn) (s : Sources) (memory : σ) :
    ∃ v later, detect s listen (u, memory) =
        (some (u.tracking.survey s u.settings.scan).1, v, later) ∧
      v.tracking = (u.tracking.survey s u.settings.scan).2 ∧ v.settings = u.settings ∧
      v.detecting = false := by
  unfold detect
  dsimp only
  rw [if_neg (by simp [h])]
  refine ⟨_, _, rfl, ?_⟩
  dsimp only
  rw [(submit_keeps _ _).2, settings_submit]
  split_ifs
  · exact ⟨rfl, rfl, rfl⟩
  · obtain ⟨htracking, hsettings⟩ := broadcast_of_looksOn hlisten
      (u.tracking.survey s u.settings.scan).1 ({ u with
        tracking := (u.tracking.survey s u.settings.scan).2
        stats := { u.stats with cyclesRun := u.stats.cyclesRun + 1 }
        detecting := true }, memory)
    exact ⟨htracking, hsettings, rfl⟩

/-- Where nothing is detected nothing is done but to count the search. -/
theorem detect_of_survey_eq (h : u.detecting = false)
    (hsurvey : u.tracking.survey s u.settings.scan = ([], u.tracking)) (listen : FileListener σ)
    (memory : σ) :
    detect s listen (u, memory) =
      (some [], { u with stats := { u.stats with cyclesRun := u.stats.cyclesRun + 1 } },
        memory) := by
  unfold detect
  dsimp only
  rw [if_neg (by simp [h]), hsurvey, ← h]
  simp only [List.isEmpty_nil, if_true, submit_nil]

/-- Looking for changes is exact and settles. Between two calls, an updater that looks for changes
detects exactly the tracked files that are gone, those that look different and, if it looks for new
files, those that registered projects offer, each once and in the order of their paths. It then
tracks all but those that are gone and the new ones, as they look now. If the files do not change
meanwhile then looking again detects nothing and does nothing. -/
theorem detect_exact (manager : Sources) (tree : FileTree) (hu : u.Reached)
    (hlisten : listen.LooksOn) (memory : σ) :
    let s : Sources := { manager with fingerprint := tree.fingerprint }
    ∃ events v later, detect s listen (u, memory) = (some events, v, later) ∧
      u.tracking.Detects s u.settings.scan events ∧
      (∀ k, k ∈ v.tracking.seen ↔
        (k ∈ u.tracking.seen ∧ ∀ e ∈ events, e.change = .deleted → e.path.place ≠ k) ∨
          ∃ e ∈ events, e.path.place = k ∧ e.change = .created) ∧
      (∀ (k : Place) p f look, v.tracking.seen[k]? = some (p, f) →
        s.fingerprint p = .ok look → f = look) ∧
      detect s listen (v, later) =
        (some [], { v with stats := { v.stats with cyclesRun := v.stats.cyclesRun + 1 } },
          later) := by
  intro s
  have hkeyed := hu.keyed
  obtain ⟨v, later, hdetect, htracking, hsettings, hdetecting⟩ :=
    detect_eq hu.detecting hlisten s memory
  have hsettled : v.tracking.Settled s v.settings.scan := by
    rw [htracking, hsettings]
    exact hkeyed.settled_survey tree rfl u.settings.scan
  refine ⟨_, v, later, hdetect, hkeyed.detects_survey s u.settings.scan, ?_, hsettled.current, ?_⟩
  · rw [htracking]
    exact hkeyed.mem_survey s u.settings.scan
  · refine detect_of_survey_eq hdetecting (hsettled.survey_eq ?_) listen later
    rw [htracking]
    exact (hkeyed.survey s u.settings.scan).1

/-- One file is deleted, one is written again, and one is new that two projects have. -/
theorem detect_exact_of_three_files :
    let folder : FileTree := { nodes := .ofList [(["r"], FileNode.folder 0)] }
    let before := (folder.put ["r", "a.sym"] (.file "" 1)).put ["r", "b.sym"] (.file "" 2)
    let after := (folder.put ["r", "b.sym"] (.file "x" 3)).put ["r", "c.sym"] (.file "" 4)
    let first : Sources := { nestedSources with
      list := fun _ => .ok [⟨"r/a.sym"⟩, ⟨"r/b.sym"⟩], fingerprint := before.fingerprint }
    let manager : Sources := { nestedSources with
      list := fun _ => .ok [⟨"r/b.sym"⟩, ⟨"r/c.sym"⟩] }
    let p : Project := { name := "P", root := ⟨"r"⟩ }
    let q : Project := { name := "Q", root := ⟨"r"⟩ }
    let u := (new { scan := true } {}).run [.register first p, .register first q]
    let s : Sources := { manager with fingerprint := after.fingerprint }
    ∃ events v, detect s (fun _ us => us) (u, ()) = (some events, v, ()) ∧
      (∃ e ∈ events, e.path = ⟨"r/a.sym"⟩ ∧ e.change = .deleted) ∧
      (∃ e ∈ events, e.path = ⟨"r/b.sym"⟩ ∧ e.change = .contentChanged) ∧
      (∃ e ∈ events, e.path.place = [.name "r", .name "c.sym"] ∧ e.change = .created) ∧
      (detect s (fun _ us => us) (v, ())).1 = some [] := by
  intro folder before after first manager p q u s
  have hu : u.Reached :=
    .move (.move (.new { scan := true } {}) (.register first p)) (.register first q)
  have hlisten : FileListener.LooksOn (fun _ us => us : FileListener Unit) := fun _ _ => ⟨rfl, rfl⟩
  obtain ⟨events, v, later, hdetect, hdetects, -, -, hagain⟩ :=
    detect_exact manager after hu hlisten ()
  refine ⟨events, v, hdetect, ?_, ?_, ?_, congrArg Prod.fst hagain⟩
  · refine (hdetects.deleted ⟨"r/a.sym"⟩).mpr ⟨⟨{ modified := 1, size := 0 }, ?_⟩, ?_⟩
    · decide +kernel
    · rfl
  · refine (hdetects.altered ⟨"r/b.sym"⟩).mpr ⟨{ modified := 3, size := 1 },
      ⟨{ modified := 2, size := 0 }, ?_, by decide⟩, ?_⟩
    · decide +kernel
    · rfl
  · have hfinds : first.Finds q [.name "r", .name "b.sym"] :=
      ⟨_, rfl, ⟨"r/b.sym"⟩, by simp, by decide +kernel, { modified := 2, size := 0 }, rfl⟩
    refine (hdetects.created _).mpr ⟨rfl, by decide +kernel, q, (register_gives hfinds).1, _, rfl,
      ⟨"r/c.sym"⟩, by simp, by decide +kernel, rfl, { modified := 4, size := 0 }, rfl⟩

end Updater

end SymbolAtlas
