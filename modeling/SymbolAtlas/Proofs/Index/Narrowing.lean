import SymbolAtlas.Proofs.Index.Conditions

/-!
# Queries with more conditions

Whatever two queries start from, the one with more conditions finds fewer symbols. An empty
beginning of names is the exception. No name has it where a query starts from it, but to symbols
that come from another group it is a condition that all of them satisfy.
-/

namespace SymbolAtlas

namespace Query

/-- Whether a query has all conditions of another one, and perhaps more. A file may be spelled in
another way. -/
structure Extends (q' q : Query) : Prop where
  qualifiedName : ∀ f, q.qualifiedName = some f → q'.qualifiedName = some f
  name : ∀ n, q.name = some n → q'.name = some n
  start : ∀ p, q.start = some p → q'.start = some p
  kind : ∀ k, q.kind = some k → q'.kind = some k
  project : ∀ p, q.project = some p → q'.project = some p
  file : ∀ f, q.file = some f → ∃ f', q'.file = some f' ∧ f'.place = f.place
  namePattern : ∀ w, q.namePattern = some w → q'.namePattern = some w

/-- Whether the answer starts from the names with an empty beginning, of which there are none. -/
structure StartsNowhere (q : Query) : Prop where
  qualifiedName : q.qualifiedName = none
  file : q.file = none
  name : q.name = none
  start : q.start = some ""

variable {q q' : Query} {test test' : String → Bool} {s : Symbol}

/-- A query has an answer if its pattern can be read. -/
theorem exists_tests (h : ∀ w, q.namePattern = some w → ∃ p, Pattern.parse true w = .ok p) :
    ∃ test, q.Tests test := by
  unfold Tests
  cases hpattern : q.namePattern with
  | none => exact ⟨_, rfl⟩
  | some w =>
      obtain ⟨p, hp⟩ := h w hpattern
      exact ⟨p.isMatch, p, hp, rfl⟩

theorem Extends.exists_tests (h : q'.Extends q) (htests : q'.Tests test') :
    ∃ test, q.Tests test ∧ ∀ name, test' name = true → test name = true := by
  cases hpattern : q.namePattern with
  | none =>
      refine ⟨fun _ => true, ?_, fun _ _ => rfl⟩
      unfold Tests
      rw [hpattern]
  | some w =>
      refine ⟨test', ?_, fun _ hname => hname⟩
      unfold Tests at htests ⊢
      rw [h.namePattern w hpattern] at htests
      rw [hpattern]
      exact htests

/-- What satisfies more conditions satisfies fewer. -/
theorem Extends.satisfied (h : q'.Extends q)
    (htest : ∀ name, test' name = true → test name = true) (hs : q'.Satisfied test' s) :
    q.Satisfied test s where
  qualifiedName f hf := hs.qualifiedName f (h.qualifiedName f hf)
  file f hf := by
    obtain ⟨f', hf', hplace⟩ := h.file f hf
    rw [hs.file f' hf', hplace]
  name n hn := hs.name n (h.name n hn)
  start p hp := hs.start p (h.start p hp)
  project p hp := hs.project p (h.project p hp)
  kind k hk := hs.kind k (h.kind k hk)
  pattern := htest _ hs.pattern

/-- Every name has an empty beginning. -/
theorem accepts_of_empty_start (h : q.start = some "") :
    q.accepts test s = { q with start := none }.accepts test s := by
  unfold accepts
  rw [h]
  rfl

end Query

namespace Snapshot

variable {x : Snapshot} {l : List Symbol} {q q' : Query} {test test' : String → Bool} {s : Symbol}

theorem query_eq_ok (h : q.Tests test) : x.query q = .ok (x.select q test) := by
  unfold Query.Tests at h
  unfold query
  cases hpattern : q.namePattern with
  | none =>
      rw [hpattern] at h
      rw [h]
  | some w =>
      rw [hpattern] at h
      obtain ⟨p, hp, rfl⟩ := h
      dsimp only
      rw [hp]

theorem select_of_startsNowhere (h : q.StartsNowhere) : x.select q test = [] := by
  have hcandidates : x.candidates q = [] := by
    unfold candidates
    rw [h.qualifiedName, h.file, h.name, h.start]
    rfl
  unfold select
  rw [hcandidates, List.filter_nil]

/-- An empty beginning asks nothing of symbols that come from another group. -/
theorem select_of_empty_start (hstart : q.start = some "") (h : ¬ q.StartsNowhere) :
    x.select q test = x.select { q with start := none } test := by
  have hcandidates : x.candidates q = x.candidates { q with start := none } := by
    unfold candidates
    dsimp only
    cases hqualified : q.qualifiedName with
    | some f => rfl
    | none =>
    cases hfile : q.file with
    | some f => rfl
    | none =>
    cases hname : q.name with
    | some n => rfl
    | none => exact absurd ⟨hqualified, hfile, hname, hstart⟩ h
  unfold select
  rw [hcandidates]
  exact List.filter_congr fun s _ => Query.accepts_of_empty_start hstart

/-- A query that does not start nowhere finds all that satisfies its conditions. -/
theorem Represents.mem_select_iff (h : x.Represents l) (hq : q.qualifiedName = none)
    (hstart : ¬ q.StartsNowhere) (test : String → Bool) :
    s ∈ x.select q test ↔ s ∈ l ∧ q.Satisfied test s := by
  rw [← Query.accepts_iff, ← List.mem_filter]
  by_cases hempty : q.start = some ""
  · have hselect := h.perm_select (q := { q with start := none }) hq (by simp) test
    rw [select_of_empty_start hempty hstart, hselect.mem_iff,
      List.filter_congr fun s _ => Query.accepts_of_empty_start hempty]
  · exact (h.perm_select hq hempty test).mem_iff

/-- All that is found is in the index and satisfies the conditions. -/
theorem Represents.of_mem_select (h : x.Represents l) (hs : s ∈ x.select q test) :
    s ∈ l ∧ q.Satisfied test s := by
  have haccepts : q.Satisfied test s := Query.accepts_iff.mp (List.mem_filter.mp hs).2
  cases hqualified : q.qualifiedName with
  | some f =>
      have hcandidate := (List.mem_filter.mp hs).1
      unfold candidates at hcandidate
      rw [hqualified] at hcandidate
      exact ⟨(h.owner f s (Option.mem_toList.mp hcandidate)).1, haccepts⟩
  | none =>
      by_cases hstart : q.StartsNowhere
      · rw [select_of_startsNowhere hstart] at hs
        cases hs
      · exact (h.mem_select_iff hqualified hstart test).mp hs

/-- With more conditions nothing else is found, unless the fewer conditions start nowhere. -/
theorem Represents.mem_select_of_extends (h : x.Represents l) (hq : q'.Extends q)
    (htest : ∀ name, test' name = true → test name = true) (hstart : ¬ q.StartsNowhere)
    (hs : s ∈ x.select q' test') : s ∈ x.select q test := by
  obtain ⟨hl, hsatisfied⟩ := h.of_mem_select hs
  have hfewer := hq.satisfied htest hsatisfied
  cases hqualified : q.qualifiedName with
  | some f =>
      -- Both start from the owner of the qualified name.
      have hcandidate := (List.mem_filter.mp hs).1
      refine List.mem_filter.mpr ⟨?_, Query.accepts_iff.mpr hfewer⟩
      unfold candidates at hcandidate ⊢
      rw [hq.qualifiedName f hqualified] at hcandidate
      rw [hqualified]
      exact hcandidate
  | none => exact (h.mem_select_iff hqualified hstart test).mpr ⟨hl, hfewer⟩

/-- More conditions find fewer symbols, but for an empty beginning. After any changes, both of two
queries have an answer if the pattern of the one with more conditions can be read. What this one
finds is found by the other too, if and only if it finds nothing or the other does not start
nowhere. A query that starts nowhere finds nothing, and the one with more conditions, if it starts
from something else, finds what it would find without the empty beginning. -/
theorem query_narrows (changes : List IndexChange) {q q' : Query} (hq : q'.Extends q)
    (hpattern : ∀ w, q'.namePattern = some w → ∃ p, Pattern.parse true w = .ok p) :
    let x := after changes
    ∃ found found', x.query q = .ok found ∧ x.query q' = .ok found' ∧
      ((∀ s ∈ found', s ∈ found) ↔ (q.StartsNowhere → found' = [])) ∧
      (q.StartsNowhere → found = [] ∧
        (¬ q'.StartsNowhere → x.query { q' with start := none } = .ok found')) := by
  intro x
  have h : x.Represents (IndexChange.after changes) := (represents_empty 0).foldl_change changes
  obtain ⟨test', htests'⟩ := Query.exists_tests hpattern
  obtain ⟨test, htests, htest⟩ := hq.exists_tests htests'
  refine ⟨_, _, query_eq_ok htests, query_eq_ok htests', ⟨fun hall hnowhere => ?_, fun hnone => ?_⟩,
    fun hnowhere => ⟨select_of_startsNowhere hnowhere, fun hstart => ?_⟩⟩
  · rw [select_of_startsNowhere hnowhere] at hall
    exact List.eq_nil_iff_forall_not_mem.mpr fun s hs => List.not_mem_nil (hall s hs)
  · intro s hs
    by_cases hnowhere : q.StartsNowhere
    · rw [hnone hnowhere] at hs
      cases hs
    · exact h.mem_select_of_extends hq htest hnowhere hs
  · rw [select_of_empty_start (hq.start "" hnowhere.start) hstart]
    exact query_eq_ok htests'

/-- A query for an empty beginning finds nothing, but with a name it finds the symbols of the
name. -/
theorem query_narrows_of_empty_start :
    let map : Symbol := { name := "Map", kind := .classType, file := ⟨"a.sym"⟩, project := "P" }
    let x := after [.replace [⟨"a.sym"⟩] [map]]
    let q : Query := { start := some "" }
    let q' : Query := { start := some "", name := some "Map" }
    q'.Extends q ∧ x.query q = .ok [] ∧ x.query q' = .ok [map] := by
  intro map x q q'
  have hq : q'.Extends q := by
    constructor <;> simp [q, q']
  obtain ⟨found, found', hfound, hfound', -, hnowhere⟩ :=
    query_narrows [.replace [⟨"a.sym"⟩] [map]] hq (by simp [q'])
  obtain ⟨rfl, hwithout⟩ := hnowhere ⟨rfl, rfl, rfl, rfl⟩
  have hstart : ¬ q'.StartsNowhere := fun h => Option.some_ne_none _ h.name
  refine ⟨hq, hfound, ?_⟩
  rw [hfound', ← hwithout hstart]
  decide +kernel

end Snapshot

end SymbolAtlas
