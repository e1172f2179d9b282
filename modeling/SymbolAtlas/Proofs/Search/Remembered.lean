import SymbolAtlas.Proofs.Index.Refinement
import SymbolAtlas.Search.Searcher

/-!
# Remembered results

A searcher answers as if it remembered nothing. Lists are remembered under the generation of the
index, no two states of an index have one generation, and so a list that is found again is the list
of the present state. It is never found for other options or another query.
-/

namespace SymbolAtlas

variable {σ : Type}

/-! ## Generations -/

namespace Snapshot

theorem generation_foldl_insert (symbols : List Symbol) (x : Snapshot) :
    (symbols.foldl insert x).generation = x.generation := by
  induction symbols generalizing x with
  | nil => rfl
  | cons s rest ih => exact ih (x.insert s)

/-- Every change of the index raises its generation by one. -/
theorem generation_change (x : Snapshot) (c : IndexChange) :
    (x.change c).generation = x.generation + 1 := by
  cases c with
  | rebuild c =>
      unfold change rebuild ofSymbols
      rw [generation_foldl_insert]
  | replace files symbols => rfl
  | remove files => rfl
  | clear => rfl

end Snapshot

/-! ## What a searcher remembers -/

namespace Searcher

variable {r : Searcher σ} {x : Snapshot}

/-- Remembering makes room first where there are too many lists. -/
theorem size_remember_le (r : Searcher σ) (key : SearchKey σ) (hits : List (Hit σ)) :
    (r.remember key hits).size ≤ limit := by
  unfold remember size
  rw [List.length_cons]
  split_ifs with hfull
  · simp [limit]
  · exact Nat.lt_of_not_le hfull

theorem mem_of_mem_remember {key : SearchKey σ} {hits : List (Hit σ)}
    {e : SearchKey σ × List (Hit σ)} (he : e ∈ (r.remember key hits).results) :
    e = (key, hits) ∨ e ∈ r.results := by
  unfold remember at he
  rcases List.mem_cons.mp he with rfl | hold
  · exact .inl rfl
  · split_ifs at hold
    · simp at hold
    · exact .inr hold

theorem mem_of_find? [DecidableEq σ] {key : SearchKey σ} {hits : List (Hit σ)}
    (h : r.find? key = some hits) : (key, hits) ∈ r.results := by
  obtain ⟨e, he, rfl⟩ := Option.map_eq_some_iff.mp h
  have hkey : e.1 = key := by simpa using List.find?_some he
  rw [← hkey]
  exact List.mem_of_find?_eq_some he

/-- The searcher at the beginning of a search: it has forgotten what it found for other states. -/
def refreshed (r : Searcher σ) (x : Snapshot) : Searcher σ :=
  if r.generation = x.generation then r else { results := [], generation := x.generation }

theorem generation_refreshed (r : Searcher σ) (x : Snapshot) :
    (r.refreshed x).generation = x.generation := by
  unfold refreshed
  split_ifs with h
  · exact h
  · rfl

variable [Score σ]

/-- A searcher that remembers nothing but what it found for one state of an index, which is the
present one unless the index has changed since. -/
structure Faithful (r : Searcher σ) (x : Snapshot) : Prop where
  generation_le : r.generation ≤ x.generation
  keyed : ∀ e ∈ r.results, e.1.generation = r.generation
  found : r.generation = x.generation →
    ∀ e ∈ r.results, e.2 = Search.run x e.1.query e.1.options
  size_le : r.size ≤ limit

theorem faithful_new (x : Snapshot) : Faithful ({} : Searcher σ) x where
  generation_le := Nat.zero_le _
  keyed := by simp
  found := by simp
  size_le := Nat.zero_le _

theorem Faithful.clear (h : r.Faithful x) : r.clear.Faithful x where
  generation_le := h.generation_le
  keyed := by simp [Searcher.clear]
  found := by simp [Searcher.clear]
  size_le := Nat.zero_le _

/-- What was found before a change of the index is of an older generation. -/
theorem Faithful.change (h : r.Faithful x) (c : IndexChange) : r.Faithful (x.change c) := by
  have hlt : r.generation < (x.change c).generation := by
    rw [Snapshot.generation_change]
    exact Nat.lt_succ_of_le h.generation_le
  exact ⟨Nat.le_of_lt hlt, h.keyed, fun heq => absurd heq (Nat.ne_of_lt hlt), h.size_le⟩

theorem Faithful.refreshed (h : r.Faithful x) : (r.refreshed x).Faithful x := by
  unfold Searcher.refreshed
  split_ifs
  · exact h
  · exact ⟨le_rfl, by simp, by simp, Nat.zero_le _⟩

/-- The list of a search of the present state can be remembered. -/
theorem Faithful.remember (h : r.Faithful x) (hr : r.generation = x.generation) (query : String)
    (o : SearchOptions σ) :
    (r.remember ⟨x.generation, query, o⟩ (Search.run x query o)).Faithful x := by
  refine ⟨h.generation_le, fun e he => ?_, fun _ e he => ?_, size_remember_le r _ _⟩
  · rcases mem_of_mem_remember he with rfl | hold
    · exact hr.symm
    · exact h.keyed e hold
  · rcases mem_of_mem_remember he with rfl | hold
    · rfl
    · exact h.found hr e hold

variable [DecidableEq σ]

theorem search_eq (r : Searcher σ) (x : Snapshot) (query : String) (o : SearchOptions σ) :
    let key : SearchKey σ := ⟨x.generation, Text.trim query, o⟩
    r.search x query o = match (r.refreshed x).find? key with
      | some hits => (hits, r.refreshed x)
      | none => (Search.run x key.query o,
          (r.refreshed x).remember key (Search.run x key.query o)) := rfl

/-- A search answers what the present state has for the query, and remembers lists of this state
only. -/
theorem Faithful.search (h : r.Faithful x) (query : String) (o : SearchOptions σ) :
    (r.search x query o).1 = Search.run x (Text.trim query) o ∧
    (r.search x query o).2.Faithful x ∧
    (r.search x query o).2.generation = x.generation := by
  have hgeneration := generation_refreshed r x
  rw [search_eq]
  cases hfind : (r.refreshed x).find? ⟨x.generation, Text.trim query, o⟩ with
  | some hits =>
      refine ⟨?_, h.refreshed, hgeneration⟩
      exact h.refreshed.found hgeneration _ (mem_of_find? hfind)
  | none =>
      dsimp only
      exact ⟨rfl, h.refreshed.remember hgeneration _ o, hgeneration⟩

end Searcher

/-! ## Searching while the index changes -/

/-- An index with a searcher for it. -/
structure SearchDesk (σ : Type) where
  index : Snapshot
  searcher : Searcher σ := {}

/-- What is done with an index and its searcher. -/
inductive SearchMove (σ : Type) where
  | change (c : IndexChange)
  | search (query : String) (o : SearchOptions σ)
  | forget

namespace SearchDesk

variable [Score σ] [DecidableEq σ]

def move (d : SearchDesk σ) : SearchMove σ → SearchDesk σ
  | .change c => { d with index := d.index.change c }
  | .search query o => { d with searcher := (d.searcher.search d.index query o).2 }
  | .forget => { d with searcher := d.searcher.clear }

def run (d : SearchDesk σ) (moves : List (SearchMove σ)) : SearchDesk σ := moves.foldl move d

theorem faithful_move {d : SearchDesk σ} (h : d.searcher.Faithful d.index) (m : SearchMove σ) :
    (d.move m).searcher.Faithful (d.move m).index := by
  cases m with
  | change c => exact h.change c
  | search query o => exact (h.search query o).2.1
  | forget => exact h.clear

theorem faithful_run {d : SearchDesk σ} (h : d.searcher.Faithful d.index)
    (moves : List (SearchMove σ)) : (d.run moves).searcher.Faithful (d.run moves).index := by
  induction moves generalizing d with
  | nil => exact h
  | cons m rest ih => exact ih (faithful_move h m)

/-- The generation grows with every change of the index, and only changes change the index. -/
theorem generation_run (d : SearchDesk σ) (moves : List (SearchMove σ)) :
    ((∃ c, .change c ∈ moves) ∧ d.index.generation < (d.run moves).index.generation) ∨
      (¬ (∃ c, .change c ∈ moves) ∧ (d.run moves).index = d.index) := by
  induction moves generalizing d with
  | nil => exact .inr ⟨by simp, rfl⟩
  | cons m rest ih =>
      change _ ∧ _ < ((d.move m).run rest).index.generation ∨ _ ∧ ((d.move m).run rest).index = _
      cases m with
      | change c =>
          left
          have hlt : d.index.generation < (d.move (.change c)).index.generation := by
            change _ < (d.index.change c).generation
            rw [Snapshot.generation_change]
            exact Nat.lt_succ_self _
          refine ⟨⟨c, List.mem_cons_self⟩, ?_⟩
          rcases ih (d.move (.change c)) with ⟨-, hlater⟩ | ⟨-, hsame⟩
          · exact Nat.lt_trans hlt hlater
          · rw [hsame]
            exact hlt
      | search query o =>
          have hsame : (d.move (.search query o)).index = d.index := rfl
          simpa [hsame] using ih (d.move (.search query o))
      | forget =>
          have hsame : (d.move .forget).index = d.index := rfl
          simpa [hsame] using ih (d.move .forget)

/-- Remembered results do not show. However an index was changed and searched, a search answers what
the strategies find in its present state for the query without the blanks around it. After it only
lists of the present generation are remembered, and not too many. A generation grows with every
change, so it never stands for two states. -/
theorem search_run (x : Snapshot) (moves : List (SearchMove σ)) :
    let d := run ⟨x, {}⟩ moves
    (∀ query o, let answer := d.searcher.search d.index query o
      answer.1 = Search.run d.index (Text.trim query) o ∧
      (∀ e ∈ answer.2.results, e.1.generation = d.index.generation) ∧ answer.2.size ≤ 1024) ∧
    ∀ later, (∀ c, .change c ∈ later → d.index.generation < (d.run later).index.generation) ∧
      ((d.run later).index.generation = d.index.generation → (d.run later).index = d.index) := by
  intro d
  have hfaithful : d.searcher.Faithful d.index := faithful_run (Searcher.faithful_new x) moves
  refine ⟨fun query o => ?_, fun later => ?_⟩
  · obtain ⟨hanswer, hafter, hgeneration⟩ := hfaithful.search query o
    refine ⟨hanswer, fun e he => ?_, hafter.size_le⟩
    rw [hafter.keyed e he, hgeneration]
  · rcases generation_run d later with ⟨-, hlt⟩ | ⟨hnone, hsame⟩
    · exact ⟨fun _ _ => hlt, fun heq => absurd heq.symm (Nat.ne_of_lt hlt)⟩
    · exact ⟨fun c hc => absurd ⟨c, hc⟩ hnone, fun _ => hsame⟩

end SearchDesk

end SymbolAtlas
