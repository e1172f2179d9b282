import SymbolAtlas.Proofs.Search.Answer
import SymbolAtlas.Proofs.Text.Lowercase

/-!
# Searching by beginnings

The rule for beginnings scores a symbol by its name and by the segments of its qualified name. A
search asks it only about the symbols whose names start with the query, letter case apart. So the
scores for segments never count where letter case does not, and where it does a name can be missed
whose letters change with what follows them.
-/

namespace SymbolAtlas

/-- Options of a search for beginnings and nothing else. -/
structure SearchOptions.OnlyByPrefix {σ : Type} (o : SearchOptions σ) : Prop where
  exact : o.exact = false
  byPrefix : o.byPrefix = true
  fuzzy : o.fuzzy = false
  byPattern : o.byPattern = false

namespace Search

variable {σ : Type} [Score σ] {x : Snapshot} {l symbols : List Symbol} {query : String}
  {o : SearchOptions σ} {h : Hit σ} {s : Symbol}

/-- The hits of all admitted symbols that the rule for beginnings scores enough. -/
structure RankedByPrefix (x : Snapshot) (query : String) (o : SearchOptions σ) (h : Hit σ) :
    Prop where
  mem : h.symbol ∈ x.symbols
  score : prefixScore? h.symbol query o.caseSensitive = some h.score
  accepts : Accepts o h
  strategy : h.strategy = .byPrefix

/-! ## Scores -/

theorem foldCase_false (s : String) : foldCase false s = Text.lowercaseLetters s := rfl

/-- The two highest scores are for names. -/
theorem score_of_starts {caseSensitive : Bool} {v : σ}
    (hscore : prefixScore? s query caseSensitive = some v)
    (hstarts : foldCase caseSensitive query <+: foldCase caseSensitive s.name) :
    v = Score.tenths 10 ∨ v = Score.tenths 9 := by
  unfold prefixScore? at hscore
  simp only [List.isPrefixOf_iff_prefix] at hscore
  by_cases hname : foldCase caseSensitive s.name = foldCase caseSensitive query
  · rw [if_pos hname] at hscore
    exact .inl (Option.some.inj hscore).symm
  · rw [if_neg hname, if_pos hstarts] at hscore
    exact .inr (Option.some.inj hscore).symm

/-- The others are for segments. -/
theorem score_of_not_starts {caseSensitive : Bool} {v : σ}
    (hscore : prefixScore? s query caseSensitive = some v)
    (hstarts : ¬ foldCase caseSensitive query <+: foldCase caseSensitive s.name) :
    v = Score.tenths 8 ∨ v = Score.tenths 7 := by
  unfold prefixScore? at hscore
  simp only [List.isPrefixOf_iff_prefix] at hscore
  have hname : foldCase caseSensitive s.name ≠ foldCase caseSensitive query := by
    intro heq
    rw [heq] at hstarts
    exact hstarts (List.prefix_refl _)
  rw [if_neg hname, if_neg hstarts] at hscore
  split_ifs at hscore
  · exact .inl (Option.some.inj hscore).symm
  · exact .inr (Option.some.inj hscore).symm

/-! ## What is found -/

theorem mem_hitsBy_prefixRule :
    h ∈ hitsBy o [prefixRule query o] x.symbols ↔ RankedByPrefix x query o h ∧
      Text.lowercaseLetters query <+: Text.lowercaseLetters h.symbol.name := by
  rw [mem_hitsBy, firstHit?, List.findSome?_singleton, hit?_eq_some]
  change _ ∧ _ ∧ (if _ then _ else none) = some h.score ∧ _ ∧ _ ↔ _
  rw [Option.ite_none_right_eq_some]
  constructor
  · rintro ⟨hmem, -, ⟨hstarts, hscore⟩, hstrategy, haccepts⟩
    exact ⟨⟨hmem, hscore, haccepts, hstrategy⟩, hstarts⟩
  · rintro ⟨⟨hmem, hscore, haccepts, hstrategy⟩, hstarts⟩
    exact ⟨hmem, rfl, ⟨hstarts, hscore⟩, hstrategy, haccepts⟩

/-- A search for beginnings gathers what their rule finds. -/
theorem gathered_prefixRule (hx : x.Represents l) (hquery : query ≠ "") (ho : o.OnlyByPrefix) :
    Gathered o x.symbols [prefixRule query o] (gather x symbols query o) := by
  have hfinds := (finds_starting hx hquery o).perm (perm_sortBy Hit.offered _)
  have hgathered := (gathered_empty o x.symbols).offer hx.nodup_symbols hfinds
  unfold gather
  rw [ho.exact, ho.byPrefix, ho.fuzzy, ho.byPattern]
  exact hgathered

/-- Where there is room for all symbols no candidate is cut off. -/
theorem perm_runOver_hits (hx : x.Represents l) {rules : List (Rule σ)}
    (hgathered : Gathered o x.symbols rules (gather x symbols query o)) (hquery : query ≠ "")
    (hmax : x.symbols.length ≤ o.maxResults) :
    (runOver x symbols query o).Perm (hitsBy o rules x.symbols) := by
  have hhits := hgathered.perm hx.nodup_symbols
  have hlength : (hitsBy o rules x.symbols).length ≤ o.maxResults :=
    (List.length_filterMap_le _ _).trans hmax
  have hsorted : (sortBy o.sort.order (gather x symbols query o).hits.reverse).Perm
      (hitsBy o rules x.symbols) :=
    (perm_sortBy_reverse _ _).trans hhits
  unfold runOver
  by_cases hnone : o.maxResults = 0
  · rw [if_pos (by simp [hnone])]
    rw [hnone, Nat.le_zero, List.length_eq_zero_iff] at hlength
    rw [hlength]
  · rw [if_neg (by simp [hnone, hquery]),
      List.take_of_length_le (hsorted.length_eq.le.trans hlength)]
    exact hsorted

/-- After any changes, and with room for all symbols, a search for beginnings finds each admitted
symbol at most once, and just those that their rule scores enough and whose names start with the
query, letter case apart. Where letter case does not count, a symbol that the rule scores for a
segment of its qualified name only is always missed, so no hit has such a score. Where it does, a
name that starts with the query is missed just when the query ends a word with a capital sigma and
the name goes on with the word. -/
theorem run_of_onlyByPrefix (changes : List IndexChange) {query : String} (hquery : query ≠ "")
    {o : SearchOptions σ} (ho : o.OnlyByPrefix)
    (hmax : (Snapshot.after changes).symbols.length ≤ o.maxResults) :
    let x := Snapshot.after changes
    ((run x query o).map fun h => h.symbol.identity).Nodup ∧
    (∀ h, h ∈ run x query o ↔ RankedByPrefix x query o h ∧
      Text.lowercaseLetters query <+: Text.lowercaseLetters h.symbol.name) ∧
    (o.caseSensitive = false →
      (∀ h, RankedByPrefix x query o h → h ∉ run x query o →
        h.score = Score.tenths 8 ∨ h.score = Score.tenths 7) ∧
      ∀ h ∈ run x query o, h.score = Score.tenths 10 ∨ h.score = Score.tenths 9) ∧
    (o.caseSensitive = true → ∀ h rest, RankedByPrefix x query o h →
      h.symbol.name.toList = query.toList ++ rest →
      (h ∉ run x query o ↔ Text.EndsInSigma query.toList ∧ Text.startsCased rest = true)) := by
  intro x
  have hx : x.Represents (IndexChange.after changes) :=
    (Snapshot.represents_empty 0).foldl_change changes
  have hperm : (run x query o).Perm (hitsBy o [prefixRule query o] x.symbols) :=
    perm_runOver_hits hx (gathered_prefixRule hx hquery ho) hquery hmax
  have hmem : ∀ h, h ∈ run x query o ↔ RankedByPrefix x query o h ∧
      Text.lowercaseLetters query <+: Text.lowercaseLetters h.symbol.name :=
    fun h => hperm.mem_iff.trans mem_hitsBy_prefixRule
  refine ⟨(hperm.map _).nodup_iff.mpr (nodup_hitsBy hx.nodup_symbols), hmem,
    fun hcase => ⟨?_, ?_⟩, ?_⟩
  · intro h hranked hmissed
    have hscore := hranked.score
    rw [hcase] at hscore
    refine score_of_not_starts hscore fun hstarts => hmissed ((hmem h).mpr ⟨hranked, ?_⟩)
    rwa [foldCase_false, foldCase_false] at hstarts
  · intro h hh
    obtain ⟨hranked, hstarts⟩ := (hmem h).mp hh
    have hscore := hranked.score
    rw [hcase] at hscore
    rw [← foldCase_false, ← foldCase_false] at hstarts
    exact score_of_starts hscore hstarts
  · intro hcase h rest hranked hname
    rw [hmem, and_iff_right hranked, Text.lowercaseLetters_prefix_iff hname, not_not]

/-- A symbol is missed by a segment of its qualified name, and one with a sigma in the middle by the
beginning of its name up to the sigma, though the rule scores both. -/
theorem not_mem_run_of_segment :
    let file : Path := ⟨"a.sym"⟩
    let method : Symbol := { name := "Run", qualifiedName := some "App.Runner.Run",
                             kind := .method, file, project := "P" }
    let middle : Symbol := { name := "ΜΕΣΑ", kind := .classType, file, project := "P" }
    let x := Snapshot.after [.replace [file] [method, middle]]
    let o : SearchOptions Rat := { fuzzy := false, byPattern := false, minScore := 0 }
    let bySegment : Hit Rat := ⟨method, Score.tenths 7, .byPrefix⟩
    let byName : Hit Rat := ⟨middle, Score.tenths 9, .byPrefix⟩
    (RankedByPrefix x "Runner" o bySegment ∧ bySegment ∉ run x "Runner" o) ∧
    RankedByPrefix x "ΜΕΣ" { o with caseSensitive := true } byName ∧
      byName ∉ run x "ΜΕΣ" { o with caseSensitive := true } := by
  intro file method middle x o bySegment byName
  have hmax : x.symbols.length ≤ o.maxResults := by decide +kernel
  obtain ⟨-, hmem, -⟩ := run_of_onlyByPrefix [.replace [file] [method, middle]]
    (by decide : "Runner" ≠ "") (o := o) ⟨rfl, rfl, rfl, rfl⟩ hmax
  obtain ⟨-, -, -, hsensitive⟩ := run_of_onlyByPrefix [.replace [file] [method, middle]]
    (by decide : "ΜΕΣ" ≠ "") (o := { o with caseSensitive := true }) ⟨rfl, rfl, rfl, rfl⟩ hmax
  have hmiddle : RankedByPrefix x "ΜΕΣ" { o with caseSensitive := true } byName :=
    ⟨by decide +kernel, by decide +kernel, by decide +kernel, rfl⟩
  refine ⟨⟨⟨by decide +kernel, by decide +kernel, by decide +kernel, rfl⟩, fun hin => ?_⟩,
    hmiddle, ?_⟩
  · exact absurd ((hmem bySegment).mp hin).2 (by decide +kernel)
  · refine (hsensitive rfl byName ['Α'] hmiddle (by decide)).mpr ⟨?_, by decide +kernel⟩
    exact ⟨['Μ', 'Ε'], [], rfl, by decide +kernel, by simp⟩

end Search

end SymbolAtlas
