import SymbolAtlas.Proofs.Index.Delta
import SymbolAtlas.Proofs.Search.Order
import SymbolAtlas.Proofs.Search.Rules
import SymbolAtlas.Proofs.Trie.Extending

/-!
# What a search answers

A search answers with the best of its candidates in their order. A candidate is an admitted symbol
with the score by the first rule that is reached and scores it enough. If there are fewer hits than
wanted then no rule was left out and no candidate is missing.
-/

namespace SymbolAtlas

namespace Search

/-! ## The rules of a search -/

section Rules

variable {σ : Type} [Score σ]

/-- The symbol that owns the qualified name. -/
def qualifiedRule (x : Snapshot) (query : String) : Rule σ where
  strategy := .exact
  score? s := if x.qualified? query = some s then some exactQualifiedScore else none

/-- The symbols of the name. -/
def nameRule (query : String) (o : SearchOptions σ) : Rule σ where
  strategy := .exact
  score? s :=
    if Text.lowercase s.name = Text.lowercase query ∧ (o.caseSensitive = true → s.name = query)
    then some exactNameScore else none

/-- The symbols whose name starts with the query, letter case apart, by what else starts with it. -/
def prefixRule (query : String) (o : SearchOptions σ) : Rule σ where
  strategy := .byPrefix
  score? s :=
    if Text.lowercaseLetters query <+: Text.lowercaseLetters s.name
    then prefixScore? s query o.caseSensitive else none

/-- The symbols whose names are like the query. -/
def fuzzyRule (query : String) (o : SearchOptions σ) : Rule σ where
  strategy := .fuzzy
  score? s := fuzzyScore? s query o.caseSensitive

/-- The symbols whose names match the query, if it is a pattern. -/
def patternRule (query : String) (o : SearchOptions σ) : Rule σ where
  strategy := .byPattern
  score? s :=
    match Pattern.parse (!o.caseSensitive) query with
    | .error _ => none
    | .ok p => if p.isMatch s.name then some patternScore else none

/-- The rules that a search tries, in their order. -/
def rulesOf (x : Snapshot) (query : String) (o : SearchOptions σ) : List (Rule σ) :=
  if o.exact then [qualifiedRule x query, nameRule query o]
  else
    (if o.byPrefix then [prefixRule query o] else []) ++
    (if o.fuzzy then [fuzzyRule query o] else []) ++
    (if o.byPattern then [patternRule query o] else [])

variable {x : Snapshot} {l symbols : List Symbol} {query : String} {o : SearchOptions σ}
  {r : Rule σ} {c : Candidates σ}

omit [Score σ] in
theorem finds_filterMap {found : List Symbol} {score? : Symbol → Option σ}
    (h : ∀ s v, s ∈ found ∧ score? s = some v ↔ s ∈ symbols ∧ r.score? s = some v) :
    r.Finds symbols (found.filterMap fun s => (score? s).map (⟨s, ·, r.strategy⟩)) := by
  rintro ⟨s, v, strategy⟩
  rw [List.mem_filterMap, ← and_assoc, ← h s v]
  constructor
  · rintro ⟨t, ht, hhit⟩
    obtain ⟨w, hw, heq⟩ := Option.map_eq_some_iff.mp hhit
    cases heq
    exact ⟨⟨ht, hw⟩, rfl⟩
  · rintro ⟨⟨hs, hv⟩, rfl⟩
    exact ⟨s, hs, Option.map_eq_some_iff.mpr ⟨v, hv, rfl⟩⟩

omit [Score σ] in
/-- A rule that has one score for all symbols that it finds. -/
theorem finds_map {found : List Symbol} {p : Symbol → Prop} [DecidablePred p] {v : σ}
    (hscore : ∀ s, r.score? s = if p s then some v else none)
    (h : ∀ s, s ∈ found ↔ s ∈ symbols ∧ p s) :
    r.Finds symbols (found.map (⟨·, v, r.strategy⟩)) := by
  rintro ⟨s, w, strategy⟩
  rw [List.mem_map, hscore]
  constructor
  · rintro ⟨t, ht, heq⟩
    cases heq
    obtain ⟨hs, hp⟩ := (h s).mp ht
    exact ⟨hs, if_pos hp, rfl⟩
  · rintro ⟨hs, hw, rfl⟩
    dsimp only at hw
    split_ifs at hw with hp
    cases hw
    exact ⟨s, (h s).mpr ⟨hs, hp⟩, rfl⟩

/-! ## What the rules find in an index -/

theorem finds_qualified (hx : x.Represents l) (query : String) :
    (qualifiedRule x query : Rule σ).Finds x.symbols
      ((x.qualified? query).toList.map (⟨·, exactQualifiedScore, .exact⟩)) := by
  apply finds_map (r := qualifiedRule x query) fun s => rfl
  intro s
  rw [Option.mem_toList]
  refine ⟨fun hs => ⟨?_, hs⟩, And.right⟩
  exact hx.mem_symbols.mpr (hx.owner query s hs).1

theorem finds_named (hx : x.Represents l) (query : String) (o : SearchOptions σ) :
    (nameRule query o).Finds x.symbols
      (((x.named query).filter fun s => !o.caseSensitive || s.name == query).map
        (⟨·, exactNameScore, .exact⟩)) := by
  apply finds_map (r := nameRule query o) fun s => rfl
  intro s
  unfold Snapshot.named
  rw [List.mem_filter, Groups.mem_under_of_hold hx.byName, hx.mem_symbols, and_assoc]
  refine and_congr_right fun _ => and_congr_right fun _ => ?_
  cases o.caseSensitive <;> simp

theorem finds_starting (hx : x.Represents l) (hquery : query ≠ "") (o : SearchOptions σ) :
    (prefixRule query o).Finds x.symbols (prefixHits x query o) := by
  apply finds_filterMap (r := prefixRule query o)
  intro s v
  have hmem : s ∈ x.startingWith query ↔
      s ∈ l ∧ Text.lowercaseLetters query <+: Text.lowercaseLetters s.name := by
    unfold Snapshot.startingWith
    rw [if_neg (by simpa using hquery), hx.trie, Trie.mem_extending_ofList]
    rfl
  rw [hmem, hx.mem_symbols, and_assoc]
  refine and_congr_right fun _ => ?_
  change _ ↔ (if _ then _ else none) = some v
  split_ifs with hstarts
  · exact and_iff_right hstarts
  · simp [hstarts]

theorem finds_fuzzy (hsymbols : symbols.Perm x.symbols) (query : String)
    (o : SearchOptions σ) :
    (fuzzyRule query o).Finds x.symbols (fuzzyHits symbols query o) :=
  finds_filterMap (r := fuzzyRule query o) fun _ _ => and_congr_left fun _ => hsymbols.mem_iff

theorem finds_pattern (hsymbols : symbols.Perm x.symbols) (query : String)
    (o : SearchOptions σ) :
    (patternRule query o).Finds x.symbols (patternHits symbols query o) := by
  unfold patternHits
  cases hparse : Pattern.parse (!o.caseSensitive) query with
  | error flaw =>
      intro h
      simp [patternRule, hparse]
  | ok p =>
      refine finds_map (r := patternRule query o) (p := fun s => p.isMatch s.name = true)
        (fun s => ?_) fun s => ?_
      · simp [patternRule, hparse]
      · rw [List.mem_filter, hsymbols.mem_iff]

/-! ## Gathering -/

/-- Offering the hits of a strategy, if it is enabled. -/
theorem Pursued.strategy {rules : List (Rule σ)} {hits : List (Hit σ)} (enabled : Bool)
    (hc : Pursued o symbols rules c) (hexact : o.exact = false)
    (hsymbols : (symbols.map Symbol.identity).Nodup) (hfinds : r.Finds symbols hits) :
    Pursued o symbols (rules ++ if enabled then [r] else [])
      (if enabled && !c.isFull o then c.offerSorted o hits else c) := by
  cases enabled with
  | false => simpa using hc
  | true =>
      have hnext := hc.next hsymbols (hfinds.perm (perm_sortBy Hit.offered hits))
      simpa [hexact, Candidates.offerSorted] using hnext

theorem pursued_gather (hx : x.Represents l) (hsymbols : symbols.Perm x.symbols)
    (hquery : query ≠ "") (hmax : o.maxResults ≠ 0) :
    Pursued o x.symbols (rulesOf x query o) (gather x symbols query o) := by
  have hnodup := hx.nodup_symbols
  have hnil := pursued_nil o x.symbols
  unfold rulesOf gather exactHits
  cases hexact : o.exact with
  | true =>
      rw [List.foldl_append]
      have hqualified := hnil.next hnodup (finds_qualified hx query)
      have hnamed := hqualified.next hnodup (finds_named hx query o)
      simpa [hexact] using hnamed
  | false =>
      have hroom : ({} : Candidates σ).isFull o = false := by
        unfold Candidates.isFull
        simpa using hmax
      have hprefix := hnil.strategy o.byPrefix hexact hnodup (finds_starting hx hquery o)
      rw [hroom, Bool.not_false, Bool.and_true, List.nil_append] at hprefix
      have hfuzzy := hprefix.strategy o.fuzzy hexact hnodup (finds_fuzzy hsymbols query o)
      exact hfuzzy.strategy o.byPattern hexact hnodup (finds_pattern hsymbols query o)

end Rules

/-! ## The answer -/

section Answer

variable {σ : Type} [LinearOrder σ] [Score σ]

/-- A hit of an admitted symbol by the first rule that is reached and scores it enough. -/
structure Candidate (o : SearchOptions σ) (symbols : List Symbol) (rules : List (Rule σ))
    (h : Hit σ) : Prop where
  mem : h.symbol ∈ symbols
  admitted : o.admits h.symbol = true
  minScore_le : o.minScore ≤ h.score
  first : ∃ before r after, rules = before ++ r :: after ∧ Reached o symbols before ∧
    r.strategy = h.strategy ∧ r.score? h.symbol = some h.score ∧
    ∀ r' ∈ before, ∀ v, r'.score? h.symbol = some v → v < o.minScore

/-- Hits that are the best candidates in their order. -/
structure Answer (o : SearchOptions σ) (symbols : List Symbol) (rules : List (Rule σ))
    (hits : List (Hit σ)) : Prop where
  /-- No two hits are of one symbol. -/
  distinct : (hits.map fun h => h.symbol.identity).Nodup
  length_le : hits.length ≤ o.maxResults
  candidate : ∀ h ∈ hits, Candidate o symbols rules h
  sorted : hits.Pairwise fun a b => o.sort.order a b ≠ .gt
  /-- No candidate that was cut off is strictly before a hit. -/
  best : ∀ h, Candidate o symbols rules h → h ∉ hits → ∀ h' ∈ hits, o.sort.order h h' ≠ .lt
  /-- With fewer hits than wanted every rule was reached. -/
  reached : hits.length < o.maxResults →
    ∀ before r after, rules = before ++ r :: after → Reached o symbols before
  /-- With fewer hits than wanted no symbol is missing that a rule scores enough. -/
  complete : hits.length < o.maxResults → ∀ s ∈ symbols, o.admits s = true →
    ∀ r ∈ rules, ∀ v, r.score? s = some v → o.minScore ≤ v → s ∈ hits.map Hit.symbol

variable [LawfulScore σ] {o : SearchOptions σ} {symbols : List Symbol} {rules : List (Rule σ)}
  {c : Candidates σ} {h : Hit σ}

theorem accepts_iff : Accepts o h ↔ o.minScore ≤ h.score ∧ o.admits h.symbol = true := by
  unfold Accepts
  rw [less_iff, not_lt]

/-- What was gathered are the candidates. -/
theorem Pursued.mem_hits (hc : Pursued o symbols rules c) :
    h ∈ c.hits ↔ Candidate o symbols rules h := by
  obtain ⟨reached, others, rfl, hgathered, hreached, hothers⟩ := hc
  rw [hgathered.mem, mem_hitsBy, firstHit?_eq_some]
  constructor
  · rintro ⟨hmem, before, r, after, rfl, hhit, hnone⟩
    obtain ⟨-, hscore, hstrategy, haccepts⟩ := hit?_eq_some.mp hhit
    obtain ⟨hmin, hadmitted⟩ := accepts_iff.mp haccepts
    refine ⟨hmem, hadmitted, hmin, before, r, after ++ others, by simp,
      hreached before r after rfl, hstrategy.symm, hscore, fun r' hr' v hv => ?_⟩
    have hnot := hit?_eq_none.mp (hnone r' hr') v hv
    rw [accepts_iff, not_and_or, not_le] at hnot
    exact hnot.resolve_right (not_not_intro hadmitted)
  · rintro ⟨hmem, hadmitted, hmin, before, r, after, hsplit, hnow, hstrategy, hscore, hlow⟩
    have hinside : ∃ more, reached = before ++ r :: more := by
      rcases List.append_eq_append_iff.mp hsplit with ⟨more, hbefore, hrest⟩ | ⟨more, hfront, hrest⟩
      · -- The rule would stand behind those that were reached.
        rw [hbefore] at hnow
        rw [hrest] at hothers
        exact absurd hnow.of_append (hothers.resolve_left (by simp))
      · cases more with
        | nil =>
            rw [List.append_nil] at hfront
            rw [hfront, ← List.nil_append others, ← hrest] at hothers
            exact absurd hnow (hothers.resolve_left (by simp))
        | cons r' more =>
            obtain rfl : r = r' := (List.cons.inj hrest).1
            exact ⟨more, hfront⟩
    obtain ⟨more, rfl⟩ := hinside
    refine ⟨hmem, before, r, more, rfl, ?_, fun r' hr' => ?_⟩
    · exact hit?_eq_some.mpr ⟨rfl, hscore, hstrategy.symm, accepts_iff.mpr ⟨hmin, hadmitted⟩⟩
    · refine hit?_eq_none.mpr fun v hv haccepts => ?_
      exact absurd (hlow r' hr' v hv) (not_lt.mpr (accepts_iff.mp haccepts).1)

/-- The candidates in order, cut off after as many as are wanted. -/
theorem Pursued.answer (hc : Pursued o symbols rules c)
    (hsymbols : (symbols.map Symbol.identity).Nodup) :
    Answer o symbols rules ((sortBy o.sort.order c.hits.reverse).take o.maxResults) := by
  have hperm : (sortBy o.sort.order c.hits.reverse).Perm c.hits :=
    perm_sortBy_reverse _ _
  have htake := List.take_sublist o.maxResults (sortBy o.sort.order c.hits.reverse)
  have hall : ((sortBy o.sort.order c.hits.reverse).take o.maxResults).length < o.maxResults →
      c.hits.length < o.maxResults ∧
      (sortBy o.sort.order c.hits.reverse).take o.maxResults =
        sortBy o.sort.order c.hits.reverse := by
    intro hfew
    rw [List.length_take, hperm.length_eq] at hfew
    have hlt : c.hits.length < o.maxResults := by omega
    refine ⟨hlt, List.take_of_length_le ?_⟩
    rw [hperm.length_eq]
    exact hlt.le
  refine ⟨?_, List.length_take_le _ _, fun h hh => ?_, ?_, fun h hh hcut h' hh' => ?_,
    fun hfew => ?_, fun hfew s hs hadmitted r hr v hv hmin => ?_⟩
  · have hnodup := (hperm.map fun h : Hit σ => h.symbol.identity).nodup_iff.mpr hc.tidy.nodup
    exact hnodup.sublist (htake.map _)
  · exact hc.mem_hits.mp (hperm.mem_iff.mp (htake.subset hh))
  · exact (pairwise_sortBy c.hits.reverse).sublist htake
  · exact not_lt_of_cut (List.mem_reverse.mpr (hc.mem_hits.mpr hh)) hcut hh'
  · exact (hc.gathered hsymbols (hall hfew).1).2
  · obtain ⟨hlt, hsame⟩ := hall hfew
    have hgathered := (hc.gathered hsymbols hlt).1
    rw [hsame]
    cases hfirst : firstHit? o rules s with
    | none =>
        have hnot := hit?_eq_none.mp (firstHit?_eq_none.mp hfirst r hr) v hv
        exact absurd (accepts_iff.mpr ⟨hmin, hadmitted⟩) hnot
    | some h =>
        obtain rfl := symbol_of_firstHit? hfirst
        have hmem : h ∈ c.hits := (hgathered.mem h).mpr (mem_hitsBy.mpr ⟨hs, hfirst⟩)
        exact List.mem_map_of_mem (hperm.mem_iff.mpr hmem)

/-- In whatever order it looks through the symbols of an index, a search for a text answers with the
best candidates by the rules of its options, in an order that is a total preorder. -/
theorem answer_runOver (changes : List IndexChange) {symbols : List Symbol}
    (hsymbols : symbols.Perm (Snapshot.after changes).symbols) {query : String}
    (hquery : query ≠ "") (o : SearchOptions σ) :
    let x := Snapshot.after changes
    Std.TransCmp (o.sort.order : Hit σ → Hit σ → Ordering) ∧
    Answer o x.symbols (rulesOf x query o) (runOver x symbols query o) := by
  intro x
  have hx := (Snapshot.represents_empty 0).foldl_change changes
  have hnodup : (x.symbols.map Symbol.identity).Nodup :=
    (hx.symbols_perm.map _).nodup_iff.mpr hx.nodup
  refine ⟨inferInstance, ?_⟩
  unfold runOver
  by_cases hmax : o.maxResults = 0
  · rw [if_pos (by simp [hmax])]
    exact ⟨List.nodup_nil, Nat.zero_le _, by simp, List.Pairwise.nil, by simp, by simp [hmax],
      by simp [hmax]⟩
  · rw [if_neg (by simp [hmax, hquery])]
    exact (pursued_gather hx hsymbols hquery hmax).answer hnodup

/-- A search for a whole name, letter case apart, over the symbols of a file from the last to the
first. -/
theorem answer_runOver_of_name :
    let file : Path := ⟨"r/a.sym"⟩
    let found : Symbol := { name := "Map", kind := .classType, file, project := "P" }
    let other : Symbol := { name := "MapEntry", kind := .classType, file, project := "P" }
    let x := Snapshot.after [.replace [file] [found, other]]
    let o : SearchOptions Rat := { exact := true, minScore := 1 / 2 }
    Answer o x.symbols (rulesOf x "map" o) (runOver x x.symbols.reverse "map" o) ∧
      (runOver x x.symbols.reverse "map" o).map Hit.symbol = [found] := by
  intro file found other x o
  have hanswer := answer_runOver [.replace [file] [found, other]] (List.reverse_perm _)
    (by decide : "map" ≠ "") o
  refine ⟨hanswer.2, ?_⟩
  have hgather : (gather x x.symbols.reverse "map" o).hits.map Hit.symbol = [found] := by
    decide +kernel
  obtain ⟨h, hhits, hsymbol⟩ := List.map_eq_singleton_iff.mp hgather
  have hsorted : runOver x x.symbols.reverse "map" o = [h] := by
    unfold runOver
    rw [hhits]
    exact congrArg (List.take 100) (List.mergeSort_singleton h)
  rw [hsorted, List.map_singleton, hsymbol]

end Answer

end Search

end SymbolAtlas
