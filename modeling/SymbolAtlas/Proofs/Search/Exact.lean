import Mathlib.Tactic.Positivity
import SymbolAtlas.Proofs.Search.Answer
import SymbolAtlas.Proofs.Search.Distance

/-!
# Whole names first

The rule for beginnings gives a whole name the highest score there is, and no rule gives any other
name as much: another name starts with the query at best, it cannot be entirely like the query, and
a pattern has a low score of its own. So by relevance a whole name comes first.
-/

namespace SymbolAtlas

namespace Search

variable {x : Snapshot} {l symbols : List Symbol} {query : String} {o : SearchOptions Rat}
  {r : Rule Rat} {s : Symbol} {caseSensitive : Bool} {v : Rat}

/-- Whether the name of a symbol is the query, in the letter case that counts. -/
def IsWholeName (caseSensitive : Bool) (query : String) (s : Symbol) : Prop :=
  foldCase caseSensitive s.name = foldCase caseSensitive query

instance (caseSensitive : Bool) (query : String) (s : Symbol) :
    Decidable (IsWholeName caseSensitive query s) :=
  inferInstanceAs (Decidable (_ = _))

/-! ## Scores of other names -/

theorem prefixScore_lt_one (hname : ¬ IsWholeName caseSensitive query s)
    (hscore : prefixScore? s query caseSensitive = some v) : v < 1 := by
  unfold IsWholeName at hname
  unfold prefixScore? at hscore
  dsimp only at hscore
  rw [if_neg hname] at hscore
  have hlow : ∀ n < 10, (Score.tenths n : Rat) < 1 := by decide +kernel
  split_ifs at hscore
  · rw [← Option.some.inj hscore]
    exact hlow 9 (by decide)
  · rw [← Option.some.inj hscore]
    exact hlow 8 (by decide)
  · rw [← Option.some.inj hscore]
    exact hlow 7 (by decide)

/-- Only equal texts are entirely alike. -/
theorem similarity_lt_one {a b : List Char} (h : a ≠ b) : (similarity a b : Rat) < 1 := by
  have hdistance : 0 < editDistance a b :=
    Nat.pos_of_ne_zero fun hzero => h (editDistance_eq_zero_iff.mp hzero)
  have hlongest : 0 < max a.length b.length := by
    by_contra hnone
    have hlengths : a.length = 0 ∧ b.length = 0 := by omega
    rw [List.length_eq_zero_iff, List.length_eq_zero_iff] at hlengths
    exact h (hlengths.1.trans hlengths.2.symm)
  unfold similarity
  dsimp only
  rw [if_neg hlongest.ne']
  have hshare : (0 : Rat) < editDistance a b / (max a.length b.length : Nat) :=
    div_pos (Nat.cast_pos.mpr hdistance) (Nat.cast_pos.mpr hlongest)
  exact sub_lt_self 1 hshare

theorem atMostOne_lt_one {p : Rat} (h : p < 1) : Score.atMostOne p < 1 := by
  unfold Score.atMostOne
  split_ifs with hmore
  · have hone : (Score.tenths 10 : Rat) = 1 := by decide +kernel
    rw [less_iff, hone] at hmore
    exact absurd hmore h.le.not_gt
  · exact h

/-- What the occurrences of the query add falls short of one by as much as the likeness to the name
can add. -/
theorem fuzzyScore_lt_one (hname : ¬ IsWholeName caseSensitive query s)
    (hscore : fuzzyScore? s query caseSensitive = some v) : v < 1 := by
  have halike : (similarity (foldCase caseSensitive s.name) (foldCase caseSensitive query) : Rat)
      < 1 := similarity_lt_one hname
  have hsum (c : Bool) (p : Rat) (n : Nat) :
      (if c then Score.add p (Score.tenths n) else p) ≤ p + n / 10 := by
    split_ifs
    · exact le_refl (p + n / 10)
    · exact le_add_of_nonneg_right (by positivity)
  unfold fuzzyScore? at hscore
  dsimp only at hscore
  rw [Option.ite_none_right_eq_some] at hscore
  rw [← Option.some.inj hscore.2]
  refine atMostOne_lt_one ?_
  have hinName := hsum (occursIn (foldCase caseSensitive query) (foldCase caseSensitive s.name))
    (Score.tenths 0) 5
  have hinQualified (c : Bool) := (hsum c _ 3).trans (add_le_add_left hinName _)
  have hrest : (Score.tenths 2 : Rat) * similarity (foldCase caseSensitive s.name)
      (foldCase caseSensitive query) < Score.tenths 2 :=
    mul_lt_of_lt_one_right (by decide +kernel) halike
  have hone : (Score.tenths 0 + (5 : Nat) / 10 + (3 : Nat) / 10 + Score.tenths 2 : Rat) = 1 := by
    decide +kernel
  refine (add_lt_add_of_le_of_lt ?_ hrest).trans_eq hone
  cases s.qualifiedName with
  | none => exact hinQualified false
  | some q =>
      exact hinQualified (occursIn (foldCase caseSensitive query) (foldCase caseSensitive q))

theorem mem_rulesOf (hexact : o.exact = false) : r ∈ rulesOf x query o ↔
    o.byPrefix = true ∧ r = prefixRule query o ∨ o.fuzzy = true ∧ r = fuzzyRule query o ∨
      o.byPattern = true ∧ r = patternRule query o := by
  have hif (c : Bool) (r' : Rule Rat) : r ∈ (if c then [r'] else []) ↔ c = true ∧ r = r' := by
    rw [List.mem_ite_nil_right, List.mem_singleton]
  unfold rulesOf
  rw [hexact, if_neg (by decide), List.mem_append, List.mem_append, hif, hif, hif, or_assoc]

/-- No rule gives a name that is not the query as much as the query itself. -/
theorem score_lt_one (hexact : o.exact = false) (hr : r ∈ rulesOf x query o)
    (hname : ¬ IsWholeName o.caseSensitive query s) (hscore : r.score? s = some v) : v < 1 := by
  rcases (mem_rulesOf hexact).mp hr with ⟨-, rfl⟩ | ⟨-, rfl⟩ | ⟨-, rfl⟩
  · change (if _ then _ else none) = some v at hscore
    rw [Option.ite_none_right_eq_some] at hscore
    exact prefixScore_lt_one hname hscore.2
  · exact fuzzyScore_lt_one hname hscore
  · have hpattern : v = patternScore := by
      unfold patternRule at hscore
      dsimp only at hscore
      split at hscore
      · cases hscore
      · rw [Option.ite_none_right_eq_some] at hscore
        exact (Option.some.inj hscore.2).symm
    rw [hpattern]
    decide +kernel

/-! ## The first hit -/

/-- The rule for beginnings comes first and gives a whole name its highest score. -/
theorem candidate_of_isWholeName (hexact : o.exact = false) (hbeginnings : o.byPrefix = true)
    (hmax : o.maxResults ≠ 0) (hmin : o.minScore ≤ 1) (hs : s ∈ x.symbols)
    (hadmitted : o.admits s = true) (hname : IsWholeName o.caseSensitive query s) :
    Candidate o x.symbols (rulesOf x query o) ⟨s, 1, .byPrefix⟩ := by
  have hstarts : Text.lowercaseLetters query <+: Text.lowercaseLetters s.name := by
    have hsame : Text.lowercaseLetters s.name = Text.lowercaseLetters query := by
      unfold IsWholeName foldCase at hname
      split_ifs at hname
      · rw [String.toList_inj.mp hname]
      · exact hname
    rw [hsame]
  have hscore : (prefixRule query o).score? s = some 1 := by
    refine (if_pos hstarts).trans ?_
    unfold prefixScore?
    dsimp only
    rw [if_pos (show foldCase o.caseSensitive s.name = foldCase o.caseSensitive query from hname)]
    decide +kernel
  obtain ⟨after, hrules⟩ : ∃ after, rulesOf x query o = prefixRule query o :: after := by
    unfold rulesOf
    rw [hexact, hbeginnings]
    exact ⟨_, rfl⟩
  have hroom : Reached o x.symbols [] := by
    have hnone : hitsBy o [] x.symbols = [] := List.filterMap_eq_nil_iff.mpr fun _ _ => rfl
    rw [Reached, hnone]
    exact .inr (Nat.pos_of_ne_zero hmax)
  exact ⟨hs, hadmitted, hmin, [], prefixRule query o, after, hrules, hroom, rfl, hscore, by simp⟩

/-- A whole name comes first. After any changes, in whatever order it looks through the symbols and
whichever other strategies are enabled, a search by relevance that looks for beginnings and admits
some symbol whose whole name is the query puts such a symbol first. -/
theorem runOver_head_isWholeName (changes : List IndexChange) {symbols : List Symbol}
    (hsymbols : symbols.Perm (Snapshot.after changes).symbols) {query : String}
    (hquery : query ≠ "") {o : SearchOptions Rat} (hexact : o.exact = false)
    (hbeginnings : o.byPrefix = true) (hsort : o.sort = .relevance) (hmax : 1 ≤ o.maxResults)
    (hmin : o.minScore ≤ 1) {s : Symbol} (hs : s ∈ (Snapshot.after changes).symbols)
    (hadmitted : o.admits s = true) (hname : IsWholeName o.caseSensitive query s) :
    ∃ first rest, runOver (Snapshot.after changes) symbols query o = first :: rest ∧
      IsWholeName o.caseSensitive query first.symbol := by
  set x := Snapshot.after changes with hx
  have hrepresents : x.Represents (IndexChange.after changes) :=
    (Snapshot.represents_empty 0).foldl_change changes
  have hpursued := pursued_gather hrepresents hsymbols hquery (Nat.pos_iff_ne_zero.mp hmax)
  have hperm := perm_sortBy_reverse o.sort.order (gather x symbols query o).hits
  have hcandidate : Candidate o x.symbols (rulesOf x query o) ⟨s, 1, .byPrefix⟩ :=
    candidate_of_isWholeName hexact hbeginnings (Nat.pos_iff_ne_zero.mp hmax) hmin hs hadmitted
      hname
  have hwhole : (⟨s, 1, .byPrefix⟩ : Hit Rat) ∈
      sortBy o.sort.order (gather x symbols query o).hits.reverse :=
    hperm.mem_iff.mpr (hpursued.mem_hits.mpr hcandidate)
  obtain ⟨first, rest, hsorted⟩ := List.exists_cons_of_ne_nil (List.ne_nil_of_mem hwhole)
  obtain ⟨room, hroom⟩ := Nat.exists_eq_add_one.mpr hmax
  refine ⟨first, rest.take room, ?_, ?_⟩
  · unfold runOver
    rw [if_neg (by simp [hquery, hroom]), hsorted, hroom, List.take_succ_cons]
  · have hfirst : Candidate o x.symbols (rulesOf x query o) first := by
      apply hpursued.mem_hits.mp
      apply hperm.mem_iff.mp
      rw [hsorted]
      exact List.mem_cons_self
    obtain ⟨before, r, after, hrules, -, -, hscore, -⟩ := hfirst.first
    have hr : r ∈ rulesOf x query o := by simp [hrules]
    have hpairwise : (sortBy o.sort.order (gather x symbols query o).hits.reverse).Pairwise
        fun a b => o.sort.order a b ≠ .gt := pairwise_sortBy _
    rw [hsorted] at hwhole hpairwise
    have hle := head_le hpairwise hwhole
    by_contra hother
    have hlt : first.score < 1 := score_lt_one hexact hr hother hscore
    have hafter : first.byScore ⟨s, 1, .byPrefix⟩ = .gt := by
      unfold Hit.byScore
      rw [order_eq_compare, compare_gt_iff_gt]
      exact hlt
    refine hle ?_
    rw [hsort, SortKey.order, SortKey.primary, hafter]
    rfl

/-- With all strategies enabled a name that goes on after the query, though its qualified name has
the query too, does not come before a whole name in other letters. -/
theorem runOver_head_isWholeName_of_similar :
    let file : Path := ⟨"a.sym"⟩
    let entry : Symbol := { name := "MapEntry", qualifiedName := some "Map.MapEntry",
                            kind := .classType, file, project := "P" }
    let map : Symbol := { name := "map", kind := .method, file, project := "P" }
    let x := Snapshot.after [.replace [file] [entry, map]]
    let o : SearchOptions Rat := { minScore := 1 / 10 }
    o.fuzzy = true ∧ o.byPattern = true ∧
      (∃ first rest, runOver x x.symbols "Map" o = first :: rest ∧
        IsWholeName false "Map" first.symbol) ∧
      ¬ IsWholeName false "Map" entry := by
  intro file entry map x o
  refine ⟨by decide, by decide, ?_, by decide +kernel⟩
  exact runOver_head_isWholeName [.replace [file] [entry, map]] (List.Perm.refl _) (by decide)
    (o := o) (by decide) (by decide) rfl (by decide) (by decide +kernel)
    (s := map) (by decide +kernel) (by decide +kernel) (by decide +kernel)

end Search

end SymbolAtlas
