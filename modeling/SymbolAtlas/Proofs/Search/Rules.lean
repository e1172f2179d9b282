import SymbolAtlas.Proofs.TreeMap
import SymbolAtlas.Search.Run

/-!
# Rules that score symbols

A search tries rules one after the other. A symbol becomes a hit by the first rule that scores it
well enough, and a later rule is reached only while there are fewer hits than wanted, except in
exact mode, where every rule is. What is gathered by offering the hits of the rules is exactly the
hits by the rules that are reached.
-/

namespace SymbolAtlas

namespace Search

variable {σ : Type} [Score σ]

/-- A rule by which symbols are scored. -/
structure Rule (σ : Type) where
  strategy : Strategy
  /-- The score of a symbol, if the rule finds it at all. -/
  score? : Symbol → Option σ

/-- Whether a hit is admitted and scores enough. -/
def Accepts (o : SearchOptions σ) (h : Hit σ) : Prop :=
  ¬ Score.less h.score o.minScore = true ∧ o.admits h.symbol = true

instance (o : SearchOptions σ) (h : Hit σ) : Decidable (Accepts o h) :=
  inferInstanceAs (Decidable (_ ∧ _))

/-- The hit of a symbol by a rule, if it is one. -/
def Rule.hit? (o : SearchOptions σ) (r : Rule σ) (s : Symbol) : Option (Hit σ) :=
  ((r.score? s).map (⟨s, ·, r.strategy⟩)).filter fun h => Accepts o h

/-- The hit of a symbol by the first of the rules that makes it one. -/
def firstHit? (o : SearchOptions σ) (rules : List (Rule σ)) (s : Symbol) : Option (Hit σ) :=
  rules.findSome? (Rule.hit? o · s)

/-- The hits among symbols. -/
def hitsBy (o : SearchOptions σ) (rules : List (Rule σ)) (symbols : List Symbol) : List (Hit σ) :=
  symbols.filterMap (firstHit? o rules)

/-- Whether a rule is reached after some earlier ones. -/
def Reached (o : SearchOptions σ) (symbols : List Symbol) (earlier : List (Rule σ)) : Prop :=
  o.exact = true ∨ (hitsBy o earlier symbols).length < o.maxResults

variable {o : SearchOptions σ} {symbols : List Symbol} {rules : List (Rule σ)} {r : Rule σ}
  {s : Symbol} {h : Hit σ}

theorem hit?_eq_some :
    r.hit? o s = some h ↔
      h.symbol = s ∧ r.score? s = some h.score ∧ h.strategy = r.strategy ∧ Accepts o h := by
  obtain ⟨t, v, strategy⟩ := h
  unfold Rule.hit?
  rw [Option.filter_eq_some_iff, Option.map_eq_some_iff, decide_eq_true_eq]
  constructor
  · rintro ⟨⟨v', hv, heq⟩, haccepts⟩
    cases heq
    exact ⟨rfl, hv, rfl, haccepts⟩
  · rintro ⟨rfl, hv, rfl, haccepts⟩
    exact ⟨⟨v, hv, rfl⟩, haccepts⟩

theorem hit?_eq_none :
    r.hit? o s = none ↔ ∀ v, r.score? s = some v → ¬ Accepts o ⟨s, v, r.strategy⟩ := by
  rw [Option.eq_none_iff_forall_ne_some]
  constructor
  · intro hnone v hv haccepts
    exact hnone ⟨s, v, r.strategy⟩ (hit?_eq_some.mpr ⟨rfl, hv, rfl, haccepts⟩)
  · intro hnone h hh
    obtain ⟨rfl, hv, hstrategy, haccepts⟩ := hit?_eq_some.mp hh
    refine hnone h.score hv ?_
    rw [← hstrategy]
    exact haccepts

theorem firstHit?_eq_some :
    firstHit? o rules s = some h ↔ ∃ before r after, rules = before ++ r :: after ∧
      r.hit? o s = some h ∧ ∀ r' ∈ before, r'.hit? o s = none :=
  List.findSome?_eq_some_iff

theorem firstHit?_eq_none : firstHit? o rules s = none ↔ ∀ r ∈ rules, r.hit? o s = none :=
  List.findSome?_eq_none_iff

theorem symbol_of_firstHit? (hh : firstHit? o rules s = some h) : h.symbol = s := by
  obtain ⟨_, r, _, _, hr, _⟩ := firstHit?_eq_some.mp hh
  exact (hit?_eq_some.mp hr).1

theorem firstHit?_concat :
    firstHit? o (rules ++ [r]) s = (firstHit? o rules s).or (r.hit? o s) := by
  unfold firstHit?
  rw [List.findSome?_append, List.findSome?_singleton]

theorem mem_hitsBy :
    h ∈ hitsBy o rules symbols ↔ h.symbol ∈ symbols ∧ firstHit? o rules h.symbol = some h := by
  unfold hitsBy
  rw [List.mem_filterMap]
  constructor
  · rintro ⟨s, hs, hh⟩
    rw [symbol_of_firstHit? hh]
    exact ⟨hs, hh⟩
  · rintro ⟨hs, hh⟩
    exact ⟨h.symbol, hs, hh⟩

/-- The hits among symbols of different identities are of different identities. -/
theorem nodup_hitsBy (hsymbols : (symbols.map Symbol.identity).Nodup) :
    ((hitsBy o rules symbols).map fun h => h.symbol.identity).Nodup := by
  refine nodup_map_filterMap (fun s h hh => ?_) hsymbols
  rw [symbol_of_firstHit? hh]

/-- More rules make no fewer hits. -/
theorem length_hitsBy_le (o : SearchOptions σ) (rules more : List (Rule σ))
    (symbols : List Symbol) :
    (hitsBy o rules symbols).length ≤ (hitsBy o (rules ++ more) symbols).length := by
  unfold hitsBy
  rw [List.length_filterMap_eq_countP, List.length_filterMap_eq_countP]
  apply List.countP_mono_left
  intro s _ hs
  unfold firstHit? at hs ⊢
  rw [List.findSome?_append, Option.isSome_or, hs, Bool.true_or]

/-- A rule is not reached if one before it is not. -/
theorem Reached.of_append {more : List (Rule σ)} (h : Reached o symbols (rules ++ more)) :
    Reached o symbols rules :=
  h.imp_right (Nat.lt_of_le_of_lt (length_hitsBy_le o rules more symbols))

end Search

/-! ## Offering hits -/

namespace Candidates

open Search

variable {σ : Type} {c : Candidates σ} {h h' : Hit σ}

/-- The identities of the symbols that are candidates. -/
def identities (c : Candidates σ) : List Identity := c.hits.map fun h => h.symbol.identity

/-- Candidates that are seen just when they are among the hits, each once. -/
structure Tidy (c : Candidates σ) : Prop where
  seen : ∀ i, c.seen.contains i = true ↔ i ∈ c.identities
  nodup : c.identities.Nodup

theorem tidy_empty : Tidy ({} : Candidates σ) where
  seen := by simp [identities]
  nodup := List.nodup_nil

variable [Score σ] {o : SearchOptions σ}

/-- A hit is taken if it is accepted and its symbol is not there yet. -/
theorem Tidy.offer_eq (hc : c.Tidy) (o : SearchOptions σ) (h : Hit σ) :
    c.offer o h = if Accepts o h ∧ h.symbol.identity ∉ c.identities
      then { seen := c.seen.insert h.symbol.identity, hits := h :: c.hits } else c := by
  rw [← ite_not]
  unfold offer
  refine if_congr ?_ rfl rfl
  rw [← hc.seen, Bool.or_eq_true, Bool.or_eq_true, Bool.not_eq_true']
  unfold Accepts
  rw [not_and_or, not_and_or, not_not, not_not, Bool.not_eq_true]

theorem Tidy.offer (hc : c.Tidy) (o : SearchOptions σ) (h : Hit σ) : (c.offer o h).Tidy := by
  rw [hc.offer_eq]
  split_ifs with hnew
  · refine ⟨fun i => ?_, List.nodup_cons.mpr ⟨hnew.2, hc.nodup⟩⟩
    change _ ↔ i ∈ h.symbol.identity :: c.identities
    rw [Std.TreeSet.contains_insert, Bool.or_eq_true, hc.seen, beq_iff_eq,
      Std.LawfulEqCmp.compare_eq_iff_eq, List.mem_cons, eq_comm]
  · exact hc

theorem Tidy.foldl_offer (hc : c.Tidy) (o : SearchOptions σ) (hits : List (Hit σ)) :
    (hits.foldl (Candidates.offer o) c).Tidy := by
  induction hits generalizing c with
  | nil => exact hc
  | cons h rest ih => exact ih (hc.offer o h)

/-- Offering hits of which no two share a symbol adds those that are accepted and whose symbol was
not there. -/
theorem Tidy.mem_foldl_offer (hc : c.Tidy) {hits : List (Hit σ)}
    (hits_inj : ∀ h ∈ hits, ∀ h' ∈ hits, h.symbol.identity = h'.symbol.identity → h = h') :
    h ∈ (hits.foldl (Candidates.offer o) c).hits ↔ h ∈ c.hits ∨
      h ∈ hits ∧ Accepts o h ∧ h.symbol.identity ∉ c.identities := by
  induction hits generalizing c with
  | nil => simp
  | cons first rest ih =>
      have hrest_inj : ∀ h ∈ rest, ∀ h' ∈ rest,
          h.symbol.identity = h'.symbol.identity → h = h' := fun h hh h' hh' =>
        hits_inj h (List.mem_cons_of_mem _ hh) h' (List.mem_cons_of_mem _ hh')
      rw [List.foldl_cons, ih (hc.offer o first) hrest_inj, hc.offer_eq]
      split_ifs with hnew
      · rw [identities, List.map_cons, List.mem_cons, List.mem_cons, List.mem_cons]
        constructor
        · rintro ((rfl | hold) | ⟨hin, haccepts, hfresh⟩)
          · exact .inr ⟨.inl rfl, hnew⟩
          · exact .inl hold
          · exact .inr ⟨.inr hin, haccepts, fun hseen => hfresh (.inr hseen)⟩
        · rintro (hold | ⟨rfl | hin, haccepts, hfresh⟩)
          · exact .inl (.inr hold)
          · exact .inl (.inl rfl)
          · by_cases hsame : h.symbol.identity = first.symbol.identity
            · have heq := hits_inj h (List.mem_cons_of_mem _ hin) first List.mem_cons_self hsame
              exact .inl (.inl heq)
            · exact .inr ⟨hin, haccepts, not_or.mpr ⟨hsame, hfresh⟩⟩
      · rw [List.mem_cons]
        refine or_congr_right ⟨fun hh => ⟨.inr hh.1, hh.2⟩, ?_⟩
        rintro ⟨rfl | hin, haccepts, hfresh⟩
        · exact absurd ⟨haccepts, hfresh⟩ hnew
        · exact ⟨hin, haccepts, hfresh⟩

end Candidates

/-! ## Going through the rules -/

namespace Search

variable {σ : Type} [Score σ] {o : SearchOptions σ} {symbols : List Symbol}
  {rules : List (Rule σ)} {r : Rule σ} {c : Candidates σ} {hits : List (Hit σ)} {h : Hit σ}

/-- Hits that a rule finds among symbols. -/
def Rule.Finds (r : Rule σ) (symbols : List Symbol) (hits : List (Hit σ)) : Prop :=
  ∀ h, h ∈ hits ↔
    h.symbol ∈ symbols ∧ r.score? h.symbol = some h.score ∧ h.strategy = r.strategy

omit [Score σ] in
theorem Rule.Finds.perm {hits' : List (Hit σ)} (h : r.Finds symbols hits)
    (hperm : hits'.Perm hits) : r.Finds symbols hits' := fun hit => hperm.mem_iff.trans (h hit)

/-- Candidates that are the hits by some rules. -/
structure Gathered (o : SearchOptions σ) (symbols : List Symbol) (rules : List (Rule σ))
    (c : Candidates σ) : Prop where
  tidy : c.Tidy
  mem : ∀ h, h ∈ c.hits ↔ h ∈ hitsBy o rules symbols

theorem gathered_empty (o : SearchOptions σ) (symbols : List Symbol) :
    Gathered o symbols [] {} where
  tidy := Candidates.tidy_empty
  mem := by simp [mem_hitsBy, firstHit?]

theorem Gathered.perm (hc : Gathered o symbols rules c)
    (hsymbols : (symbols.map Symbol.identity).Nodup) : c.hits.Perm (hitsBy o rules symbols) :=
  (List.perm_ext_iff_of_nodup hc.tidy.nodup.of_map (nodup_hitsBy hsymbols).of_map).mpr hc.mem

/-- Offering what one more rule finds. -/
theorem Gathered.offer (hc : Gathered o symbols rules c)
    (hsymbols : (symbols.map Symbol.identity).Nodup) (hfinds : r.Finds symbols hits) :
    Gathered o symbols (rules ++ [r]) (hits.foldl (Candidates.offer o) c) := by
  refine ⟨hc.tidy.foldl_offer o hits, fun h => ?_⟩
  have hits_inj : ∀ h ∈ hits, ∀ h' ∈ hits,
      h.symbol.identity = h'.symbol.identity → h = h' := by
    rintro ⟨s, v, strategy⟩ hh ⟨s', v', strategy'⟩ hh' hsame
    obtain ⟨hs, hv, rfl⟩ := (hfinds _).mp hh
    obtain ⟨hs', hv', rfl⟩ := (hfinds _).mp hh'
    obtain rfl : s = s' := List.inj_on_of_nodup_map hsymbols hs hs' hsame
    obtain rfl : v = v' := Option.some.inj (hv.symm.trans hv')
    rfl
  have hfresh : h.symbol ∈ symbols →
      (h.symbol.identity ∉ c.identities ↔ firstHit? o rules h.symbol = none) := by
    intro hs
    rw [Option.eq_none_iff_forall_ne_some, Candidates.identities, List.mem_map]
    constructor
    · intro hnot h' hh'
      have hsymbol := symbol_of_firstHit? hh'
      refine hnot ⟨h', (hc.mem h').mpr (mem_hitsBy.mpr ?_), by rw [hsymbol]⟩
      rw [hsymbol]
      exact ⟨hs, hh'⟩
    · rintro hnone ⟨h', hh', hsame⟩
      obtain ⟨hs', hfirst⟩ := mem_hitsBy.mp ((hc.mem h').mp hh')
      rw [List.inj_on_of_nodup_map hsymbols hs' hs hsame] at hfirst
      exact hnone h' hfirst
  rw [hc.tidy.mem_foldl_offer hits_inj, hc.mem, mem_hitsBy, mem_hitsBy, hfinds, firstHit?_concat,
    Option.or_eq_some_iff, hit?_eq_some]
  constructor
  · rintro (⟨hs, hfirst⟩ | ⟨⟨hs, hv, hstrategy⟩, haccepts, hnew⟩)
    · exact ⟨hs, .inl hfirst⟩
    · exact ⟨hs, .inr ⟨(hfresh hs).mp hnew, rfl, hv, hstrategy, haccepts⟩⟩
  · rintro ⟨hs, hfirst | ⟨hnone, -, hv, hstrategy, haccepts⟩⟩
    · exact .inl ⟨hs, hfirst⟩
    · exact .inr ⟨⟨hs, hv, hstrategy⟩, haccepts, (hfresh hs).mpr hnone⟩

/-- Candidates that were gathered by going through rules: the hits by those that were reached. -/
def Pursued (o : SearchOptions σ) (symbols : List Symbol) (rules : List (Rule σ))
    (c : Candidates σ) : Prop :=
  ∃ reached others, rules = reached ++ others ∧ Gathered o symbols reached c ∧
    (∀ before r after, reached = before ++ r :: after → Reached o symbols before) ∧
    (others = [] ∨ ¬ Reached o symbols reached)

theorem pursued_nil (o : SearchOptions σ) (symbols : List Symbol) : Pursued o symbols [] {} :=
  ⟨[], [], rfl, gathered_empty o symbols, by simp, .inl rfl⟩

theorem Pursued.tidy (hc : Pursued o symbols rules c) : c.Tidy := by
  obtain ⟨reached, others, -, hgathered, -, -⟩ := hc
  exact hgathered.tidy

/-- Where fewer candidates than wanted were gathered, all rules were reached. -/
theorem Pursued.gathered (hc : Pursued o symbols rules c)
    (hsymbols : (symbols.map Symbol.identity).Nodup) (hfew : c.hits.length < o.maxResults) :
    Gathered o symbols rules c ∧
      ∀ before r after, rules = before ++ r :: after → Reached o symbols before := by
  obtain ⟨reached, others, rfl, hgathered, hreached, hothers⟩ := hc
  have hnow : Reached o symbols reached := by
    rw [(hgathered.perm hsymbols).length_eq] at hfew
    exact .inr hfew
  obtain rfl := hothers.resolve_right (not_not_intro hnow)
  rw [List.append_nil]
  exact ⟨hgathered, hreached⟩

/-- Going on to the next rule, which is tried only if it is reached. -/
theorem Pursued.next (hc : Pursued o symbols rules c)
    (hsymbols : (symbols.map Symbol.identity).Nodup) (hfinds : r.Finds symbols hits) :
    Pursued o symbols (rules ++ [r])
      (if o.exact = true ∨ ¬ c.isFull o = true then hits.foldl (Candidates.offer o) c else c) := by
  obtain ⟨reached, others, rfl, hgathered, hreached, hothers⟩ := hc
  have hfull : (o.exact = true ∨ ¬ c.isFull o = true) ↔ Reached o symbols reached := by
    unfold Candidates.isFull Reached
    rw [decide_eq_true_eq, Nat.not_le, (hgathered.perm hsymbols).length_eq]
  by_cases hnow : Reached o symbols reached
  · rw [if_pos (hfull.mpr hnow)]
    obtain rfl : others = [] := hothers.resolve_right (not_not_intro hnow)
    refine ⟨reached ++ [r], [], by simp, hgathered.offer hsymbols hfinds, ?_, .inl rfl⟩
    intro before r' after hsplit
    rcases List.eq_nil_or_concat after with rfl | ⟨front, last, rfl⟩
    · rw [← List.append_inj_left' hsplit rfl]
      exact hnow
    · rw [List.concat_eq_append, ← List.cons_append, ← List.append_assoc] at hsplit
      exact hreached before r' front (List.append_inj_left' hsplit rfl)
  · rw [if_neg (mt hfull.mp hnow)]
    exact ⟨reached, others ++ [r], by simp, hgathered, hreached, .inr hnow⟩

end Search

end SymbolAtlas
