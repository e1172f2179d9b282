import Mathlib.Data.Rat.Defs
import Mathlib.Algebra.Order.Ring.Rat
import Mathlib.Order.Compare
import SymbolAtlas.Search.Ranking

/-!
# The order of hits

Over scores that are linearly ordered, the orders by which hits are sorted are total preorders.
Sorting by such an order and keeping the first elements loses none that is strictly before one that
is kept.
-/

namespace SymbolAtlas

/-- Scores of a linear order. -/
class LawfulScore (σ : Type) [LinearOrder σ] [Score σ] : Prop where
  less_eq : ∀ a b : σ, Score.less a b = decide (a < b)

/-- Exact scores. -/
instance : Score Rat where
  tenths n := n / 10
  add a b := a + b
  mul a b := a * b
  complement m n := 1 - m / n
  less a b := decide (a < b)

instance : LawfulScore Rat where
  less_eq _ _ := rfl

section Orders

variable {σ : Type} [LinearOrder σ] [Score σ] [LawfulScore σ]

theorem less_iff {a b : σ} : Score.less a b = true ↔ a < b := by
  rw [LawfulScore.less_eq, decide_eq_true_eq]

theorem order_eq_compare (a b : σ) : Score.order a b = compare a b := by
  rw [LinearOrder.compare_eq_compareOfLessAndEq]
  unfold Score.order compareOfLessAndEq
  simp only [less_iff]
  by_cases hlt : a < b
  · rw [if_pos hlt, if_pos hlt]
  · rw [if_neg hlt, if_neg hlt]
    by_cases heq : a = b
    · rw [if_pos heq, if_neg (heq ▸ lt_irrefl a)]
    · rw [if_neg heq, if_pos (lt_of_le_of_ne (not_lt.mp hlt) (Ne.symm heq))]

instance : Std.TransCmp (Score.order : σ → σ → Ordering) := by
  have heq : (Score.order : σ → σ → Ordering) = compare := by
    funext a b
    exact order_eq_compare a b
  rw [heq]
  infer_instance

end Orders

/-! ## Orders of symbols and hits -/

instance : Std.TransCmp Symbol.tieBreak :=
  inferInstanceAs (Std.TransCmp (compareLex (compareOn fun s : Symbol => s.name.length)
    (compareLex (compareOn Symbol.name) (compareLex (compareOn Symbol.qualifiedName)
      (compareLex (compareOn fun s => s.file.place) (compareOn Symbol.range))))))

/-- An order by what elements have. -/
theorem transCmp_on {α β : Type} (cmp : β → β → Ordering) [Std.TransCmp cmp] (f : α → β) :
    Std.TransCmp fun a b => cmp (f a) (f b) where
  eq_swap {a b} := @Std.OrientedCmp.eq_swap _ cmp _ (f a) (f b)
  isLE_trans {a b c} := @Std.TransCmp.isLE_trans _ cmp _ (f a) (f b) (f c)

/-- An order of symbols, for hits. -/
theorem transCmp_symbol {σ : Type} (cmp : Symbol → Symbol → Ordering) [Std.TransCmp cmp] :
    Std.TransCmp fun a b : Hit σ => cmp a.symbol b.symbol :=
  transCmp_on cmp Hit.symbol

section Hits

variable {σ : Type} [LinearOrder σ] [Score σ] [LawfulScore σ]

instance : Std.TransCmp (Hit.byScore : Hit σ → Hit σ → Ordering) where
  eq_swap {a b} := @Std.OrientedCmp.eq_swap _ Score.order _ b.score a.score
  isLE_trans {a b c} hab hbc :=
    @Std.TransCmp.isLE_trans _ Score.order _ c.score b.score a.score hbc hab

instance (key : SortKey) : Std.TransCmp (key.primary : Hit σ → Hit σ → Ordering) := by
  cases key with
  | relevance => exact inferInstanceAs (Std.TransCmp Hit.byScore)
  | name => exact transCmp_symbol (compareOn fun s => Text.lowercase s.name)
  | location =>
      exact transCmp_symbol
        (compareLex (compareOn fun s => s.file.place) (compareOn Symbol.range))
  | kind => exact transCmp_symbol (compareOn Symbol.kind)
  | project => exact transCmp_symbol (compareOn Symbol.project)

/-- The order of the hits of a search is a total preorder. -/
instance (key : SortKey) : Std.TransCmp (key.order : Hit σ → Hit σ → Ordering) := by
  have htie : Std.TransCmp fun a b : Hit σ => a.symbol.tieBreak b.symbol := transCmp_symbol _
  exact inferInstanceAs (Std.TransCmp (compareLex (compareLex key.primary
    fun a b : Hit σ => a.symbol.tieBreak b.symbol) Hit.byScore))

end Hits

/-! ## Sorting -/

section Sorting

variable {α : Type} {order : α → α → Ordering} {a b : α}

theorem perm_sortBy (order : α → α → Ordering) (xs : List α) : (sortBy order xs).Perm xs :=
  List.mergeSort_perm xs _

theorem perm_sortBy_reverse (order : α → α → Ordering) (xs : List α) :
    (sortBy order xs.reverse).Perm xs :=
  (perm_sortBy order xs.reverse).trans xs.reverse_perm

theorem notGt_trans [Std.TransCmp order] (a b c : α) (hab : (order a b != .gt) = true)
    (hbc : (order b c != .gt) = true) : (order a c != .gt) = true := by
  rw [bne_iff_ne, ne_eq, ← Ordering.isLE_iff_ne_gt] at hab hbc ⊢
  exact Std.TransCmp.isLE_trans hab hbc

theorem notGt_total [Std.OrientedCmp order] (a b : α) :
    ((order a b != .gt) || (order b a != .gt)) = true := by
  rw [Bool.or_eq_true, bne_iff_ne, bne_iff_ne]
  by_contra hboth
  push Not at hboth
  have hlt := Std.OrientedCmp.gt_iff_lt.mp hboth.1
  rw [hboth.2] at hlt
  cases hlt

theorem pairwise_sortBy [Std.TransCmp order] (xs : List α) :
    (sortBy order xs).Pairwise fun a b => order a b ≠ .gt :=
  (List.pairwise_mergeSort notGt_trans notGt_total xs).imp fun hle => by simpa using hle

/-- What is cut off is not strictly before anything that is kept. -/
theorem not_lt_of_cut [Std.TransCmp order] {xs : List α} {n : Nat} (ha : a ∈ xs)
    (hcut : a ∉ (sortBy order xs).take n) (hb : b ∈ (sortBy order xs).take n) :
    order a b ≠ .lt := by
  have hsorted : (sortBy order xs).Pairwise fun a b => order a b ≠ .gt := pairwise_sortBy xs
  rw [← List.take_append_drop n (sortBy order xs), List.pairwise_append] at hsorted
  have hdrop : a ∈ (sortBy order xs).drop n := by
    have hin : a ∈ sortBy order xs := (perm_sortBy order xs).mem_iff.mpr ha
    rw [← List.take_append_drop n (sortBy order xs)] at hin
    exact (List.mem_append.mp hin).resolve_left hcut
  have hle := hsorted.2.2 b hb a hdrop
  intro hlt
  exact hle (Std.OrientedCmp.gt_iff_lt.mpr hlt)

/-! ## Stability -/

/-- What the order does not tell apart from an element stays in place. -/
theorem filter_sortBy [Std.TransCmp order] (a : α) (xs : List α) :
    (sortBy order xs).filter (order a · == .eq) = xs.filter (order a · == .eq) := by
  have hequal : (xs.filter (order a · == .eq)).Pairwise fun b c => (order b c != .gt) = true := by
    apply List.pairwise_of_forall_mem_list
    intro b hb c hc
    have hab : order a b = .eq := by simpa using (List.mem_filter.mp hb).2
    have hac : order a c = .eq := by simpa using (List.mem_filter.mp hc).2
    rw [Std.TransCmp.congr_left (Std.OrientedCmp.eq_symm hab), hac]
    rfl
  have hsub : (xs.filter (order a · == .eq)).Sublist (sortBy order xs) :=
    List.sublist_mergeSort notGt_trans notGt_total hequal List.filter_sublist
  have hfiltered := hsub.filter (order a · == .eq)
  rw [List.filter_filter] at hfiltered
  simp only [Bool.and_self] at hfiltered
  exact (hfiltered.eq_of_length ((perm_sortBy order xs).filter _).length_eq.symm).symm

section Classes

variable [Std.TransCmp order] {xs ys : List α}

theorem mem_of_filter_eq (ha : a ∈ xs)
    (hclass : xs.filter (order a · == .eq) = ys.filter (order a · == .eq)) : a ∈ ys := by
  have hin : a ∈ xs.filter (order a · == .eq) :=
    List.mem_filter.mpr ⟨ha, beq_iff_eq.mpr Std.ReflCmp.compare_self⟩
  rw [hclass] at hin
  exact (List.mem_filter.mp hin).1

theorem head_le (hsorted : (b :: ys).Pairwise fun a b => order a b ≠ .gt) (ha : a ∈ b :: ys) :
    order b a ≠ .gt := by
  rcases List.mem_cons.mp ha with rfl | hrest
  · have hself : order a a = .eq := Std.ReflCmp.compare_self
    simp [hself]
  · exact (List.pairwise_cons.mp hsorted).1 a hrest

/-- Sorted lists are equal if they have the same elements of each class in the same order. -/
theorem eq_of_filter_eq (hxs : xs.Pairwise fun a b => order a b ≠ .gt)
    (hys : ys.Pairwise fun a b => order a b ≠ .gt)
    (hclass : ∀ a, xs.filter (order a · == .eq) = ys.filter (order a · == .eq)) : xs = ys := by
  induction xs generalizing ys with
  | nil =>
      cases ys with
      | nil => rfl
      | cons b ys => cases mem_of_filter_eq List.mem_cons_self (hclass b).symm
  | cons a xs ih =>
      cases ys with
      | nil => cases mem_of_filter_eq List.mem_cons_self (hclass a)
      | cons b ys =>
          have hab : order a b = .eq := by
            have hle := head_le hxs (mem_of_filter_eq List.mem_cons_self (hclass b).symm)
            have hge := head_le hys (mem_of_filter_eq List.mem_cons_self (hclass a))
            rw [ne_eq, Std.OrientedCmp.gt_iff_lt] at hge
            cases hcmp : order a b <;> simp_all
          have haa : order a a = .eq := Std.ReflCmp.compare_self
          have hheads := hclass a
          simp only [List.filter_cons, haa, hab, beq_self_eq_true, if_true] at hheads
          obtain ⟨rfl, -⟩ := List.cons.inj hheads
          rw [ih hxs.of_cons hys.of_cons fun c => ?_]
          have hc := hclass c
          rw [List.filter_cons, List.filter_cons] at hc
          split_ifs at hc
          · exact (List.cons.inj hc).2
          · exact hc

/-- Sorting leads to the same list if the elements of each class come in the same order. -/
theorem sortBy_congr
    (hclass : ∀ a, xs.filter (order a · == .eq) = ys.filter (order a · == .eq)) :
    sortBy order xs = sortBy order ys := by
  have hxs : (sortBy order xs).Pairwise fun a b => order a b ≠ .gt := pairwise_sortBy xs
  have hys : (sortBy order ys).Pairwise fun a b => order a b ≠ .gt := pairwise_sortBy ys
  refine eq_of_filter_eq hxs hys fun a => ?_
  rw [filter_sortBy, filter_sortBy, hclass a]

end Classes

end Sorting

end SymbolAtlas
