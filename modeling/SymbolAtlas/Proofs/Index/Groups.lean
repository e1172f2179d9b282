import Mathlib.Data.List.Basic
import SymbolAtlas.Index.Groups

/-!
# Groups of a list

Groups hold a list of symbols when each key leads to the symbols of the list that have it, in the
order of the list, and no key leads to nothing.
-/

namespace SymbolAtlas.Groups

variable {κ : Type} [Ord κ] [DecidableEq κ]

/-- Each key leads to exactly the symbols of the list that have it; a key that none has is not
there. -/
def Hold (g : Groups κ) (key : Symbol → κ) (l : List Symbol) : Prop :=
  ∀ k, g[k]? = unlessEmpty (l.filter (key · = k))

@[simp] theorem unlessEmpty_nil : unlessEmpty [] = none := rfl

theorem unlessEmpty_of_ne_nil {l : List Symbol} (h : l ≠ []) : unlessEmpty l = some l := by
  cases l with
  | nil => exact absurd rfl h
  | cons s rest => rfl

theorem isSome_unlessEmpty (l : List Symbol) : (unlessEmpty l).isSome = !l.isEmpty := by
  cases l <;> rfl

theorem under_of_hold {g : Groups κ} {key : Symbol → κ} {l : List Symbol} (h : g.Hold key l)
    (k : κ) : under g k = l.filter (key · = k) := by
  rw [under, h k, getD_unlessEmpty]

theorem mem_under_of_hold {g : Groups κ} {key : Symbol → κ} {l : List Symbol} (h : g.Hold key l)
    {k : κ} {s : Symbol} : s ∈ under g k ↔ s ∈ l ∧ key s = k := by
  rw [under_of_hold h, List.mem_filter, decide_eq_true_eq]

variable [Std.TransOrd κ]

theorem contains_eq_of_hold {g : Groups κ} {key : Symbol → κ} {l : List Symbol}
    (h : g.Hold key l) (k : κ) : g.contains k = l.any (key · = k) := by
  rw [Std.TreeMap.contains_eq_isSome_getElem?, h k, isSome_unlessEmpty]
  cases hl : l.any (key · = k) <;> simp_all

theorem hold_empty (key : Symbol → κ) : Hold ({} : Groups κ) key [] := by
  intro k
  simp

variable [Std.LawfulEqOrd κ]

theorem getElem?_add (g : Groups κ) (k k' : κ) (s : Symbol) :
    (add g k s)[k']? = if k = k' then some (under g k ++ [s]) else g[k']? := by
  simp only [add, Std.TreeMap.getElem?_alter, Std.LawfulEqCmp.compare_eq_iff_eq, under]

theorem getElem?_retain (g : Groups κ) (k k' : κ) (keep : Symbol → Bool) :
    (retain g k keep)[k']? =
      if k = k' then unlessEmpty ((under g k).filter keep) else g[k']? := by
  simp only [retain, Std.TreeMap.getElem?_alter, Std.LawfulEqCmp.compare_eq_iff_eq, under]

theorem hold_add {g : Groups κ} {key : Symbol → κ} {l : List Symbol} (h : g.Hold key l)
    (s : Symbol) : (add g (key s) s).Hold key (l ++ [s]) := by
  intro k
  rw [getElem?_add, under_of_hold h, List.filter_append]
  by_cases hk : key s = k
  · subst hk
    rw [if_pos rfl, unlessEmpty_of_ne_nil] <;> simp
  · rw [if_neg hk, h k]
    simp [hk]

/-! ## Retaining under several keys -/

theorem getElem?_foldl_retain (keep : Symbol → Bool) (keys : List κ) (g : Groups κ) (k : κ) :
    (keys.foldl (fun g k => retain g k keep) g)[k]? =
      if k ∈ keys then unlessEmpty ((under g k).filter keep) else g[k]? := by
  induction keys generalizing g with
  | nil => simp
  | cons k₁ rest ih =>
      rw [List.foldl_cons, ih, getElem?_retain, under_retain]
      by_cases h₁ : k = k₁
      · subst h₁
        by_cases hr : k ∈ rest <;> simp [hr]
      · by_cases hr : k ∈ rest <;> simp [hr, h₁, Ne.symm h₁]

/-- Symbols are gone when those of their keys have been gone through. -/
theorem hold_foldl_retain {g : Groups κ} {key : Symbol → κ} {l : List Symbol}
    (h : g.Hold key l) {keep : Symbol → Bool} {keys : List κ}
    (hkeys : ∀ s ∈ l, keep s = false → key s ∈ keys) :
    (keys.foldl (fun g k => retain g k keep) g).Hold key (l.filter keep) := by
  intro k
  rw [getElem?_foldl_retain, under_of_hold h, List.filter_filter, List.filter_filter]
  split_ifs with hk
  · exact congrArg unlessEmpty (List.filter_congr fun s _ => Bool.and_comm _ _)
  · rw [h k]
    refine congrArg unlessEmpty (List.filter_congr fun s hs => ?_)
    by_cases hsk : key s = k
    · have hkept : keep s = true := by
        by_contra hgone
        exact hk (hsk ▸ hkeys s hs (by simpa using hgone))
      simp [hkept]
    · simp [hsk]

end SymbolAtlas.Groups
