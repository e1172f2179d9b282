import Mathlib.Data.List.Induction
import SymbolAtlas.Search.Distance

/-!
# The equations of the edit distance

The distances of a text from all beginnings of another one stand in a row. A row of a longer second
text starts with that of the shorter one, so the last entries of three rows give the next distance.
-/

namespace SymbolAtlas

/-- The distances of a text from all beginnings of another one. -/
def distances (a b : List Char) : List Nat := a.foldl (nextRow b) (List.range (b.length + 1))

variable {a b : List Char}

theorem editDistance_eq (a b : List Char) : editDistance a b = ((distances a b).getLast?).getD 0 :=
  rfl

theorem distances_concat_left (a b : List Char) (c : Char) :
    distances (a ++ [c]) b = nextRow b (distances a b) c := by
  unfold distances
  rw [List.foldl_append, List.foldl_cons, List.foldl_nil]

/-! ## One row after the other -/

theorem length_fillRow {above : List Nat} (h : above.length = b.length + 1) (c : Char)
    (left : Nat) : (fillRow c left b above).length = b.length := by
  induction b generalizing above left with
  | nil => rfl
  | cons d ds ih =>
      match above, h with
      | diagonal :: up :: above, h =>
          rw [fillRow, List.length_cons, ih (by simpa using h), List.length_cons]

theorem length_distances (a b : List Char) : (distances a b).length = b.length + 1 := by
  induction a using List.reverseRecOn with
  | nil => exact List.length_range
  | append_singleton a c ih =>
      rw [distances_concat_left]
      obtain ⟨first, rest, hrow⟩ := List.exists_cons_of_length_eq_add_one ih
      rw [hrow] at ih ⊢
      rw [nextRow, List.length_cons, length_fillRow ih]

/-- A longer second text adds one entry at the end. -/
theorem fillRow_concat {above : List Nat} (h : above.length = b.length + 1) (c d : Char)
    (left up : Nat) :
    fillRow c left (b ++ [d]) (above ++ [up]) = fillRow c left b above ++
      [min (min ((above.getLast?).getD 0 + if c = d then 0 else 1) (up + 1))
        (((left :: fillRow c left b above).getLast?).getD 0 + 1)] := by
  induction b generalizing above left with
  | nil =>
      obtain ⟨diagonal, rfl⟩ := List.length_eq_one_iff.mp h
      rfl
  | cons e es ih =>
      match above, h with
      | diagonal :: next :: above, h =>
          rw [List.cons_append, List.cons_append, List.cons_append, fillRow, fillRow,
            ← List.cons_append, ih (by simpa using h), List.getLast?_cons_cons,
            List.getLast?_cons_cons]
          rfl

theorem nextRow_concat {above : List Nat} (h : above.length = b.length + 1) (c d : Char)
    (up : Nat) :
    nextRow (b ++ [d]) (above ++ [up]) c = nextRow b above c ++
      [min (min ((above.getLast?).getD 0 + if c = d then 0 else 1) (up + 1))
        (((nextRow b above c).getLast?).getD 0 + 1)] := by
  obtain ⟨first, rest, rfl⟩ := List.exists_cons_of_length_eq_add_one h
  rw [List.cons_append, nextRow, nextRow, ← List.cons_append, fillRow_concat h, List.cons_append]

theorem distances_concat_right (a b : List Char) (d : Char) :
    distances a (b ++ [d]) = distances a b ++ [editDistance a (b ++ [d])] := by
  have hlonger : ∃ last, distances a (b ++ [d]) = distances a b ++ [last] := by
    induction a using List.reverseRecOn with
    | nil =>
        refine ⟨b.length + 1, ?_⟩
        unfold distances
        rw [List.foldl_nil, List.foldl_nil, List.length_append, List.length_singleton,
          List.range_succ]
    | append_singleton a c ih =>
        obtain ⟨last, hlast⟩ := ih
        rw [distances_concat_left, distances_concat_left, hlast,
          nextRow_concat (length_distances a b)]
        exact ⟨_, rfl⟩
  obtain ⟨last, hlast⟩ := hlonger
  rw [editDistance_eq, hlast, List.getLast?_concat, Option.getD_some]

/-! ## The equations -/

theorem editDistance_nil_left (b : List Char) : editDistance [] b = b.length := by
  rw [editDistance_eq, distances, List.foldl_nil, List.range_succ, List.getLast?_concat,
    Option.getD_some]

theorem editDistance_nil_right (a : List Char) : editDistance a [] = a.length := by
  have hrow : distances a [] = [a.length] := by
    induction a using List.reverseRecOn with
    | nil => rfl
    | append_singleton a c ih =>
        rw [distances_concat_left, ih, List.length_append]
        rfl
  rw [editDistance_eq, hrow]
  rfl

/-- The last characters are changed into each other or kept, or one of them is left out. -/
theorem editDistance_concat (a b : List Char) (c d : Char) :
    editDistance (a ++ [c]) (b ++ [d]) =
      min (min (editDistance a b + if c = d then 0 else 1) (editDistance a (b ++ [d]) + 1))
        (editDistance (a ++ [c]) b + 1) := by
  have hrow := distances_concat_right (a ++ [c]) b d
  rw [distances_concat_left, distances_concat_right,
    nextRow_concat (length_distances a b)] at hrow
  rw [← distances_concat_left, ← editDistance_eq, ← editDistance_eq] at hrow
  simpa using hrow.symm

theorem editDistance_eq_zero_iff : editDistance a b = 0 ↔ a = b := by
  induction a using List.reverseRecOn generalizing b with
  | nil => rw [editDistance_nil_left, List.length_eq_zero_iff, eq_comm]
  | append_singleton a c ih =>
      rcases List.eq_nil_or_concat b with rfl | ⟨b, d, rfl⟩
      · simp [editDistance_nil_right]
      · -- Leaving a character out costs something, so only the first way can be free.
        rw [List.concat_eq_append, editDistance_concat, List.append_singleton_inj, ← ih]
        split_ifs with hcd
        · simp [hcd]
        · simp [hcd]

end SymbolAtlas
