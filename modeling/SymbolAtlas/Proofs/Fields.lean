import Mathlib.Tactic

/-!
# Lists of fields

What is found under a key in a list of keys and values.
-/

namespace SymbolAtlas

variable {α : Type} {key : String}

theorem lookup_cons_eq (key k : String) (a : α) (rest : List (String × α)) :
    ((k, a) :: rest).lookup key = if key = k then some a else rest.lookup key := by
  rw [List.lookup_cons]
  by_cases h : key = k
  · rw [if_pos h, beq_iff_eq.mpr h]
  · rw [if_neg h, beq_eq_false_iff_ne.mpr h]

theorem lookup_eq_none {fields : List (String × α)} (h : key ∉ fields.map Prod.fst) :
    fields.lookup key = none := by
  rw [List.lookup_eq_none_iff]
  intro f hf
  have hne : key ≠ f.1 := by
    rintro rfl
    exact h (List.mem_map_of_mem hf)
  simpa using hne

end SymbolAtlas
