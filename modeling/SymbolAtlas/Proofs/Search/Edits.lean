import Mathlib.Order.Bounds.Basic
import SymbolAtlas.Proofs.Search.Exact

/-!
# Edits

A text is turned into another one by inserting, deleting and changing single characters, at any
places and in any order. No way to do so is shorter than the edit distance says: one edit anywhere
brings a text closer to any other text by one at most. And one way is that short, as the equations
of the distance tell from the end of the texts which edit to make.
-/

namespace SymbolAtlas

/-- One edit of a text, at any place. -/
inductive SingleEdit : List Char → List Char → Prop where
  | insert (before after : List Char) (c : Char) :
    SingleEdit (before ++ after) (before ++ c :: after)
  | delete (before after : List Char) (c : Char) :
    SingleEdit (before ++ c :: after) (before ++ after)
  | change (before after : List Char) (c d : Char) :
    SingleEdit (before ++ c :: after) (before ++ d :: after)

/-- A text is turned into another one by so many edits, one after the other. -/
inductive Edits : Nat → List Char → List Char → Prop where
  | done (a : List Char) : Edits 0 a a
  | step {n : Nat} {a b c : List Char} : SingleEdit a b → Edits n b c → Edits (n + 1) a c

variable {m n : Nat} {a b c : List Char}

/-! ## Sequences of edits -/

theorem SingleEdit.symm (h : SingleEdit a b) : SingleEdit b a := by
  cases h with
  | insert before after c => exact .delete before after c
  | delete before after c => exact .insert before after c
  | change before after c d => exact .change before after d c

theorem SingleEdit.append (h : SingleEdit a b) (rest : List Char) :
    SingleEdit (a ++ rest) (b ++ rest) := by
  cases h with
  | insert before after c =>
      rw [List.append_assoc, List.append_assoc]
      exact .insert before (after ++ rest) c
  | delete before after c =>
      rw [List.append_assoc, List.append_assoc]
      exact .delete before (after ++ rest) c
  | change before after c d =>
      rw [List.append_assoc, List.append_assoc]
      exact .change before (after ++ rest) c d

theorem SingleEdit.insert_last (a : List Char) (c : Char) : SingleEdit a (a ++ [c]) := by
  have h := SingleEdit.insert a [] c
  rwa [List.append_nil] at h

theorem SingleEdit.length_le (h : SingleEdit a b) : a.length ≤ b.length + 1 := by
  cases h <;> simp only [List.length_append, List.length_cons] <;> omega

theorem Edits.trans (h : Edits m a b) (h' : Edits n b c) : Edits (m + n) a c := by
  induction h with
  | done a =>
      rw [Nat.zero_add]
      exact h'
  | step hedit _ ih =>
      rw [Nat.add_right_comm]
      exact .step hedit (ih h')

theorem Edits.concat (h : Edits n a b) (hedit : SingleEdit b c) : Edits (n + 1) a c :=
  h.trans (.step hedit (.done c))

theorem Edits.symm (h : Edits n a b) : Edits n b a := by
  induction h with
  | done a => exact .done a
  | step hedit _ ih => exact ih.concat hedit.symm

theorem Edits.append (h : Edits n a b) (rest : List Char) : Edits n (a ++ rest) (b ++ rest) := by
  induction h with
  | done a => exact .done (a ++ rest)
  | step hedit _ ih => exact .step (hedit.append rest) ih

theorem Edits.length_le (h : Edits n a b) : a.length ≤ b.length + n := by
  induction h with
  | done a => exact Nat.le_refl _
  | step hedit _ ih =>
      have hlength := hedit.length_le
      omega

/-! ## No way is shorter -/

/-- The first text is at most by one further away from any text than the second one. -/
def Near (a b : List Char) : Prop := ∀ c, editDistance a c ≤ editDistance b c + 1

theorem near_concat (a : List Char) (x : Char) : Near (a ++ [x]) a := by
  intro c
  rcases List.eq_nil_or_concat c with rfl | ⟨c, z, rfl⟩
  · rw [editDistance_nil_right, editDistance_nil_right, List.length_append,
      List.length_singleton]
  · rw [List.concat_eq_append, editDistance_concat]
    omega

/-- A character less to start from is made up for by one insertion. -/
theorem concat_near (a : List Char) (x : Char) : Near a (a ++ [x]) := by
  intro c
  induction c using List.reverseRecOn with
  | nil =>
      rw [editDistance_nil_right, editDistance_nil_right, List.length_append]
      omega
  | append_singleton c z ih =>
      have hlonger : editDistance a (c ++ [z]) ≤ editDistance a c + 1 := by
        rcases List.eq_nil_or_concat a with rfl | ⟨a, y, rfl⟩
        · rw [editDistance_nil_left, editDistance_nil_left, List.length_append,
            List.length_singleton]
        · rw [List.concat_eq_append, editDistance_concat]
          omega
      rw [editDistance_concat]
      omega

theorem near_change (a : List Char) (x y : Char) : Near (a ++ [x]) (a ++ [y]) := by
  intro c
  induction c using List.reverseRecOn with
  | nil =>
      rw [editDistance_nil_right, editDistance_nil_right, List.length_append, List.length_append]
      simp
  | append_singleton c z ih =>
      have hcost (w : Char) : (if w = z then 0 else 1) ≤ 1 := by split <;> omega
      have hx := hcost x
      rw [editDistance_concat, editDistance_concat]
      omega

/-- Texts stay near each other when both go on in the same way. -/
theorem Near.append_singleton (h : Near a b) (y : Char) : Near (a ++ [y]) (b ++ [y]) := by
  intro c
  induction c using List.reverseRecOn with
  | nil =>
      have hnil := h []
      rw [editDistance_nil_right, editDistance_nil_right] at hnil
      rw [editDistance_nil_right, editDistance_nil_right, List.length_append, List.length_append]
      omega
  | append_singleton c z ih =>
      have hkept := h c
      have hleft := h (c ++ [z])
      rw [editDistance_concat, editDistance_concat]
      omega

theorem Near.append (h : Near a b) (rest : List Char) : Near (a ++ rest) (b ++ rest) := by
  induction rest using List.reverseRecOn with
  | nil =>
      rw [List.append_nil, List.append_nil]
      exact h
  | append_singleton rest y ih =>
      rw [← List.append_assoc, ← List.append_assoc]
      exact ih.append_singleton y

theorem SingleEdit.near (h : SingleEdit a b) : Near a b := by
  cases h with
  | insert before after x =>
      have hnear := (concat_near before x).append after
      rwa [List.append_assoc, List.singleton_append] at hnear
  | delete before after x =>
      have hnear := (near_concat before x).append after
      rwa [List.append_assoc, List.singleton_append] at hnear
  | change before after x y =>
      have hnear := (near_change before x y).append after
      rwa [List.append_assoc, List.append_assoc, List.singleton_append, List.singleton_append]
        at hnear

theorem Edits.editDistance_le (h : Edits n a b) : editDistance a b ≤ n := by
  induction h with
  | done a => rw [editDistance_eq_zero_iff.mpr rfl]
  | @step n a b c hedit _ ih =>
      have hnear := hedit.near c
      omega

/-! ## One way is that short -/

theorem edits_nil_left (b : List Char) : Edits b.length [] b := by
  induction b using List.reverseRecOn with
  | nil => exact .done []
  | append_singleton b d ih =>
      rw [List.length_append]
      exact ih.concat (.insert_last b d)

/-- The texts are made equal before their last characters. -/
theorem Edits.change_last (h : Edits n a b) (c d : Char) :
    Edits (n + if c = d then 0 else 1) (a ++ [c]) (b ++ [d]) := by
  by_cases hsame : c = d
  · rw [if_pos hsame, hsame]
    exact h.append [d]
  · rw [if_neg hsame]
    exact (h.append [c]).concat (.change b [] c d)

theorem edits_editDistance (a b : List Char) : Edits (editDistance a b) a b := by
  induction a using List.reverseRecOn generalizing b with
  | nil =>
      rw [editDistance_nil_left]
      exact edits_nil_left b
  | append_singleton a c ih =>
      induction b using List.reverseRecOn with
      | nil =>
          rw [editDistance_nil_right]
          exact (edits_nil_left (a ++ [c])).symm
      | append_singleton b d ihb =>
          -- The equation takes the least of three ways, so it is one of them.
          have hchange := (ih b).change_last c d
          have hdelete := (ih (b ++ [d])).symm.concat (.insert_last a c)
          have hinsert := ihb.concat (.insert_last b d)
          rw [editDistance_concat]
          exact min_rec' (Edits · _ _) (min_rec' (Edits · _ _) hchange hdelete.symm) hinsert

/-! ## Bounds -/

theorem editDistance_le_max (a b : List Char) : editDistance a b ≤ max a.length b.length := by
  induction a using List.reverseRecOn generalizing b with
  | nil =>
      rw [editDistance_nil_left]
      exact le_max_right _ _
  | append_singleton a c ih =>
      rcases List.eq_nil_or_concat b with rfl | ⟨b, d, rfl⟩
      · rw [editDistance_nil_right]
        exact le_max_left _ _
      · have hcost : (if c = d then 0 else 1) ≤ 1 := by split <;> omega
        have hshorter := ih b
        rw [List.concat_eq_append, editDistance_concat, List.length_append, List.length_append,
          List.length_singleton, List.length_singleton]
        omega

theorem similarity_nonneg (a b : List Char) : (0 : Rat) ≤ similarity a b := by
  unfold similarity
  dsimp only
  split
  · decide +kernel
  · have hbound : (editDistance a b : Rat) ≤ (max a.length b.length : Nat) :=
      Nat.cast_le.mpr (editDistance_le_max a b)
    exact sub_nonneg.mpr (div_le_one_of_le₀ hbound (Nat.cast_nonneg _))

theorem similarity_self (a : List Char) : (similarity a a : Rat) = 1 := by
  have hzero : editDistance a a = 0 := editDistance_eq_zero_iff.mpr rfl
  unfold similarity
  dsimp only
  split
  · decide +kernel
  · rw [hzero]
    show (1 : Rat) - (0 : Nat) / _ = 1
    rw [Nat.cast_zero, zero_div, sub_zero]

/-- The edit distance is the least number of insertions, deletions and changes of single characters
that turn one text into the other. Hence it is a metric between the difference and the maximum of
the lengths, and the likeness of two texts lies between zero and one, which it is for equal texts
alone. -/
theorem isLeast_editDistance (a b c : List Char) :
    IsLeast { n | Edits n a b } (editDistance a b) ∧
    editDistance b a = editDistance a b ∧
    (editDistance a b = 0 ↔ a = b) ∧
    editDistance a c ≤ editDistance a b + editDistance b c ∧
    max a.length b.length - min a.length b.length ≤ editDistance a b ∧
    editDistance a b ≤ max a.length b.length ∧
    (0 : Rat) ≤ similarity a b ∧ (similarity a b : Rat) ≤ 1 ∧
    ((similarity a b : Rat) = 1 ↔ a = b) := by
  have hab := edits_editDistance a b
  have hba := edits_editDistance b a
  refine ⟨⟨hab, fun n hn => hn.editDistance_le⟩, ?_, editDistance_eq_zero_iff, ?_, ?_,
    editDistance_le_max a b, similarity_nonneg a b, ?_, ?_⟩
  · exact le_antisymm hab.symm.editDistance_le hba.symm.editDistance_le
  · exact (hab.trans (edits_editDistance b c)).editDistance_le
  · have hfirst := hab.length_le
    have hsecond := hab.symm.length_le
    omega
  · by_cases hsame : a = b
    · rw [hsame, similarity_self]
    · exact (Search.similarity_lt_one hsame).le
  · constructor
    · intro hone
      by_contra hother
      exact (Search.similarity_lt_one hother).ne hone
    · rintro rfl
      exact similarity_self a

end SymbolAtlas
