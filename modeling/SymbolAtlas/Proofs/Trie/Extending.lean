import SymbolAtlas.Proofs.Trie.Canonical

/-!
# The items below a word

What hangs on a branch of a tidy trie are the items of the words that lead through it, so looking
up a word and its extensions finds the items whose words start with it, each as often as it was put
there.
-/

namespace SymbolAtlas

namespace Branches

variable {α : Type} {a : α}

/-- The items of a tidy row are those of its words. -/
theorem mem_toList_iff {b : Branches α} (hb : b.Tidy) :
    a ∈ b.toList ↔ ∃ c cs, a ∈ b.items c cs := by
  induction b with
  | none => simp [toList]
  | branch letter here below next ihBelow ihNext =>
      obtain ⟨-, hbelow, hnext, hafter⟩ := hb
      rw [toList, List.mem_append, List.mem_append, ihBelow hbelow, ihNext hnext]
      constructor
      · rintro ((hhere | ⟨c, cs, hc⟩) | ⟨c, cs, hc⟩)
        · exact ⟨letter, [], by rwa [items_branch_self]⟩
        · exact ⟨letter, c :: cs, by rwa [items_branch_below]⟩
        · refine ⟨c, cs, ?_⟩
          rwa [items_branch_next]
          rintro rfl
          rw [items_of_after hnext hafter] at hc
          simp at hc
      · rintro ⟨c, cs, hc⟩
        by_cases hletter : c = letter
        · subst hletter
          cases cs with
          | nil =>
              rw [items_branch_self] at hc
              exact .inl (.inl hc)
          | cons d ds =>
              rw [items_branch_below] at hc
              exact .inl (.inr ⟨d, ds, hc⟩)
        · rw [items_branch_next hletter] at hc
          exact .inr ⟨c, cs, hc⟩

theorem node?_branch_self (c : Char) (here : List α) (below next : Branches α) :
    (branch c here below next).node? c [] = some (here, below) := by
  simp [node?]

theorem node?_branch_below (c d : Char) (ds : List Char) (here : List α)
    (below next : Branches α) :
    (branch c here below next).node? c (d :: ds) = below.node? d ds := by
  simp [node?]

theorem node?_branch_next {c letter : Char} (h : c ≠ letter) (cs : List Char) (here : List α)
    (below next : Branches α) :
    (branch letter here below next).node? c cs = next.node? c cs := by
  simp [node?, h]

/-- The node of a longer word hangs below that of a shorter one. -/
theorem node?_append (b : Branches α) (c : Char) (cs : List Char) (d : Char) (ds : List Char) :
    b.node? c (cs ++ d :: ds) = (b.node? c cs).bind fun n => n.2.node? d ds := by
  induction b generalizing c cs with
  | none => rfl
  | branch letter here below next ihBelow ihNext =>
      by_cases hletter : c = letter
      · subst hletter
        cases cs with
        | nil =>
            rw [List.nil_append, node?_branch_self, node?_branch_below]
            rfl
        | cons e es =>
            rw [List.cons_append, node?_branch_below, node?_branch_below]
            exact ihBelow e es
      · rw [node?_branch_next hletter, node?_branch_next hletter]
        exact ihNext c cs

theorem tidy_of_node? {b : Branches α} (hb : b.Tidy) {c : Char} {cs : List Char}
    {here : List α} {below : Branches α} (h : b.node? c cs = some (here, below)) :
    below.Tidy := by
  induction b generalizing c cs with
  | none => simp [node?] at h
  | branch letter here' below' next ihBelow ihNext =>
      obtain ⟨-, hbelow, hnext, -⟩ := hb
      by_cases hletter : c = letter
      · subst hletter
        cases cs with
        | nil =>
            rw [node?_branch_self] at h
            cases h
            exact hbelow
        | cons d ds =>
            rw [node?_branch_below] at h
            exact ihBelow hbelow h
      · rw [node?_branch_next hletter] at h
        exact ihNext hnext h

/-! ## Each item once -/

theorem toList_chain (a : α) (c : Char) (next : Branches α) (cs : List Char) :
    (chain a c next cs).toList = a :: next.toList := by
  induction cs generalizing c next with
  | nil => rfl
  | cons d ds ih =>
      rw [chain, toList, ih]
      rfl

theorem perm_toList_insert (a : α) (c : Char) (cs : List Char) (b : Branches α) :
    (b.insert a c cs).toList.Perm (a :: b.toList) := by
  induction b generalizing c cs with
  | none => rw [insert, toList_chain]
  | branch letter here below next ihBelow ihNext =>
      unfold insert
      split_ifs with hlt heq
      · rw [toList_chain]
      · cases cs with
        | nil =>
            dsimp only
            rw [toList, toList, List.append_assoc, List.append_assoc, List.append_assoc]
            exact List.perm_middle
        | cons d ds =>
            dsimp only
            rw [toList, toList, List.append_assoc, List.append_assoc]
            refine (List.Perm.append_left here ((ihBelow d ds).append_right _)).trans ?_
            exact List.perm_middle
      · rw [toList, toList]
        exact ((ihNext c cs).append_left _).trans List.perm_middle

theorem sublist_of_node? {b : Branches α} {c : Char} {cs : List Char} {here : List α}
    {below : Branches α} (h : b.node? c cs = some (here, below)) :
    (here ++ below.toList).Sublist b.toList := by
  induction b generalizing c cs with
  | none => simp [node?] at h
  | branch letter here' below' next ihBelow ihNext =>
      rw [toList]
      by_cases hletter : c = letter
      · subst hletter
        cases cs with
        | nil =>
            rw [node?_branch_self] at h
            cases h
            exact List.sublist_append_left _ _
        | cons d ds =>
            rw [node?_branch_below] at h
            exact (ihBelow h).trans
              ((List.sublist_append_right _ _).trans (List.sublist_append_left _ _))
      · rw [node?_branch_next hletter] at h
        exact (ihNext h).trans (List.sublist_append_right _ _)

end Branches

namespace Trie

variable {α : Type} {a : α}

theorem node?_append (t : Trie α) (word : List Char) (d : Char) (ds : List Char) :
    t.node? (word ++ d :: ds) = (t.node? word).bind fun n => n.2.node? d ds := by
  cases word with
  | nil => rfl
  | cons c cs => exact Branches.node?_append t.below c cs d ds

theorem Tidy.of_node? {t : Trie α} (ht : t.Tidy) {word : List Char} {here : List α}
    {below : Branches α} (h : t.node? word = some (here, below)) : below.Tidy := by
  cases word with
  | nil =>
      cases h
      exact ht
  | cons c cs => exact Branches.tidy_of_node? ht h

/-- What hangs on the node of a word, as a trie of its own. -/
def subtrie (t : Trie α) (word : List Char) : Trie α :=
  match t.node? word with
  | none => {}
  | some (here, below) => { here, below }

theorem tidy_subtrie {t : Trie α} (ht : t.Tidy) (word : List Char) : (t.subtrie word).Tidy := by
  unfold subtrie
  split
  · exact tidy_empty
  · rename_i hnode
    exact ht.of_node? hnode

theorem exact_subtrie (t : Trie α) (word rest : List Char) :
    (t.subtrie word).exact rest = t.exact (word ++ rest) := by
  unfold subtrie
  cases rest with
  | nil =>
      rw [List.append_nil, exact_nil, exact]
      cases t.node? word <;> rfl
  | cons d ds =>
      rw [exact, exact, node?_append]
      cases t.node? word <;> rfl

theorem extending_subtrie (t : Trie α) (word : List Char) :
    (t.subtrie word).extending [] = t.extending word := by
  unfold subtrie extending
  cases t.node? word <;> rfl

/-- The items below a word are those of the words that extend it. -/
theorem mem_extending {t : Trie α} (ht : t.Tidy) {word : List Char} :
    a ∈ t.extending word ↔ ∃ rest, a ∈ t.exact (word ++ rest) := by
  have hin : a ∈ (t.subtrie word).extending [] ↔
      a ∈ (t.subtrie word).here ∨ a ∈ (t.subtrie word).below.toList := List.mem_append
  simp only [← exact_subtrie]
  rw [← extending_subtrie, hin, Branches.mem_toList_iff (tidy_subtrie ht word)]
  constructor
  · rintro (hhere | ⟨d, ds, hbelow⟩)
    · exact ⟨[], hhere⟩
    · exact ⟨d :: ds, by rwa [exact_cons]⟩
  · rintro ⟨rest, hrest⟩
    cases rest with
    | nil => exact .inl hrest
    | cons d ds =>
        rw [exact_cons] at hrest
        exact .inr ⟨d, ds, hrest⟩

/-- Looking up a word and its extensions finds the items whose words start with it. -/
theorem mem_extending_ofList (word : α → List Char) {items : List α} {w : List Char} :
    a ∈ (ofList word items).extending w ↔ a ∈ items ∧ w <+: word a := by
  rw [mem_extending (tidy_ofList word items)]
  simp only [exact_ofList, List.mem_filter, decide_eq_true_eq]
  constructor
  · rintro ⟨rest, hin, hword⟩
    exact ⟨hin, rest, hword.symm⟩
  · rintro ⟨hin, rest, hword⟩
    exact ⟨rest, hin, hword.symm⟩

theorem perm_extending_nil_insert (t : Trie α) (word : List Char) (a : α) :
    ((t.insert word a).extending []).Perm (a :: t.extending []) := by
  cases word with
  | nil =>
      change (t.here ++ [a] ++ t.below.toList).Perm (a :: (t.here ++ t.below.toList))
      rw [List.append_assoc]
      exact List.perm_middle
  | cons c cs =>
      change (t.here ++ (t.below.insert a c cs).toList).Perm (a :: (t.here ++ t.below.toList))
      exact ((Branches.perm_toList_insert a c cs t.below).append_left _).trans List.perm_middle

/-- A trie holds each item as often as it was put there. -/
theorem perm_extending_nil_ofList (word : α → List Char) (items : List α) :
    ((ofList word items).extending []).Perm items := by
  induction items using List.reverseRecOn with
  | nil => exact List.Perm.refl _
  | append_singleton items a ih =>
      rw [ofList_append_singleton]
      refine (perm_extending_nil_insert _ _ _).trans ((ih.cons a).trans ?_)
      exact (List.perm_append_singleton a items).symm

theorem extending_sublist (t : Trie α) (word : List Char) :
    (t.extending word).Sublist (t.extending []) := by
  cases word with
  | nil => exact List.Sublist.refl _
  | cons c cs =>
      unfold extending
      cases hnode : t.node? (c :: cs) with
      | none => exact List.nil_sublist _
      | some n =>
          have hbelow := Branches.sublist_of_node? (b := t.below) hnode
          exact hbelow.trans (List.sublist_append_right _ _)

/-- Looking up a word and its extensions finds each item once if each was put there once. -/
theorem perm_extending_ofList (word : α → List Char) {items : List α} (hitems : items.Nodup)
    (w : List Char) :
    ((ofList word items).extending w).Perm (items.filter fun a => w.isPrefixOf (word a)) := by
  have hall := (perm_extending_nil_ofList word items).nodup_iff.mpr hitems
  refine (List.perm_ext_iff_of_nodup (hall.sublist (extending_sublist _ w))
    (hitems.filter _)).mpr fun a => ?_
  rw [mem_extending_ofList, List.mem_filter, List.isPrefixOf_iff_prefix]

end Trie

end SymbolAtlas
