import Mathlib.Data.Finset.Card
import Mathlib.Data.Finset.Dedup
import Mathlib.Data.List.Infix
import Mathlib.Data.List.Nodup
import SymbolAtlas.Proofs.Trie.Extending

/-!
# Counting nodes

Every node of a tidy trie stands for a word of its own, and some item lies there or below. So a trie
has as many nodes below its root as the words of its items have beginnings, and the order in which
the items were put there does not count.
-/

namespace SymbolAtlas

namespace Branches

variable {α : Type}

/-- The words of all nodes. -/
def words : Branches α → List (List Char)
  | none => []
  | branch letter _ below next => [letter] :: (below.words.map (letter :: ·) ++ next.words)

theorem length_words (b : Branches α) : b.words.length = b.nodeCount := by
  induction b with
  | none => rfl
  | branch letter here below next ihBelow ihNext =>
      rw [words, nodeCount, List.length_cons, List.length_append, List.length_map, ihBelow, ihNext]
      omega

theorem nil_not_mem_words (b : Branches α) : [] ∉ b.words := by
  induction b with
  | none => exact List.not_mem_nil
  | branch letter here below next ihBelow ihNext => simp [words, ihNext]

/-- The words of a tidy row start with its first letter or a later one. -/
theorem lt_of_mem_words {b : Branches α} (hb : b.Tidy) {d c : Char} {cs : List Char}
    (hd : b.After d) (hw : c :: cs ∈ b.words) : d < c := by
  induction b generalizing d with
  | none => simp [words] at hw
  | branch letter here below next ihBelow ihNext =>
      obtain ⟨-, -, hnext, hafter⟩ := hb
      simp only [words, List.mem_cons, List.mem_append, List.mem_map, List.cons.injEq] at hw
      rcases hw with ⟨rfl, -⟩ | ⟨w, -, rfl, -⟩ | hw
      · exact hd
      · exact hd
      · exact lt_trans hd (ihNext hnext hafter hw)

theorem mem_words_iff {b : Branches α} (hb : b.Tidy) {c : Char} {cs : List Char} :
    c :: cs ∈ b.words ↔ (b.node? c cs).isSome := by
  induction b generalizing c cs with
  | none => simp [words, node?]
  | branch letter here below next ihBelow ihNext =>
      obtain ⟨-, hbelow, hnext, hafter⟩ := hb
      simp only [words, List.mem_cons, List.mem_append, List.mem_map, List.cons.injEq]
      by_cases hletter : c = letter
      · subst hletter
        have hout : c :: cs ∉ next.words := fun hw =>
          lt_irrefl c (lt_of_mem_words hnext hafter hw)
        cases cs with
        | nil => simp [node?_branch_self]
        | cons d ds => simp [node?_branch_below, hout, ihBelow hbelow]
      · rw [node?_branch_next hletter, ← ihNext hnext]
        simp [hletter, Ne.symm hletter]

theorem nodup_words {b : Branches α} (hb : b.Tidy) : b.words.Nodup := by
  induction b with
  | none => exact List.nodup_nil
  | branch letter here below next ihBelow ihNext =>
      obtain ⟨-, hbelow, hnext, hafter⟩ := hb
      have hout : ∀ cs, letter :: cs ∉ next.words := fun cs hw =>
        lt_irrefl letter (lt_of_mem_words hnext hafter hw)
      have hmap : (below.words.map (letter :: ·)).Nodup :=
        (ihBelow hbelow).map fun _ _ heq => (List.cons.inj heq).2
      rw [words, List.nodup_cons, List.nodup_append]
      refine ⟨?_, hmap, ihNext hnext, ?_⟩
      · simp [nil_not_mem_words, hout]
      · rintro w hw v hv rfl
        obtain ⟨cs, -, rfl⟩ := List.mem_map.mp hw
        exact hout cs hv

/-! ## Every node leads to an item -/

theorem toList_ne_nil {b : Branches α} (hb : b.Tidy) (hne : b ≠ none) : b.toList ≠ [] := by
  cases b with
  | none => exact absurd rfl hne
  | branch letter here below next =>
      obtain ⟨cs, hcs⟩ := exists_items_ne_nil hb
      obtain ⟨a, ha⟩ := List.exists_mem_of_ne_nil _ hcs
      exact List.ne_nil_of_mem ((mem_toList_iff hb).mpr ⟨letter, cs, ha⟩)

theorem ne_nil_of_node? {b : Branches α} (hb : b.Tidy) {c : Char} {cs : List Char}
    {here : List α} {below : Branches α} (h : b.node? c cs = some (here, below)) :
    here ++ below.toList ≠ [] := by
  induction b generalizing c cs with
  | none => simp [node?] at h
  | branch letter here' below' next ihBelow ihNext =>
      obtain ⟨hleads, hbelow, hnext, -⟩ := hb
      by_cases hletter : c = letter
      · subst hletter
        cases cs with
        | nil =>
            rw [node?_branch_self] at h
            cases h
            rcases hleads with hhere | hne
            · simp [hhere]
            · simp [toList_ne_nil hbelow hne]
        | cons d ds =>
            rw [node?_branch_below] at h
            exact ihBelow hbelow h
      · rw [node?_branch_next hletter] at h
        exact ihNext hnext h

end Branches

namespace Trie

variable {α : Type} {word : α → List Char} {items items' : List α}

theorem isSome_node?_ofList {c : Char} {cs : List Char} :
    ((ofList word items).node? (c :: cs)).isSome ↔ ∃ a ∈ items, c :: cs <+: word a := by
  have htidy := tidy_ofList word items
  simp only [← mem_extending_ofList]
  unfold extending
  cases hnode : (ofList word items).node? (c :: cs) with
  | none => simp
  | some n =>
      obtain ⟨here, below⟩ := n
      have hne : here ++ below.toList ≠ [] := Branches.ne_nil_of_node? htidy hnode
      simpa using List.exists_mem_of_ne_nil _ hne

/-- A trie has a root and a node for each beginning of a word, the empty one apart. -/
theorem nodeCount_ofList (word : α → List Char) (items : List α) :
    (ofList word items).nodeCount =
      1 + ((items.flatMap fun a => (word a).inits).toFinset.erase []).card := by
  have htidy : (ofList word items).below.Tidy := tidy_ofList word items
  have hwords : (ofList word items).below.words.toFinset =
      (items.flatMap fun a => (word a).inits).toFinset.erase [] := by
    ext w
    rw [Finset.mem_erase, List.mem_toFinset, List.mem_toFinset, List.mem_flatMap]
    simp only [List.mem_inits]
    cases w with
    | nil => simp [Branches.nil_not_mem_words]
    | cons c cs =>
        rw [Branches.mem_words_iff htidy, ← isSome_node?_ofList]
        simp [node?]
  rw [nodeCount, ← Branches.length_words, ← hwords,
    List.toFinset_card_of_nodup (Branches.nodup_words htidy)]

theorem nodeCount_ofList_perm (word : α → List Char) (h : items.Perm items') :
    (ofList word items).nodeCount = (ofList word items').nodeCount := by
  rw [nodeCount_ofList, nodeCount_ofList,
    List.toFinset_eq_of_perm _ _ (h.flatMap_right fun a => (word a).inits)]

end Trie

end SymbolAtlas
