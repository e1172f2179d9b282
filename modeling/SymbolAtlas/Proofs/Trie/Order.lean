import SymbolAtlas.Index.Snapshot
import SymbolAtlas.Proofs.Search.Order
import SymbolAtlas.Proofs.Trie.Nodes

/-!
# The order of the items

A tidy trie yields the items below a word in the order of their words, a word before its extensions,
and the items of one word in the order in which they were put there. So a trie of names, whatever
symbols are put there and removed again, answers as the plain list of the symbols that are left:
by its members, its order and the beginnings of their names.
-/

namespace SymbolAtlas

theorem compare_cons_self (c : Char) (u v : List Char) :
    compare (c :: u) (c :: v) = compare u v := by
  have hsame : compare c c = .eq := Std.ReflCmp.compare_self
  rw [List.compare_cons_cons, hsame, Ordering.then]

theorem compare_append_left (w u v : List Char) : compare (w ++ u) (w ++ v) = compare u v := by
  induction w with
  | nil => rfl
  | cons c cs ih => rw [List.cons_append, List.cons_append, compare_cons_self, ih]

theorem compare_nil_ne_gt (v : List Char) : compare [] v ≠ .gt := by
  cases v <;> simp [List.compare_nil_cons]

namespace Branches

variable {α : Type} {b : Branches α}

/-- The items with their words. -/
def entries : Branches α → List (List Char × α)
  | none => []
  | branch letter here below next =>
    here.map ([letter], ·) ++ (below.entries.map fun e => (letter :: e.1, e.2)) ++ next.entries

theorem map_snd_entries (b : Branches α) : b.entries.map Prod.snd = b.toList := by
  induction b with
  | none => rfl
  | branch letter here below next ihBelow ihNext =>
      rw [entries, toList, List.map_append, List.map_append, List.map_map, List.map_map, ihNext,
        ← ihBelow]
      simp [Function.comp_def]

theorem mem_words_of_mem_entries {e : List Char × α} (he : e ∈ b.entries) : e.1 ∈ b.words := by
  induction b generalizing e with
  | none => exact absurd he List.not_mem_nil
  | branch letter here below next ihBelow ihNext =>
      simp only [entries, List.mem_append, List.mem_map] at he
      simp only [words, List.mem_cons, List.mem_append, List.mem_map]
      rcases he with (⟨a, -, rfl⟩ | ⟨f, hf, rfl⟩) | he
      · exact .inl rfl
      · exact .inr (.inl ⟨f.1, ihBelow hf, rfl⟩)
      · exact .inr (.inr (ihNext he))

/-- Entries of a row start with its first letter or a later one. -/
theorem exists_cons_of_mem_entries (hb : b.Tidy) {d : Char} (hd : b.After d)
    {e : List Char × α} (he : e ∈ b.entries) : ∃ c cs, e.1 = c :: cs ∧ d < c := by
  have hword := mem_words_of_mem_entries he
  cases hw : e.1 with
  | nil =>
      rw [hw] at hword
      exact absurd hword (nil_not_mem_words b)
  | cons c cs =>
      rw [hw] at hword
      exact ⟨c, cs, rfl, lt_of_mem_words hb hd hword⟩

theorem pairwise_entries (hb : b.Tidy) :
    b.entries.Pairwise fun e f => compare e.1 f.1 ≠ .gt := by
  induction b with
  | none => exact .nil
  | branch letter here below next ihBelow ihNext =>
      obtain ⟨-, hbelow, hnext, hafter⟩ := hb
      have hlater : ∀ w, ∀ f ∈ next.entries, compare (letter :: w) f.1 ≠ .gt := by
        intro w f hf
        obtain ⟨c, cs, hword, hlt⟩ := exists_cons_of_mem_entries hnext hafter hf
        rw [hword, List.compare_cons_cons, compare_lt_iff_lt.mpr hlt]
        exact Ordering.noConfusion
      rw [entries, List.pairwise_append, List.pairwise_append]
      refine ⟨⟨?_, ?_, ?_⟩, ihNext hnext, ?_⟩
      · rw [List.pairwise_map]
        exact List.pairwise_of_forall fun _ _ => by simp [Std.ReflCmp.compare_self]
      · rw [List.pairwise_map]
        refine (ihBelow hbelow).imp fun {e f} hle => ?_
        rwa [compare_cons_self]
      · intro e he f hf
        obtain ⟨a, -, rfl⟩ := List.mem_map.mp he
        obtain ⟨g, -, rfl⟩ := List.mem_map.mp hf
        -- A word stands before its extensions.
        rw [compare_cons_self]
        exact compare_nil_ne_gt g.1
      · intro e he f hf
        rcases List.mem_append.mp he with he | he
        · obtain ⟨a, -, rfl⟩ := List.mem_map.mp he
          exact hlater [] f hf
        · obtain ⟨g, -, rfl⟩ := List.mem_map.mp he
          exact hlater g.1 f hf

theorem filter_entries_nil (b : Branches α) : b.entries.filter (·.1 = []) = [] := by
  rw [List.filter_eq_nil_iff]
  intro e he hnil
  have hword := mem_words_of_mem_entries he
  rw [of_decide_eq_true hnil] at hword
  exact nil_not_mem_words b hword

/-- The entries of a word are its items in their order. -/
theorem filter_entries (hb : b.Tidy) (c : Char) (cs : List Char) :
    b.entries.filter (·.1 = c :: cs) = (b.items c cs).map (c :: cs, ·) := by
  induction b generalizing c cs with
  | none => rfl
  | branch letter here below next ihBelow ihNext =>
      obtain ⟨-, hbelow, hnext, hafter⟩ := hb
      rw [entries, List.filter_append, List.filter_append, List.filter_map, List.filter_map]
      by_cases hletter : c = letter
      · subst hletter
        have hout : next.entries.filter (·.1 = c :: cs) = [] := by
          rw [ihNext hnext, items_of_after hnext hafter, List.map_nil]
        rw [hout, List.append_nil]
        cases cs with
        | nil =>
            have hnil := filter_entries_nil below
            simp [items_branch_self, Function.comp_def, hnil]
        | cons d ds =>
            rw [items_branch_below]
            have hin := ihBelow hbelow d ds
            simp [Function.comp_def, hin]
      · rw [items_branch_next hletter, ihNext hnext]
        simp [Function.comp_def, Ne.symm hletter]

end Branches

namespace Trie

variable {α : Type} {t : Trie α}

/-- The items with their words. -/
def entries (t : Trie α) : List (List Char × α) := t.here.map ([], ·) ++ t.below.entries

theorem map_snd_entries (t : Trie α) : t.entries.map Prod.snd = t.extending [] := by
  rw [entries, List.map_append, Branches.map_snd_entries, List.map_map]
  simp [Function.comp_def, extending, node?]

theorem pairwise_entries (ht : t.Tidy) :
    t.entries.Pairwise fun e f => compare e.1 f.1 ≠ .gt := by
  rw [entries, List.pairwise_append, List.pairwise_map]
  refine ⟨List.pairwise_of_forall fun _ _ => by simp, Branches.pairwise_entries ht, ?_⟩
  intro e he f hf
  obtain ⟨a, -, rfl⟩ := List.mem_map.mp he
  exact compare_nil_ne_gt f.1

theorem filter_entries (ht : t.Tidy) (v : List Char) :
    t.entries.filter (·.1 = v) = (t.exact v).map (v, ·) := by
  rw [entries, List.filter_append, List.filter_map]
  cases v with
  | nil =>
      have hnil := Branches.filter_entries_nil t.below
      simp [hnil, Function.comp_def]
  | cons c cs =>
      rw [Branches.filter_entries ht, exact_cons]
      simp [Function.comp_def]

theorem mem_entries (ht : t.Tidy) {v : List Char} {a : α} :
    (v, a) ∈ t.entries ↔ a ∈ t.exact v := by
  have hin : (v, a) ∈ t.entries ↔ (v, a) ∈ t.entries.filter (·.1 = v) := by simp
  rw [hin, filter_entries ht]
  simp

/-! ## Looking up -/

section Reference

variable {word : α → List Char} {items : List α}

/-- An entry of a subtrie has what is left of the word of its item. -/
theorem word_of_mem_entries {w : List Char} {e : List Char × α}
    (he : e ∈ ((ofList word items).subtrie w).entries) : word e.2 = w ++ e.1 := by
  have htidy := tidy_ofList word items
  have hin : e.2 ∈ (ofList word items).exact (w ++ e.1) := by
    rw [← exact_subtrie]
    exact (mem_entries (tidy_subtrie htidy w)).mp he
  rw [exact_ofList] at hin
  simpa using (List.mem_filter.mp hin).2

theorem extending_eq_map (t : Trie α) (w : List Char) :
    t.extending w = (t.subtrie w).entries.map Prod.snd := by
  rw [map_snd_entries, extending_subtrie]

theorem pairwise_extending_ofList (word : α → List Char) (items : List α) (w : List Char) :
    ((ofList word items).extending w).Pairwise fun a b => compareOn word a b ≠ .gt := by
  have hpairwise := pairwise_entries (tidy_subtrie (tidy_ofList word items) w)
  rw [extending_eq_map, List.pairwise_map]
  refine hpairwise.imp_of_mem fun {e f} he hf hle => ?_
  rw [compareOn, word_of_mem_entries he, word_of_mem_entries hf, compare_append_left]
  exact hle

/-- The items of one word below another one stand as they were put into the trie. -/
theorem filter_extending_ofList (word : α → List Char) (items : List α) (w v : List Char) :
    ((ofList word items).extending w).filter (word · = v) =
      (items.filter fun a => w.isPrefixOf (word a)).filter (word · = v) := by
  rw [List.filter_filter, extending_eq_map, List.filter_map]
  by_cases hstarts : w <+: v
  · obtain ⟨rest, rfl⟩ := hstarts
    have hentries : ((ofList word items).subtrie w).entries.filter
          ((fun a => decide (word a = w ++ rest)) ∘ Prod.snd) =
        ((ofList word items).subtrie w).entries.filter (·.1 = rest) := by
      refine List.filter_congr fun e he => ?_
      simp [word_of_mem_entries he]
    rw [hentries, filter_entries (tidy_subtrie (tidy_ofList word items) w), exact_subtrie,
      exact_ofList, List.map_map]
    refine (List.map_id _).trans (List.filter_congr fun a _ => ?_)
    by_cases hword : word a = w ++ rest
    · simp [hword]
    · simp [hword]
  · have hentries : ((ofList word items).subtrie w).entries.filter
        ((fun a => decide (word a = v)) ∘ Prod.snd) = [] := by
      rw [List.filter_eq_nil_iff]
      intro e he hword
      rw [Function.comp_apply, decide_eq_true_eq, word_of_mem_entries he] at hword
      exact hstarts ⟨e.1, hword⟩
    rw [hentries, List.map_nil, eq_comm, List.filter_eq_nil_iff]
    intro a _ hword
    rw [Bool.and_eq_true, decide_eq_true_eq, List.isPrefixOf_iff_prefix] at hword
    exact hstarts (hword.1 ▸ hword.2)

/-- Looking up a word and its extensions sorts the items by their words, and leaves those of one
word in their order. -/
theorem extending_ofList (word : α → List Char) (items : List α) (w : List Char) :
    (ofList word items).extending w =
      sortBy (compareOn word) (items.filter fun a => w.isPrefixOf (word a)) := by
  refine eq_of_filter_eq (pairwise_extending_ofList word items w) (pairwise_sortBy _) fun a => ?_
  have hclass : (fun b => compareOn word a b == .eq) = fun b => decide (word b = word a) := by
    funext b
    rw [Bool.eq_iff_iff, beq_iff_eq, decide_eq_true_eq, compareOn,
      Std.LawfulEqCmp.compare_eq_iff_eq, eq_comm]
  rw [filter_sortBy, hclass]
  exact filter_extending_ofList word items w (word a)

theorem eq_empty_of_isEmpty (h : t.isEmpty = true) : t = {} := by
  obtain ⟨here, below⟩ := t
  unfold isEmpty at h
  split at h
  · rename_i hhere hbelow
    rw [show here = [] from hhere, show below = .none from hbelow]
  · exact absurd h Bool.false_ne_true

theorem isEmpty_ofList : (ofList word items).isEmpty = true ↔ items = [] := by
  constructor
  · intro hempty
    have hperm := perm_extending_nil_ofList word items
    rw [eq_empty_of_isEmpty hempty] at hperm
    exact hperm.symm.eq_nil
  · rintro rfl
    rfl

end Reference

/-! ## Removing -/

/-- Removing items of one word leaves the trie of the others. -/
theorem remove_ofList (word : α → List Char) (items : List α) (w : List Char) (drop : α → Bool) :
    (ofList word items).remove w drop =
      ofList word (items.filter fun a => !(word a == w && drop a)) := by
  have htidy := tidy_ofList word items
  refine eq_of_exact (tidy_remove htidy w drop) (tidy_ofList word _) fun v => ?_
  rw [exact_remove htidy, exact_ofList, exact_ofList]
  split_ifs with hv
  · rw [List.filter_filter, List.filter_filter]
    refine List.filter_congr fun a _ => ?_
    by_cases hword : word a = v
    · simp [hword, hv]
    · simp [hword]
  · rw [List.filter_filter]
    refine List.filter_congr fun a _ => ?_
    by_cases hword : word a = v
    · simp [hword, hv]
    · simp [hword]

/-- A trie changes exactly when there is something to remove. -/
theorem remove_eq_self_iff (ht : t.Tidy) (w : List Char) (drop : α → Bool) :
    t.remove w drop = t ↔ t.removable w drop = 0 := by
  have hkept : (t.exact w).filter (!drop ·) = t.exact w ↔ t.removable w drop = 0 := by
    rw [removable, List.countP_eq_zero, List.filter_eq_self]
    simp
  rw [← hkept]
  constructor
  · intro hsame
    have hexact := exact_remove ht w drop w
    rw [if_pos rfl, hsame] at hexact
    exact hexact.symm
  · intro hfilter
    refine eq_of_exact (tidy_remove ht w drop) ht fun v => ?_
    rw [exact_remove ht]
    split_ifs with hv
    · rw [hv, hfilter]
    · rfl

/-- What is removed and what is left make up the items. -/
theorem removable_add_length (word : α → List Char) (items : List α) (w : List Char)
    (drop : α → Bool) :
    (ofList word items).removable w drop +
      (items.filter fun a => !(word a == w && drop a)).length = items.length := by
  have hgone : (ofList word items).removable w drop =
      items.countP fun a => word a == w && drop a := by
    rw [removable, exact_ofList, List.countP_filter]
    refine List.countP_congr fun a _ => ?_
    simp [and_comm]
  have hleft : (items.filter fun a => !(word a == w && drop a)).length =
      items.countP fun a => ¬(word a == w && drop a) = true := by
    rw [← List.countP_eq_length_filter]
    exact List.countP_congr fun a _ => by simp
  rw [hgone, hleft, ← List.length_eq_countP_add_countP]

end Trie

/-! ## Names -/

/-- What is done with the trie of the names of symbols. -/
inductive NameChange where
  | insert (s : Symbol)
  /-- Removes symbols of one name, letter case apart. -/
  | removeWhere (name : String) (drop : Symbol → Bool)

namespace NameChange

def apply (t : Trie Symbol) : NameChange → Trie Symbol
  | .insert s => t.insert (Text.lowercaseLetters s.name) s
  | .removeWhere name drop => t.remove (Text.lowercaseLetters name) drop

/-- The symbols that are left after a change, in the order in which they came. -/
def note (l : List Symbol) : NameChange → List Symbol
  | .insert s => l ++ [s]
  | .removeWhere name drop =>
    l.filter fun s => !(Text.lowercaseLetters s.name == Text.lowercaseLetters name && drop s)

theorem apply_ofList (l : List Symbol) (change : NameChange) :
    change.apply (Trie.ofList (fun s => Text.lowercaseLetters s.name) l) =
      Trie.ofList (fun s => Text.lowercaseLetters s.name) (note l change) := by
  cases change with
  | insert s => rw [apply, note, Trie.ofList_append_singleton]
  | removeWhere name drop => exact Trie.remove_ofList _ l _ drop

theorem foldl_apply (changes : List NameChange) :
    changes.foldl apply {} =
      Trie.ofList (fun s => Text.lowercaseLetters s.name) (changes.foldl note []) := by
  induction changes using List.reverseRecOn with
  | nil => rfl
  | append_singleton changes change ih =>
      rw [List.foldl_append, List.foldl_append, List.foldl_cons, List.foldl_cons, List.foldl_nil,
        List.foldl_nil, ih, apply_ofList]

/-- A trie of names answers as a list. After any insertions and removals, what is looked up are the
symbols that are left, those of a name in the order in which they came and those of a beginning
sorted by their names, and each as often as it came. There is a node for every beginning of a name
and one for the root. A removal tells how many symbols go, and changes nothing exactly where none
goes. -/
theorem foldl_answers (changes : List NameChange) (text : String) (drop : Symbol → Bool) :
    let t := changes.foldl apply {}
    let left := changes.foldl note []
    let letters (s : Symbol) := Text.lowercaseLetters s.name
    let wanted := Text.lowercaseLetters text
    t.exact wanted = left.filter (letters · = wanted) ∧
    ({ trie := t } : Snapshot).startingWith text =
      (if text = "" then []
        else sortBy (compareOn letters) (left.filter fun s => wanted.isPrefixOf (letters s))) ∧
    t.nodeCount = 1 + ((left.flatMap fun s => (letters s).inits).toFinset.erase []).card ∧
    t.removable wanted drop + (note left (.removeWhere text drop)).length = left.length ∧
    ((removeWhere text drop).apply t = t ↔ t.removable wanted drop = 0) ∧
    (t.isEmpty = true ↔ left = []) := by
  intro t left letters wanted
  have ht : t = Trie.ofList letters left := foldl_apply changes
  have htidy : t.Tidy := ht ▸ Trie.tidy_ofList letters left
  refine ⟨?_, ?_, ?_, ?_, Trie.remove_eq_self_iff htidy wanted drop, ?_⟩
  · rw [ht]
    exact Trie.exact_ofList letters left wanted
  · unfold Snapshot.startingWith
    by_cases htext : text = ""
    · rw [if_pos htext, if_pos (String.isEmpty_iff.mpr htext)]
    · rw [if_neg htext, if_neg fun hempty => htext (String.isEmpty_iff.mp hempty)]
      show t.extending wanted = _
      rw [ht]
      exact Trie.extending_ofList letters left wanted
  · rw [ht]
    exact Trie.nodeCount_ofList letters left
  · rw [ht]
    exact Trie.removable_add_length letters left wanted drop
  · rw [ht]
    exact Trie.isEmpty_ofList

end NameChange

end SymbolAtlas
