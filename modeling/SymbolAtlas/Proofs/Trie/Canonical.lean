import Mathlib.Data.Char
import Mathlib.Data.List.Induction
import SymbolAtlas.Trie

/-!
# Tries have one shape

A row of branches is tidy when its letters ascend and every branch leads to an item. Inserting and
removing keep rows tidy, and a tidy trie is determined by the items of its words. So a trie from
which items were removed is the trie that never held them.
-/

namespace SymbolAtlas

namespace Branches

variable {α : Type}

/-- The items of the word `c :: cs`. -/
def items (b : Branches α) (c : Char) (cs : List Char) : List α :=
  match b.node? c cs with
  | Option.none => []
  | some (here, _) => here

/-- Whether the first letter of a row comes after `c`. -/
def After (c : Char) : Branches α → Prop
  | none => True
  | branch letter _ _ _ => c < letter

/-- The letters ascend, and every branch leads to an item. -/
def Tidy : Branches α → Prop
  | none => True
  | branch letter here below next =>
    (here ≠ [] ∨ below ≠ none) ∧ below.Tidy ∧ next.Tidy ∧ next.After letter

@[simp] theorem items_none (c : Char) (cs : List Char) :
    (none : Branches α).items c cs = [] := rfl

theorem items_branch_self (c : Char) (here : List α) (below next : Branches α) :
    (branch c here below next).items c [] = here := by
  simp [items, node?]

theorem items_branch_below (c d : Char) (ds : List Char) (here : List α)
    (below next : Branches α) :
    (branch c here below next).items c (d :: ds) = below.items d ds := by
  simp [items, node?]

theorem items_branch_next {c letter : Char} (h : c ≠ letter) (cs : List Char) (here : List α)
    (below next : Branches α) :
    (branch letter here below next).items c cs = next.items c cs := by
  simp [items, node?, h]

theorem After.trans {c d : Char} {b : Branches α} (hb : b.After d) (h : c < d) : b.After c := by
  cases b with
  | none => trivial
  | branch letter here below next => exact lt_trans h hb

/-- No word of a tidy row starts before its first letter. -/
theorem items_of_after {c : Char} {b : Branches α} (hb : b.Tidy) (h : b.After c)
    (cs : List Char) : b.items c cs = [] := by
  induction b with
  | none => rfl
  | branch letter here below next _ ih =>
      have hne : c ≠ letter := ne_of_lt h
      obtain ⟨_, _, hnext, hafter⟩ := hb
      rw [items_branch_next hne]
      exact ih hnext (hafter.trans h)

/-! ## Inserting -/

theorem tidy_none : (none : Branches α).Tidy := trivial

theorem items_chain (a : α) (c : Char) (next : Branches α) (cs : List Char) (c' : Char)
    (cs' : List Char) :
    (chain a c next cs).items c' cs' =
      if c' = c then (if cs' = cs then [a] else []) else next.items c' cs' := by
  induction cs generalizing c c' cs' next with
  | nil =>
      by_cases h : c' = c
      · subst h
        cases cs' <;> simp [chain, items_branch_self, items_branch_below]
      · simp [chain, items_branch_next h, h]
  | cons d ds ih =>
      by_cases h : c' = c
      · subst h
        cases cs' with
        | nil => simp [chain, items_branch_self]
        | cons e es =>
            rw [chain, items_branch_below, ih]
            by_cases he : e = d <;> simp [he]
      · simp [chain, items_branch_next h, h]

theorem chain_ne_none (a : α) (c : Char) (next : Branches α) (cs : List Char) :
    chain a c next cs ≠ none := by
  cases cs <;> simp [chain]

theorem tidy_chain (a : α) {c : Char} {next : Branches α} (hnext : next.Tidy)
    (hafter : next.After c) (cs : List Char) : (chain a c next cs).Tidy := by
  induction cs generalizing c next with
  | nil => exact ⟨Or.inl (by simp), trivial, hnext, hafter⟩
  | cons d ds ih =>
      exact ⟨Or.inr (chain_ne_none a d none ds), ih trivial trivial, hnext, hafter⟩

theorem after_chain (a : α) {c d : Char} (h : d < c) (next : Branches α) (cs : List Char) :
    (chain a c next cs).After d := by
  cases cs <;> exact h

theorem after_insert (a : α) {c d : Char} (hd : d < c) (cs : List Char) {b : Branches α}
    (hb : b.After d) : (insert a c cs b).After d := by
  cases b with
  | none => exact after_chain a hd none cs
  | branch letter here below next =>
      unfold insert
      split_ifs
      · exact after_chain a hd _ cs
      · cases cs <;> exact hb
      · exact hb

theorem insert_ne_none (a : α) (c : Char) (cs : List Char) (b : Branches α) :
    insert a c cs b ≠ none := by
  cases b with
  | none => exact chain_ne_none a c none cs
  | branch letter here below next =>
      unfold insert
      split_ifs
      · exact chain_ne_none a c _ cs
      · cases cs <;> simp
      · simp

theorem tidy_insert (a : α) (c : Char) (cs : List Char) {b : Branches α} (hb : b.Tidy) :
    (insert a c cs b).Tidy := by
  induction b generalizing c cs with
  | none => exact tidy_chain a tidy_none trivial cs
  | branch letter here below next ihBelow ihNext =>
      have hb' := hb
      obtain ⟨hleads, hbelow, hnext, hafter⟩ := hb
      unfold insert
      split_ifs with hlt heq
      · exact tidy_chain a hb' hlt cs
      · cases cs with
        | nil => exact ⟨Or.inl (by simp), hbelow, hnext, hafter⟩
        | cons d ds =>
            exact ⟨Or.inr (insert_ne_none a d ds below), ihBelow d ds hbelow, hnext, hafter⟩
      · have hgt : letter < c := lt_of_le_of_ne (not_lt.mp hlt) (Ne.symm heq)
        exact ⟨hleads, hbelow, ihNext c cs hnext, after_insert a hgt cs hafter⟩

theorem items_insert (a : α) (c : Char) (cs : List Char) {b : Branches α} (hb : b.Tidy)
    (c' : Char) (cs' : List Char) :
    (insert a c cs b).items c' cs' =
      if c' = c ∧ cs' = cs then b.items c' cs' ++ [a] else b.items c' cs' := by
  induction b generalizing c cs c' cs' with
  | none =>
      by_cases h : c' = c <;> by_cases hs : cs' = cs <;> simp [insert, items_chain, h, hs]
  | branch letter here below next ihBelow ihNext =>
      have hb' := hb
      obtain ⟨_, hbelow, hnext, _⟩ := hb
      unfold insert
      by_cases hlt : c < letter
      · rw [if_pos hlt, items_chain]
        by_cases h : c' = c
        · subst h
          by_cases hs : cs' = cs <;> simp [hs, items_of_after hb' hlt]
        · simp [h]
      rw [if_neg hlt]
      by_cases heq : c = letter
      · subst heq
        rw [if_pos rfl]
        by_cases h : c' = c
        · subst h
          cases cs with
          | nil => cases cs' <;> simp [items_branch_self, items_branch_below]
          | cons d ds =>
              cases cs' with
              | nil => simp [items_branch_self]
              | cons e es => simp [items_branch_below, ihBelow d ds hbelow]
        · cases cs <;> simp [items_branch_next h, h]
      · rw [if_neg heq]
        by_cases h : c' = letter
        · subst h
          have hw : ¬(c' = c ∧ cs' = cs) := fun hw => heq hw.1.symm
          rw [if_neg hw]
          cases cs' <;> simp [items_branch_self, items_branch_below]
        · simp only [items_branch_next h, ihNext c cs hnext]

/-! ## Removing -/

theorem prune_eq_branch {letter : Char} {here : List α} {below next : Branches α}
    (h : here ≠ [] ∨ below ≠ none) :
    prune letter here below next = branch letter here below next := by
  unfold prune
  split
  · simp at h
  · rfl

theorem prune_nil_none (letter : Char) (next : Branches α) : prune letter [] none next = next := rfl

theorem tidy_prune {letter : Char} {here : List α} {below next : Branches α} (hbelow : below.Tidy)
    (hnext : next.Tidy) (hafter : next.After letter) : (prune letter here below next).Tidy := by
  by_cases h : here ≠ [] ∨ below ≠ none
  · rw [prune_eq_branch h]
    exact ⟨h, hbelow, hnext, hafter⟩
  · obtain ⟨rfl, rfl⟩ : here = [] ∧ below = none := by simpa using h
    exact hnext

theorem after_prune {d letter : Char} (here : List α) (below : Branches α) {next : Branches α}
    (hd : d < letter) (hafter : next.After letter) : (prune letter here below next).After d := by
  by_cases h : here ≠ [] ∨ below ≠ none
  · rw [prune_eq_branch h]
    exact hd
  · obtain ⟨rfl, rfl⟩ : here = [] ∧ below = none := by simpa using h
    exact hafter.trans hd

theorem items_prune {letter : Char} (here : List α) (below : Branches α) {next : Branches α}
    (hnext : next.Tidy) (hafter : next.After letter) (c : Char) (cs : List Char) :
    (prune letter here below next).items c cs = (branch letter here below next).items c cs := by
  by_cases h : here ≠ [] ∨ below ≠ none
  · rw [prune_eq_branch h]
  · obtain ⟨rfl, rfl⟩ : here = [] ∧ below = none := by simpa using h
    rw [prune_nil_none]
    by_cases hc : c = letter
    · subst hc
      rw [items_of_after hnext hafter]
      cases cs with
      | nil => rw [items_branch_self]
      | cons d ds => rw [items_branch_below, items_none]
    · rw [items_branch_next hc]

theorem tidy_remove_after (drop : α → Bool) (c : Char) (cs : List Char) {b : Branches α}
    (hb : b.Tidy) :
    (remove drop c cs b).Tidy ∧ ∀ d, b.After d → (remove drop c cs b).After d := by
  induction b generalizing c cs with
  | none => exact ⟨trivial, fun _ _ => trivial⟩
  | branch letter here below next ihBelow ihNext =>
      obtain ⟨hleads, hbelow, hnext, hafter⟩ := hb
      unfold remove
      split_ifs
      · cases cs with
        | nil =>
            exact ⟨tidy_prune hbelow hnext hafter, fun d hd => after_prune _ _ hd hafter⟩
        | cons e es =>
            exact ⟨tidy_prune (ihBelow e es hbelow).1 hnext hafter,
              fun d hd => after_prune _ _ hd hafter⟩
      · obtain ⟨htidy, hkeeps⟩ := ihNext c cs hnext
        exact ⟨⟨hleads, hbelow, htidy, hkeeps letter hafter⟩, fun d hd => hd⟩

theorem tidy_remove (drop : α → Bool) (c : Char) (cs : List Char) {b : Branches α}
    (hb : b.Tidy) : (remove drop c cs b).Tidy :=
  (tidy_remove_after drop c cs hb).1

theorem items_remove (drop : α → Bool) (c : Char) (cs : List Char) {b : Branches α} (hb : b.Tidy)
    (c' : Char) (cs' : List Char) :
    (remove drop c cs b).items c' cs' =
      if c' = c ∧ cs' = cs then (b.items c' cs').filter (!drop ·) else b.items c' cs' := by
  induction b generalizing c cs c' cs' with
  | none => simp [remove]
  | branch letter here below next ihBelow ihNext =>
      obtain ⟨_, hbelow, hnext, hafter⟩ := hb
      unfold remove
      by_cases heq : c = letter
      · subst heq
        rw [if_pos rfl]
        by_cases h : c' = c
        · subst h
          cases cs with
          | nil => cases cs' <;> simp [items_prune _ _ hnext hafter, items_branch_self,
              items_branch_below]
          | cons d ds =>
              cases cs' with
              | nil => simp [items_prune _ _ hnext hafter, items_branch_self]
              | cons e es =>
                  simp only [items_prune _ _ hnext hafter, items_branch_below,
                    ihBelow d ds hbelow, List.cons.injEq, true_and]
        · have hw : ¬(c' = c ∧ cs' = cs) := fun hw => h hw.1
          rw [if_neg hw]
          cases cs <;> rw [items_prune _ _ hnext hafter, items_branch_next h, items_branch_next h]
      · rw [if_neg heq]
        by_cases h : c' = letter
        · subst h
          have hw : ¬(c' = c ∧ cs' = cs) := fun hw => heq hw.1.symm
          rw [if_neg hw]
          cases cs' <;> simp [items_branch_self, items_branch_below]
        · simp only [items_branch_next h, ihNext c cs hnext]

/-! ## Tidy rows with the same items are the same -/

/-- Every branch of a tidy row leads to an item. -/
theorem exists_items_ne_nil {c : Char} {here : List α} {below next : Branches α}
    (hb : (branch c here below next).Tidy) :
    ∃ cs, (branch c here below next).items c cs ≠ [] := by
  generalize hrow : branch c here below next = row at hb
  induction row generalizing c here below next with
  | none => simp at hrow
  | branch letter here' below' next' ihBelow _ =>
      obtain ⟨rfl, rfl, rfl, rfl⟩ := Branches.branch.inj hrow
      obtain ⟨hleads, hbelow, _, _⟩ := hb
      by_cases hhere : here = []
      · cases hrow' : below with
        | none => simp [hhere, hrow'] at hleads
        | branch d here₂ below₂ next₂ =>
            obtain ⟨ds, hds⟩ := ihBelow hrow'.symm hbelow
            refine ⟨d :: ds, ?_⟩
            rw [items_branch_below, ← hrow']
            exact hds
      · exact ⟨[], by rwa [items_branch_self]⟩

/-- The first letter of one row is not before that of another with the same items. -/
theorem not_letter_lt {c d : Char} {here here' : List α} {below below' next next' : Branches α}
    (hb : (branch c here below next).Tidy) (hb' : (branch d here' below' next').Tidy)
    (h : ∀ e es, (branch c here below next).items e es = (branch d here' below' next').items e es) :
    ¬c < d := by
  intro hlt
  obtain ⟨cs, hcs⟩ := exists_items_ne_nil hb
  rw [h, items_of_after hb' hlt] at hcs
  exact hcs rfl

theorem eq_of_items {b b' : Branches α} (hb : b.Tidy) (hb' : b'.Tidy)
    (h : ∀ c cs, b.items c cs = b'.items c cs) : b = b' := by
  induction b generalizing b' with
  | none =>
      cases b' with
      | none => rfl
      | branch letter here below next =>
          obtain ⟨cs, hcs⟩ := exists_items_ne_nil hb'
          exact absurd (h letter cs).symm hcs
  | branch letter here below next ihBelow ihNext =>
      cases b' with
      | none =>
          obtain ⟨cs, hcs⟩ := exists_items_ne_nil hb
          exact absurd (h letter cs) hcs
      | branch letter' here' below' next' =>
          have hletter : letter = letter' :=
            le_antisymm (not_lt.mp (not_letter_lt hb' hb fun c cs => (h c cs).symm))
              (not_lt.mp (not_letter_lt hb hb' h))
          subst hletter
          obtain ⟨_, hbelow, hnext, hafter⟩ := hb
          obtain ⟨_, hbelow', hnext', hafter'⟩ := hb'
          have hhere : here = here' := by
            have := h letter []
            rwa [items_branch_self, items_branch_self] at this
          have hbelows : below = below' := by
            refine ihBelow hbelow hbelow' fun d ds => ?_
            have := h letter (d :: ds)
            rwa [items_branch_below, items_branch_below] at this
          have hnexts : next = next' := by
            refine ihNext hnext hnext' fun c cs => ?_
            by_cases hc : c = letter
            · subst hc
              rw [items_of_after hnext hafter, items_of_after hnext' hafter']
            · have := h c cs
              rwa [items_branch_next hc, items_branch_next hc] at this
          rw [hhere, hbelows, hnexts]

end Branches

namespace Trie

variable {α : Type}

/-- Every branch leads to an item, and the letters of every row ascend. -/
def Tidy (t : Trie α) : Prop := t.below.Tidy

/-- The trie of items one after the other. -/
def ofList (word : α → List Char) (items : List α) : Trie α :=
  items.foldl (fun t a => t.insert (word a) a) {}

@[simp] theorem exact_nil (t : Trie α) : t.exact [] = t.here := rfl

@[simp] theorem exact_cons (t : Trie α) (c : Char) (cs : List Char) :
    t.exact (c :: cs) = t.below.items c cs := by
  unfold exact Branches.items
  rfl

theorem tidy_empty : ({} : Trie α).Tidy := trivial

theorem tidy_insert {t : Trie α} (ht : t.Tidy) (word : List Char) (a : α) :
    (t.insert word a).Tidy := by
  cases word with
  | nil => exact ht
  | cons c cs => exact Branches.tidy_insert a c cs ht

theorem tidy_remove {t : Trie α} (ht : t.Tidy) (word : List Char) (drop : α → Bool) :
    (t.remove word drop).Tidy := by
  cases word with
  | nil => exact ht
  | cons c cs => exact Branches.tidy_remove drop c cs ht

theorem exact_insert {t : Trie α} (ht : t.Tidy) (word : List Char) (a : α) (w : List Char) :
    (t.insert word a).exact w = if w = word then t.exact w ++ [a] else t.exact w := by
  cases word with
  | nil => cases w <;> simp [insert]
  | cons c cs =>
      cases w with
      | nil => simp [insert]
      | cons d ds => simp [insert, Branches.items_insert a c cs ht]

theorem exact_remove {t : Trie α} (ht : t.Tidy) (word : List Char) (drop : α → Bool)
    (w : List Char) :
    (t.remove word drop).exact w =
      if w = word then (t.exact w).filter (!drop ·) else t.exact w := by
  cases word with
  | nil => cases w <;> simp [remove]
  | cons c cs =>
      cases w with
      | nil => simp [remove]
      | cons d ds => simp [remove, Branches.items_remove drop c cs ht]

/-- A tidy trie is determined by the items of its words. -/
theorem eq_of_exact {t u : Trie α} (ht : t.Tidy) (hu : u.Tidy)
    (h : ∀ w, t.exact w = u.exact w) : t = u := by
  have hhere : t.here = u.here := h []
  have hbelow : t.below = u.below := by
    refine Branches.eq_of_items ht hu fun c cs => ?_
    simpa using h (c :: cs)
  cases t
  cases u
  simp_all

theorem tidy_foldl_insert (word : α → List Char) (items : List α) {t : Trie α} (ht : t.Tidy) :
    (items.foldl (fun t a => t.insert (word a) a) t).Tidy := by
  induction items generalizing t with
  | nil => exact ht
  | cons a rest ih => exact ih (tidy_insert ht (word a) a)

theorem tidy_ofList (word : α → List Char) (items : List α) : (ofList word items).Tidy :=
  tidy_foldl_insert word items tidy_empty

theorem ofList_append_singleton (word : α → List Char) (items : List α) (a : α) :
    ofList word (items ++ [a]) = (ofList word items).insert (word a) a := by
  simp [ofList]

/-- The items of a word stand in the order in which they were put into the trie. -/
theorem exact_ofList (word : α → List Char) (items : List α) (w : List Char) :
    (ofList word items).exact w = items.filter (word · = w) := by
  induction items using List.reverseRecOn with
  | nil => cases w <;> rfl
  | append_singleton items a ih =>
      rw [ofList_append_singleton, exact_insert (tidy_ofList word items), ih, List.filter_append]
      by_cases h : w = word a
      · simp [h]
      · simp [h, Ne.symm h]

theorem tidy_foldl_remove (drop : α → Bool) (words : List (List Char)) {t : Trie α}
    (ht : t.Tidy) : (words.foldl (fun t w => t.remove w drop) t).Tidy := by
  induction words generalizing t with
  | nil => exact ht
  | cons w rest ih => exact ih (tidy_remove ht w drop)

theorem exact_foldl_remove (drop : α → Bool) (words : List (List Char)) {t : Trie α}
    (ht : t.Tidy) (w : List Char) :
    (words.foldl (fun t w => t.remove w drop) t).exact w =
      if w ∈ words then (t.exact w).filter (!drop ·) else t.exact w := by
  induction words generalizing t with
  | nil => simp
  | cons v rest ih =>
      rw [List.foldl_cons, ih (tidy_remove ht v drop), exact_remove ht]
      by_cases hv : w = v <;> by_cases hr : w ∈ rest <;> simp [hv, hr]

/-- Removing items word by word leaves the trie of the others. -/
theorem foldl_remove_ofList (word : α → List Char) (drop : α → Bool) (items : List α)
    (words : List (List Char)) (hwords : ∀ a ∈ items, drop a → word a ∈ words) :
    words.foldl (fun t w => t.remove w drop) (ofList word items) =
      ofList word (items.filter (!drop ·)) := by
  have htidy := tidy_ofList word items
  refine eq_of_exact (tidy_foldl_remove drop words htidy) (tidy_ofList word _) fun w => ?_
  rw [exact_foldl_remove drop words htidy, exact_ofList, exact_ofList, List.filter_filter,
    List.filter_filter]
  split_ifs with hw
  · exact List.filter_congr fun a _ => Bool.and_comm _ _
  · refine List.filter_congr fun a ha => ?_
    by_cases hword : word a = w
    · have hkept : drop a ≠ true := fun hdrop => hw (hword ▸ hwords a ha hdrop)
      simp [hword, hkept]
    · simp [hword]

end Trie

end SymbolAtlas
