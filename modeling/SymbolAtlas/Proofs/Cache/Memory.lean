import Mathlib.Data.List.Nodup
import SymbolAtlas.Cache.Memory

/-!
# What the memory tier holds

No operation but storing adds an entry, and storing adds one in place of those of its key. Where
no two entries have one key, looking up drops at most an entry that counts no longer.
-/

namespace SymbolAtlas.Cache

/-- Where room was made for a new key, or the old value of the key goes, there is place for one
more. -/
theorem Bound.length_room_lt {α : Type} (b : Bound) (hmax : b.maxEntries ≠ 0) {l : List α}
    (h : l.length ≤ b.maxEntries) (keep : α → Bool) :
    ((if l.all keep ∧ b.maxEntries ≤ l.length then l.drop (b.victims l.length) else l).filter
      keep).length < b.maxEntries := by
  split
  · have hvictims : l.length + 1 - b.maxEntries ≤ b.victims l.length := by
      unfold Bound.victims
      omega
    have hleft := List.length_filter_le keep (l.drop (b.victims l.length))
    rw [List.length_drop] at hleft
    omega
  · rename_i hroom
    by_cases hall : l.all keep = true
    · have hshort : ¬ b.maxEntries ≤ l.length := fun hfull => hroom ⟨hall, hfull⟩
      have hleft := List.length_filter_le keep l
      omega
    · have hless : (l.filter keep).length < l.length := by
        rw [List.length_filter_lt_length_iff_exists]
        simpa using hall
      omega

namespace Memory

variable {V : Type} {m : Memory V} {b : Bound} {e f : Entry V} {key : String}

theorem mem_erase : f ∈ (m.erase key).entries ↔ f ∈ m.entries ∧ f.key ≠ key := by
  unfold erase
  rw [List.mem_filter, bne_iff_ne]

theorem find?_eq_some (h : m.find? key = some e) : e ∈ m.entries ∧ e.key = key := by
  unfold find? at h
  have hkey := List.find?_some h
  exact ⟨List.mem_of_find?_eq_some h, eq_of_beq hkey⟩

theorem isNone_find? (m : Memory V) (key : String) :
    (m.find? key).isNone = m.entries.all fun e => e.key != key := by
  unfold find?
  rw [Bool.eq_iff_iff]
  simp

/-- Looking up changes nothing, or drops the entry of the key. -/
theorem lookup_cases (m : Memory V) (now : Nat) (key : String) (version : Option String) :
    (m.lookup now key version).2 = m ∨
      (m.lookup now key version).2 = { m.erase key with expirations := m.expirations + 1 } := by
  unfold lookup
  split
  · exact .inl rfl
  · split
    · exact .inr rfl
    · split <;> exact .inl rfl

theorem mem_of_mem_lookup {now : Nat} {version : Option String}
    (h : f ∈ (m.lookup now key version).2.entries) : f ∈ m.entries := by
  unfold lookup at h
  split at h
  · exact h
  · split at h
    · exact (mem_erase.1 h).1
    · split at h
      · exact h
      · exact h

/-- A value that is found is one of an entry that still counts. -/
theorem of_lookup_eq_some {now : Nat} {version : Option String} {v : V}
    (h : (m.lookup now key version).1 = some v) :
    ∃ e ∈ m.entries, e.key = key ∧ e.value = v ∧ e.isExpired now = false ∧
      versionsAgree e.version version = true := by
  unfold lookup at h
  split at h
  · exact absurd h (by simp)
  · rename_i e hfind
    obtain ⟨hmem, hkey⟩ := find?_eq_some hfind
    split at h
    · exact absurd h (by simp)
    · rename_i hlive
      split at h
      · rename_i hagree
        exact ⟨e, hmem, hkey, Option.some.inj h, by simpa using hlive, hagree⟩
      · exact absurd h (by simp)

theorem mem_of_mem_makeRoom (h : f ∈ (m.makeRoom b key).entries) : f ∈ m.entries := by
  unfold makeRoom at h
  split at h
  · exact List.mem_of_mem_drop h
  · exact h

/-- Where entries may be held, storing replaces those of the key. -/
theorem mem_of_mem_store (h : f ∈ (m.store b e).entries) :
    f = e ∨ f ∈ m.entries ∧ (b.maxEntries ≠ 0 → f.key ≠ e.key) := by
  unfold store at h
  split at h
  · rename_i hzero
    exact Or.inr ⟨h, fun hne => absurd hzero hne⟩
  · rcases List.mem_append.1 h with h | h
    · obtain ⟨hroom, hkey⟩ := mem_erase.1 h
      exact Or.inr ⟨mem_of_mem_makeRoom hroom, fun _ => hkey⟩
    · exact Or.inl (List.mem_singleton.1 h)

theorem entries_store_of_zero (h : b.maxEntries = 0) :
    (m.store b e).entries = m.entries := by
  unfold store
  rw [if_pos h]

theorem entries_store (h : b.maxEntries ≠ 0) :
    (m.store b e).entries =
      (if (m.find? e.key).isNone ∧ b.maxEntries ≤ m.size then m.entries.drop (b.victims m.size)
        else m.entries).filter (fun f => f.key != e.key) ++ [e] := by
  unfold store makeRoom
  rw [if_neg h]
  split <;> rfl

theorem mem_of_mem_purge {now : Nat} (h : f ∈ (m.purge now).2.entries) : f ∈ m.entries := by
  unfold purge at h
  exact (List.mem_filter.1 h).1

theorem lookup_fst (m : Memory V) (now : Nat) (key : String) (version : Option String) :
    (m.lookup now key version).1 = (m.find? key).bind fun e =>
      if !e.isExpired now && versionsAgree e.version version then some e.value else none := by
  unfold lookup
  cases hfind : m.find? key with
  | none => rfl
  | some e =>
      cases hexpired : e.isExpired now <;> cases hagree : versionsAgree e.version version <;>
        simp [hexpired, hagree]

/-- Where keys are not repeated, the element under a key is the only one. -/
theorem find?_key_iff {α : Type} {f : α → String} {l : List α} (hnodup : (l.map f).Nodup)
    {a : α} {key : String} : l.find? (fun a => f a == key) = some a ↔ a ∈ l ∧ f a = key := by
  induction l with
  | nil => simp
  | cons b l ih =>
      rw [List.map_cons, List.nodup_cons] at hnodup
      by_cases hb : f b = key
      · have hnew : ∀ c ∈ l, f c ≠ key := by
          intro c hc heq
          exact hnodup.1 (hb ▸ heq ▸ List.mem_map_of_mem hc)
        rw [List.find?_cons, beq_iff_eq.2 hb, List.mem_cons, Option.some_inj]
        constructor
        · rintro rfl
          exact ⟨Or.inl rfl, hb⟩
        · rintro ⟨rfl | ha, hkey⟩
          · rfl
          · exact absurd hkey (hnew a ha)
      · rw [List.find?_cons, beq_eq_false_iff_ne.2 hb, List.mem_cons]
        refine (ih hnodup.2).trans ?_
        constructor
        · rintro ⟨ha, hkey⟩
          exact ⟨Or.inr ha, hkey⟩
        · rintro ⟨rfl | ha, hkey⟩
          · exact absurd hkey hb
          · exact ⟨ha, hkey⟩

section Unrepeated

variable (hnodup : (m.entries.map Entry.key).Nodup)

include hnodup

/-- Looking up drops the entry of the key if it counts no longer, and nothing else. -/
theorem entries_lookup (now : Nat) (key : String) (version : Option String) :
    (m.lookup now key version).2.entries =
      m.entries.filter fun e => !(e.key == key && e.isExpired now) := by
  have hkeep : (∀ e ∈ m.entries, e.key = key → e.isExpired now = false) →
      m.entries = m.entries.filter fun e => !(e.key == key && e.isExpired now) := by
    intro h
    symm
    rw [List.filter_eq_self]
    intro e he
    by_cases hkey : e.key = key
    · simp [h e he hkey]
    · simp [hkey]
  unfold lookup
  split
  · rename_i hfind
    apply hkeep
    intro e he hkey
    have hnone := List.find?_eq_none.1 hfind e he
    exact absurd (beq_iff_eq.2 hkey) hnone
  · rename_i e hfind
    have honly : ∀ f ∈ m.entries, f.key = key → f = e := by
      intro f hf hkey
      have hsome := (find?_key_iff hnodup).2 ⟨hf, hkey⟩
      exact Option.some.inj (hsome.symm.trans hfind)
    split
    · rename_i hexpired
      apply List.filter_congr
      intro f hf
      by_cases hkey : f.key = key
      · simp [honly f hf hkey, hexpired, (find?_eq_some hfind).2]
      · have hother : (f.key == key) = false := beq_eq_false_iff_ne.2 hkey
        simp [hother, bne]
    · rename_i hlive
      have hall := hkeep fun f hf hkey => honly f hf hkey ▸ Bool.eq_false_iff.2 hlive
      split <;> exact hall

end Unrepeated

/-- After a lookup of its key an entry is stored as if the lookup had not been made, where there
are not more entries than there may be. -/
theorem entries_store_lookup (hmax : b.maxEntries ≠ 0) (hsize : m.size ≤ b.maxEntries) (now : Nat)
    (version : Option String) :
    ((m.lookup now e.key version).2.store b e).entries = (m.store b e).entries := by
  unfold lookup
  split
  · rfl
  · rename_i f hfind
    split
    -- The entry was dropped. There is room in its place, so nothing is evicted either way.
    · have hmem := (find?_eq_some hfind).1
      have hkey := (find?_eq_some hfind).2
      have hshorter : (m.erase e.key).size < m.size :=
        List.length_filter_lt_length_iff_exists.2 ⟨f, hmem, by simp [hkey]⟩
      have hroom : ¬ b.maxEntries ≤ (m.erase e.key).size := by omega
      have hfound : ¬ (m.find? e.key).isNone := by simp [hfind]
      rw [entries_store hmax, entries_store hmax, if_neg fun h => hroom h.2,
        if_neg fun h => hfound h.1]
      simp [erase, List.filter_filter]
    · split <;> rfl

end Memory

end SymbolAtlas.Cache
