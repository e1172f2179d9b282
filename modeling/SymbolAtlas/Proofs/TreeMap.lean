import Mathlib.Data.List.Induction
import Mathlib.Data.List.Nodup
import Std.Data.TreeMap
import Std.Data.TreeSet

/-!
# Listing maps

The values of a map, its entries and its keys as lists.
-/

namespace SymbolAtlas

variable {κ α : Type}

/-- What is made of things with different keys, and keeps their keys, has different keys. -/
theorem nodup_map_filterMap {β : Type} {l : List α} {g : α → Option β} {key : α → κ}
    {key' : β → κ} (hg : ∀ a b, g a = some b → key' b = key a) (hl : (l.map key).Nodup) :
    ((l.filterMap g).map key').Nodup := by
  rw [List.Nodup, List.pairwise_map] at hl ⊢
  rw [List.pairwise_filterMap]
  refine hl.imp fun hne b hb b' hb' => ?_
  rw [hg _ b hb, hg _ b' hb']
  exact hne

variable [Ord κ]

theorem map_snd_toList (m : Std.TreeMap κ α) : m.toList.map Prod.snd = m.values := by
  have hvalues : m.values = m.foldr (fun _ v l => v :: l) [] := rfl
  rw [hvalues, Std.TreeMap.foldr_eq_foldr_toList]
  induction m.toList with
  | nil => rfl
  | cons e rest ih => rw [List.map_cons, ih, List.foldr_cons]

theorem not_lt_self [Std.ReflOrd κ] (k : κ) : compare k k ≠ .lt := by
  rw [Std.ReflOrd.compare_self]
  simp

variable [Std.TransOrd κ] [Std.LawfulEqOrd κ]

theorem nodup_keys (m : Std.TreeMap κ α) : m.keys.Nodup :=
  m.distinct_keys.imp fun h heq => h (Std.LawfulEqCmp.compare_eq_iff_eq.mpr heq)

theorem mem_values (m : Std.TreeMap κ α) (a : α) : a ∈ m.values ↔ ∃ k : κ, m[k]? = some a := by
  rw [← map_snd_toList, List.mem_map]
  constructor
  · rintro ⟨⟨k, b⟩, hmem, rfl⟩
    exact ⟨k, Std.TreeMap.mem_toList_iff_getElem?_eq_some.mp hmem⟩
  · rintro ⟨k, hk⟩
    exact ⟨(k, a), Std.TreeMap.mem_toList_iff_getElem?_eq_some.mpr hk, rfl⟩

/-- The values, if there is a rule that tells the value of each key. -/
theorem values_eq_map_keys (m : Std.TreeMap κ α) (f : κ → α)
    (h : ∀ (k : κ) a, m[k]? = some a → a = f k) : m.values = m.keys.map f := by
  rw [← map_snd_toList, ← Std.TreeMap.map_fst_toList_eq_keys, List.map_map]
  refine List.map_congr_left fun ⟨k, a⟩ hmem => ?_
  exact h k a (Std.TreeMap.mem_toList_iff_getElem?_eq_some.mp hmem)

/-- The keys, if they can be told from the values. -/
theorem map_values_eq_keys (m : Std.TreeMap κ α) (f : α → κ)
    (h : ∀ (k : κ) a, m[k]? = some a → f a = k) : m.values.map f = m.keys := by
  rw [← map_snd_toList, ← Std.TreeMap.map_fst_toList_eq_keys, List.map_map]
  refine List.map_congr_left fun ⟨k, a⟩ hmem => ?_
  exact h k a (Std.TreeMap.mem_toList_iff_getElem?_eq_some.mp hmem)

theorem mem_keys_of_getElem? {m : Std.TreeMap κ α} {k : κ} {a : α} (h : m[k]? = some a) :
    k ∈ m.keys := by
  rw [Std.TreeMap.mem_keys, Std.TreeMap.mem_iff_isSome_getElem?, h]
  rfl

/-- Of the members of an ordered list with some property one is the last. -/
theorem exists_last_of_pairwise {l : List κ} (hl : l.Pairwise fun a b => compare a b = .lt)
    {P : κ → Prop} {a : κ} (ha : a ∈ l) (hP : P a) :
    ∃ b ∈ l, P b ∧ ∀ c ∈ l, compare b c = .lt → ¬ P c := by
  induction l generalizing a with
  | nil => simp at ha
  | cons first rest ih =>
      obtain ⟨hfirst, hrest⟩ := List.pairwise_cons.mp hl
      by_cases hlater : ∃ b ∈ rest, P b
      · obtain ⟨b, hb, hPb⟩ := hlater
        obtain ⟨last, hmem, hPlast, hlast⟩ := ih hrest hb hPb
        refine ⟨last, List.mem_cons_of_mem first hmem, hPlast, fun c hc hlt => ?_⟩
        rcases List.mem_cons.mp hc with rfl | hc
        · exact absurd (Std.TransCmp.lt_trans hlt (hfirst last hmem)) (not_lt_self last)
        · exact hlast c hc hlt
      · have hfirstP : P first := by
          rcases List.mem_cons.mp ha with rfl | ha
          · exact hP
          · exact absurd ⟨a, ha, hP⟩ hlater
        refine ⟨first, List.mem_cons_self, hfirstP, fun c hc hlt hPc => ?_⟩
        rcases List.mem_cons.mp hc with rfl | hc
        · exact not_lt_self c hlt
        · exact hlater ⟨c, hc, hPc⟩

/-- What a map holds that is made of entries with keys of their own. -/
theorem getElem?_foldl_insert {l : List (κ × α)} (hl : (l.map Prod.fst).Nodup) (k : κ) (v : α) :
    (l.foldl (fun m e => m.insert e.1 e.2) ({} : Std.TreeMap κ α))[k]? = some v ↔ (k, v) ∈ l := by
  induction l using List.reverseRecOn with
  | nil => simp
  | append_singleton l e ih =>
      rw [List.map_append, List.nodup_append] at hl
      obtain ⟨hfront, -, hnew⟩ := hl
      rw [List.foldl_append, List.foldl_cons, List.foldl_nil, Std.TreeMap.getElem?_insert,
        List.mem_append, List.mem_singleton]
      split_ifs with hk
      · have heq := Std.LawfulEqCmp.compare_eq_iff_eq.mp hk
        subst heq
        constructor
        · intro h
          rw [← Option.some.inj h]
          exact .inr rfl
        · rintro (hin | heq)
          · exact absurd rfl (hnew e.1 (List.mem_map.mpr ⟨(e.1, v), hin, rfl⟩) e.1 (by simp))
          · rw [← heq]
      · rw [ih hfront]
        constructor
        · exact .inl
        · rintro (hin | heq)
          · exact hin
          · rw [← heq] at hk
            exact absurd Std.ReflOrd.compare_self hk

theorem nodup_keys_toList (m : Std.TreeMap κ α) : (m.toList.map Prod.fst).Nodup := by
  rw [Std.TreeMap.map_fst_toList_eq_keys]
  exact nodup_keys m

section Lookup

variable [BEq κ] [LawfulBEq κ]

/-- Where no key is repeated, looking up finds every entry. -/
theorem lookup_eq_some_iff_mem {l : List (κ × α)} (hl : (l.map Prod.fst).Nodup) {k : κ} {v : α} :
    l.lookup k = some v ↔ (k, v) ∈ l := by
  induction l with
  | nil => simp
  | cons e rest ih =>
      obtain ⟨first, a⟩ := e
      obtain ⟨hfirst, hrest⟩ := List.nodup_cons.mp hl
      rw [List.lookup_cons, List.mem_cons]
      by_cases hk : k = first
      · subst hk
        have hnot : ¬ (k, v) ∈ rest := fun h => hfirst (List.mem_map.mpr ⟨(k, v), h, rfl⟩)
        simp [hnot, eq_comm]
      · rw [beq_eq_false_iff_ne.mpr hk]
        simp [hk, ih hrest]

theorem lookup_toList (m : Std.TreeMap κ α) (k : κ) : m.toList.lookup k = m[k]? := by
  apply Option.ext
  intro v
  rw [lookup_eq_some_iff_mem (nodup_keys_toList m), Std.TreeMap.mem_toList_iff_getElem?_eq_some]

/-- Where no key is repeated, at most one entry has a key. -/
theorem filter_eq_lookup {l : List (κ × α)} (hl : (l.map Prod.fst).Nodup) (k : κ) :
    l.filter (fun e => e.1 == k) = (l.lookup k).toList.map (Prod.mk k) := by
  induction l with
  | nil => rfl
  | cons e rest ih =>
      obtain ⟨first, a⟩ := e
      obtain ⟨hfirst, hrest⟩ := List.nodup_cons.mp hl
      rw [List.filter_cons, List.lookup_cons, ih hrest]
      by_cases hk : k = first
      · subst hk
        have hnone : rest.lookup k = none := by
          rw [List.lookup_eq_none_iff]
          intro e he
          rw [bne_iff_ne]
          rintro rfl
          exact hfirst (List.mem_map.mpr ⟨e, he, rfl⟩)
        simp [hnone]
      · have hne : ¬ first = k := fun h => hk h.symm
        rw [beq_eq_false_iff_ne.mpr hk]
        simp [hne]

end Lookup

/-- Where the keys can be told from the values, at most one value has a key. -/
theorem filter_values [DecidableEq κ] (m : Std.TreeMap κ α) (f : α → κ)
    (h : ∀ (k : κ) a, m[k]? = some a → f a = k) (k : κ) :
    m.values.filter (fun a => f a = k) = m[k]?.toList := by
  have hkey : ∀ e ∈ m.toList, decide (f e.2 = k) = (e.1 == k) := by
    rintro ⟨k', a⟩ hmem
    rw [h k' a (Std.TreeMap.mem_toList_iff_getElem?_eq_some.mp hmem)]
    rfl
  rw [← map_snd_toList, List.filter_map]
  simp only [Function.comp_def]
  rw [List.filter_congr hkey, filter_eq_lookup (nodup_keys_toList m), lookup_toList]
  cases m[k]? <;> rfl

/-- The values of a map with a single key. -/
theorem values_eq_singleton {m : Std.TreeMap κ α} {k : κ} {a : α}
    (h : ∀ (k' : κ) b, m[k']? = some b ↔ k' = k ∧ b = a) : m.values = [a] := by
  have hperm : m.toList.Perm [(k, a)] := by
    rw [List.perm_ext_iff_of_nodup (List.Nodup.of_map _ (nodup_keys_toList m))
      (List.nodup_singleton _)]
    rintro ⟨k', b⟩
    rw [Std.TreeMap.mem_toList_iff_getElem?_eq_some, h, List.mem_singleton, Prod.mk.injEq]
  rw [← map_snd_toList, List.perm_singleton.mp hperm, List.map_singleton]

theorem nodup_toList_treeSet (m : Std.TreeSet κ) : m.toList.Nodup :=
  m.distinct_toList.imp fun h heq => h (Std.LawfulEqCmp.compare_eq_iff_eq.mpr heq)

end SymbolAtlas
