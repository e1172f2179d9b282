import Mathlib.Data.List.Induction
import Mathlib.Data.List.Nodup
import SymbolAtlas.Index.Snapshot

/-!
# Symbols once for each identity

`collapse` lets every symbol take the place of the earlier one of its identity, and come last where
there is none. It is what `distinct` computes with its maps, and it can be taken file by file.
-/

namespace SymbolAtlas

/-- The symbols with each identity once: in the position of the first and with the content of the
last. -/
def collapse (symbols : List Symbol) : List Symbol :=
  symbols.foldl (fun l s => replaceOrAppend s l) []

@[simp] theorem collapse_nil : collapse [] = [] := rfl

theorem collapse_append_singleton (symbols : List Symbol) (s : Symbol) :
    collapse (symbols ++ [s]) = replaceOrAppend s (collapse symbols) := by
  simp [collapse]

/-! ## Putting one symbol in place -/

theorem replaceOrAppend_cons_of_eq {s t : Symbol} (h : t.identity = s.identity) (l : List Symbol) :
    replaceOrAppend s (t :: l) = s :: l := by
  simp [replaceOrAppend, h]

theorem replaceOrAppend_cons_of_ne {s t : Symbol} (h : t.identity ≠ s.identity) (l : List Symbol) :
    replaceOrAppend s (t :: l) = t :: replaceOrAppend s l := by
  simp [replaceOrAppend, h]

theorem map_identity_replaceOrAppend (s : Symbol) (l : List Symbol) :
    (replaceOrAppend s l).map Symbol.identity =
      if s.identity ∈ l.map Symbol.identity then l.map Symbol.identity
      else l.map Symbol.identity ++ [s.identity] := by
  induction l with
  | nil => simp [replaceOrAppend]
  | cons t rest ih =>
      by_cases h : t.identity = s.identity
      · simp [replaceOrAppend_cons_of_eq h, h]
      · rw [replaceOrAppend_cons_of_ne h, List.map_cons, ih, List.map_cons]
        by_cases hrest : s.identity ∈ rest.map Symbol.identity
        · simp [hrest]
        · simp [hrest, Ne.symm h]

theorem mem_of_mem_replaceOrAppend {s t : Symbol} {l : List Symbol}
    (ht : t ∈ replaceOrAppend s l) : t = s ∨ t ∈ l := by
  induction l with
  | nil =>
      left
      simpa [replaceOrAppend] using ht
  | cons u rest ih =>
      unfold replaceOrAppend at ht
      split_ifs at ht
      · rcases List.mem_cons.mp ht with rfl | hrest
        · exact Or.inl rfl
        · exact Or.inr (List.mem_cons_of_mem u hrest)
      · rcases List.mem_cons.mp ht with rfl | hrest
        · exact Or.inr (by simp)
        · rcases ih hrest with h | h
          · exact Or.inl h
          · exact Or.inr (List.mem_cons_of_mem u h)

theorem mem_replaceOrAppend_self (s : Symbol) (l : List Symbol) : s ∈ replaceOrAppend s l := by
  induction l with
  | nil => simp [replaceOrAppend]
  | cons t rest ih =>
      unfold replaceOrAppend
      split_ifs
      · simp
      · exact List.mem_cons_of_mem t ih

/-- A test that sees only identities can be made before or after a symbol is put in place. -/
theorem filter_replaceOrAppend {p : Symbol → Bool}
    (hp : ∀ s t : Symbol, s.identity = t.identity → p s = p t) (s : Symbol) (l : List Symbol) :
    (replaceOrAppend s l).filter p =
      if p s then replaceOrAppend s (l.filter p) else l.filter p := by
  induction l with
  | nil => by_cases h : p s <;> simp [replaceOrAppend, h]
  | cons t rest ih =>
      by_cases h : t.identity = s.identity
      · have hpt : p t = p s := hp t s h
        rw [replaceOrAppend_cons_of_eq h, List.filter_cons, List.filter_cons, hpt]
        by_cases hs : p s
        · simp only [hs, if_true, replaceOrAppend_cons_of_eq h]
        · simp [hs]
      · rw [replaceOrAppend_cons_of_ne h, List.filter_cons, List.filter_cons, ih]
        by_cases ht : p t <;> by_cases hs : p s <;>
          simp [ht, hs, replaceOrAppend_cons_of_ne h]

theorem replaceOrAppend_append {s : Symbol} {l : List Symbol}
    (h : s.identity ∉ l.map Symbol.identity) (l' : List Symbol) :
    replaceOrAppend s (l ++ l') = l ++ replaceOrAppend s l' := by
  induction l with
  | nil => rfl
  | cons t rest ih =>
      rw [List.map_cons, List.mem_cons, not_or] at h
      rw [List.cons_append, replaceOrAppend_cons_of_ne (Ne.symm h.1), ih h.2, List.cons_append]

/-! ## Collapsing -/

theorem mem_of_mem_collapse {t : Symbol} {symbols : List Symbol} (ht : t ∈ collapse symbols) :
    t ∈ symbols := by
  induction symbols using List.reverseRecOn with
  | nil => simp at ht
  | append_singleton symbols s ih =>
      rw [collapse_append_singleton] at ht
      rcases mem_of_mem_replaceOrAppend ht with rfl | h
      · simp
      · exact List.mem_append_left _ (ih h)

theorem mem_map_identity_collapse {i : Identity} {symbols : List Symbol} :
    i ∈ (collapse symbols).map Symbol.identity ↔ i ∈ symbols.map Symbol.identity := by
  induction symbols using List.reverseRecOn with
  | nil => simp
  | append_singleton symbols s ih =>
      rw [collapse_append_singleton, map_identity_replaceOrAppend]
      split_ifs with h
      · rw [List.map_append, List.mem_append, ih]
        constructor
        · exact Or.inl
        · rintro (hi | hi)
          · exact hi
          · obtain rfl : i = s.identity := by simpa using hi
            exact ih.mp h
      · rw [List.mem_append, ih, List.map_append, List.mem_append]
        simp

theorem nodup_identity_collapse (symbols : List Symbol) :
    ((collapse symbols).map Symbol.identity).Nodup := by
  induction symbols using List.reverseRecOn with
  | nil => simp
  | append_singleton symbols s ih =>
      rw [collapse_append_singleton, map_identity_replaceOrAppend]
      split_ifs with h
      · exact ih
      · exact List.nodup_append_comm.mp (List.nodup_cons.mpr ⟨h, ih⟩)

theorem filter_collapse {p : Symbol → Bool}
    (hp : ∀ s t : Symbol, s.identity = t.identity → p s = p t) (symbols : List Symbol) :
    (collapse symbols).filter p = collapse (symbols.filter p) := by
  induction symbols using List.reverseRecOn with
  | nil => rfl
  | append_singleton symbols s ih =>
      rw [collapse_append_singleton, filter_replaceOrAppend hp, ih, List.filter_append]
      by_cases h : p s
      · simp [h, collapse_append_singleton]
      · simp [h]

/-- Symbols of different identities are collapsed apart from each other. -/
theorem collapse_append {symbols symbols' : List Symbol}
    (h : (symbols.map Symbol.identity).Disjoint (symbols'.map Symbol.identity)) :
    collapse (symbols ++ symbols') = collapse symbols ++ collapse symbols' := by
  induction symbols' using List.reverseRecOn with
  | nil => rw [List.append_nil, collapse_nil, List.append_nil]
  | append_singleton symbols' s ih =>
      rw [List.map_append, List.disjoint_append_right] at h
      have hnew : s.identity ∉ (collapse symbols).map Symbol.identity := fun hin =>
        h.2 (mem_map_identity_collapse.mp hin) (by simp)
      rw [← List.append_assoc, collapse_append_singleton, ih h.1, replaceOrAppend_append hnew,
        ← collapse_append_singleton]

/-! ## Collapsing with maps -/

/-- The last symbol of each identity. -/
def latest (symbols : List Symbol) : Std.TreeMap Identity Symbol :=
  symbols.foldl (fun m s => m.insert s.identity s) {}

theorem latest_append_singleton (symbols : List Symbol) (s : Symbol) :
    latest (symbols ++ [s]) = (latest symbols).insert s.identity s := by
  simp [latest]

theorem getElem?_latest_append_singleton (symbols : List Symbol) (s : Symbol) (i : Identity) :
    (latest (symbols ++ [s]))[i]? = if s.identity = i then some s else (latest symbols)[i]? := by
  rw [latest_append_singleton, Std.TreeMap.getElem?_insert]
  simp only [Std.LawfulEqCmp.compare_eq_iff_eq]

theorem latest_of_mem_collapse {t : Symbol} {symbols : List Symbol} (ht : t ∈ collapse symbols) :
    (latest symbols)[t.identity]? = some t := by
  induction symbols using List.reverseRecOn with
  | nil => simp at ht
  | append_singleton symbols s ih =>
      rw [getElem?_latest_append_singleton]
      have hnodup := nodup_identity_collapse (symbols ++ [s])
      rw [collapse_append_singleton] at ht hnodup
      split_ifs with h
      · have hself := mem_replaceOrAppend_self s (collapse symbols)
        rw [List.inj_on_of_nodup_map hnodup hself ht h]
      · rcases mem_of_mem_replaceOrAppend ht with rfl | hmem
        · exact absurd rfl h
        · exact ih hmem

theorem isSome_latest {i : Identity} {symbols : List Symbol}
    (hi : i ∈ symbols.map Symbol.identity) : ((latest symbols)[i]?).isSome := by
  rw [← mem_map_identity_collapse, List.mem_map] at hi
  obtain ⟨t, ht, rfl⟩ := hi
  rw [latest_of_mem_collapse ht]
  rfl

/-- One step of the pass that keeps the first symbol of each identity, with the content that `m`
names. -/
def keepFirst (m : Std.TreeMap Identity Symbol) (acc : Std.TreeSet Identity × List Symbol)
    (s : Symbol) : Std.TreeSet Identity × List Symbol :=
  if acc.1.contains s.identity then acc
  else (acc.1.insert s.identity, (m[s.identity]?).getD s :: acc.2)

/-- The pass has met the identities of the symbols so far, and lists them as `collapse` does. -/
theorem foldl_keepFirst {m : Std.TreeMap Identity Symbol} {symbols : List Symbol}
    (hm : ∀ s ∈ symbols, (m[s.identity]?).isSome) :
    (∀ i, (symbols.foldl (keepFirst m) ({}, [])).1.contains i =
      decide (i ∈ symbols.map Symbol.identity)) ∧
    (symbols.foldl (keepFirst m) ({}, [])).2.reverse =
      ((collapse symbols).map Symbol.identity).filterMap (m[·]?) := by
  induction symbols using List.reverseRecOn with
  | nil => simp
  | append_singleton symbols s ih =>
      obtain ⟨hmet, hlist⟩ := ih fun t ht => hm t (List.mem_append_left _ ht)
      obtain ⟨t, ht⟩ := Option.isSome_iff_exists.mp (hm s (by simp))
      rw [List.foldl_append, List.foldl_cons, List.foldl_nil, collapse_append_singleton,
        map_identity_replaceOrAppend]
      generalize symbols.foldl (keepFirst m) ({}, []) = acc at hmet hlist
      by_cases h : s.identity ∈ symbols.map Symbol.identity
      · have hskip : keepFirst m acc s = acc := by
          simp only [keepFirst, hmet, h, decide_true, if_true]
        rw [hskip, if_pos (mem_map_identity_collapse.mpr h)]
        refine ⟨fun i => ?_, hlist⟩
        rw [hmet i, decide_eq_decide, List.map_append, List.mem_append]
        constructor
        · exact Or.inl
        · rintro (hi | hi)
          · exact hi
          · obtain rfl : i = s.identity := by simpa using hi
            exact h
      · have htake : keepFirst m acc s = (acc.1.insert s.identity, t :: acc.2) := by
          simp only [keepFirst, hmet, h, decide_false, Bool.false_eq_true, if_false, ht,
            Option.getD_some]
        rw [htake, if_neg fun hi => h (mem_map_identity_collapse.mp hi)]
        constructor
        · intro i
          rw [Std.TreeSet.contains_insert, hmet i, List.map_append, Bool.eq_iff_iff]
          simp only [Bool.or_eq_true, beq_iff_eq, Std.LawfulEqCmp.compare_eq_iff_eq,
            decide_eq_true_eq, List.mem_append, List.map_cons, List.map_nil, List.mem_singleton]
          tauto
        · simp [hlist, ht]

theorem distinct_eq_collapse (symbols : List Symbol) : distinct symbols = collapse symbols := by
  have hlatest : ∀ s ∈ symbols, ((latest symbols)[s.identity]?).isSome := fun s hs =>
    isSome_latest (List.mem_map_of_mem hs)
  have hpass := (foldl_keepFirst hlatest).2
  have hcollapse : ((collapse symbols).map Symbol.identity).filterMap ((latest symbols)[·]?) =
      collapse symbols := by
    rw [List.filterMap_map]
    refine (List.filterMap_congr fun t ht => ?_).trans List.filterMap_some
    exact latest_of_mem_collapse ht
  rw [hcollapse] at hpass
  exact hpass

end SymbolAtlas
