import Mathlib.Data.Finset.Card
import Mathlib.Data.Finset.Dedup
import Mathlib.Data.List.Perm.Basic
import SymbolAtlas.Proofs.Index.Refinement
import SymbolAtlas.Proofs.TreeMap

/-!
# Counting symbols

The size of an index is the length of the list behind it. The delta of a replacement is counted
before the index changes, from the symbols that are to go and those that are to come; taken as sets
of identities, these account for the difference.
-/

namespace SymbolAtlas

/-- Taking the symbols of each key in turn permutes those that have one of the keys. -/
theorem perm_flatMap_filter {κ : Type} [DecidableEq κ] (key : Symbol → κ) {ks : List κ}
    (hks : ks.Nodup) (l : List Symbol) :
    (ks.flatMap fun k => l.filter (key · = k)).Perm (l.filter (key · ∈ ks)) := by
  induction ks with
  | nil => simp
  | cons k rest ih =>
      obtain ⟨hk, hrest⟩ := List.nodup_cons.mp hks
      have hsplit := List.filter_append_perm (key · = k) (l.filter (key · ∈ k :: rest))
      have hfirst : (l.filter (key · ∈ k :: rest)).filter (key · = k) = l.filter (key · = k) := by
        rw [List.filter_filter]
        refine List.filter_congr fun s _ => ?_
        by_cases hs : key s = k <;> simp [hs]
      have hothers : (l.filter (key · ∈ k :: rest)).filter (fun s => !decide (key s = k)) =
          l.filter (key · ∈ rest) := by
        rw [List.filter_filter]
        refine List.filter_congr fun s _ => ?_
        by_cases hs : key s = k <;> simp [hs, hk]
      rw [hfirst, hothers] at hsplit
      rw [List.flatMap_cons]
      exact ((ih hrest).append_left _).trans hsplit

theorem perm_flatMap_filter_of_forall_mem {κ : Type} [DecidableEq κ] (key : Symbol → κ)
    {ks : List κ} (hks : ks.Nodup) {l : List Symbol} (hl : ∀ s ∈ l, key s ∈ ks) :
    (ks.flatMap fun k => l.filter (key · = k)).Perm l := by
  have hperm := perm_flatMap_filter key hks l
  rwa [List.filter_eq_self.mpr fun s hs => decide_eq_true (hl s hs)] at hperm

/-- The identities that some symbols declare. -/
def declared (symbols : List Symbol) : Finset Identity :=
  (symbols.map Symbol.identity).toFinset

/-- The identities of declarations in some files. -/
def declaredIn (files : List Path) (identities : Finset Identity) : Finset Identity :=
  identities.filter fun i => i.file ∈ files.map Path.place

section Declared

variable {l l' symbols : List Symbol} {files : List Path} {i : Identity}

theorem mem_declared : i ∈ declared l ↔ i ∈ l.map Symbol.identity := List.mem_toFinset

theorem declared_append (l l' : List Symbol) : declared (l ++ l') = declared l ∪ declared l' := by
  unfold declared
  rw [List.map_append, List.toFinset_append]

theorem declared_perm (h : l.Perm l') : declared l = declared l' :=
  List.toFinset_eq_of_perm _ _ (h.map Symbol.identity)

theorem card_declared (h : (l.map Symbol.identity).Nodup) : (declared l).card = l.length := by
  rw [declared, List.toFinset_card_of_nodup h, List.length_map]

theorem declared_collapse (symbols : List Symbol) :
    declared (collapse symbols) = declared symbols := by
  ext i
  rw [mem_declared, mem_declared, mem_map_identity_collapse]

theorem length_collapse (symbols : List Symbol) :
    (collapse symbols).length = (declared symbols).card := by
  rw [← declared_collapse, card_declared (nodup_identity_collapse symbols)]

theorem mem_declaredIn {identities : Finset Identity} :
    i ∈ declaredIn files identities ↔ i ∈ identities ∧ i.file ∈ files.map Path.place :=
  Finset.mem_filter

theorem declared_staying (files : List Path) (symbols l : List Symbol) :
    declared (IndexChange.staying files symbols l) =
      declared l \ (declaredIn files (declared l) ∪ declared symbols) := by
  ext i
  rw [Finset.mem_sdiff, Finset.mem_union, mem_declaredIn, mem_declared, mem_declared, mem_declared,
    IndexChange.staying]
  simp only [List.mem_map, List.mem_filter, decide_eq_true_eq]
  constructor
  · rintro ⟨t, ⟨ht, hplace, hnew⟩, rfl⟩
    refine ⟨⟨t, ht, rfl⟩, ?_⟩
    rintro (⟨-, hin⟩ | hin)
    · exact hplace hin
    · exact hnew hin
  · rintro ⟨⟨t, ht, rfl⟩, hnot⟩
    exact ⟨t, ⟨ht, fun hplace => hnot (.inl ⟨⟨t, ht, rfl⟩, hplace⟩),
      fun hnew => hnot (.inr hnew)⟩, rfl⟩

end Declared

namespace Snapshot

variable {x : Snapshot} {l : List Symbol}

theorem mem_keys_byFile (h : x.Represents l) {s : Symbol} (hs : s ∈ l) :
    place s ∈ x.byFile.keys := by
  rw [Std.TreeMap.mem_keys, ← Std.TreeMap.contains_iff_mem, Groups.contains_eq_of_hold h.byFile,
    List.any_eq_true]
  exact ⟨s, hs, by simp⟩

/-- Listing an index file by file permutes the list behind it. -/
theorem Represents.symbols_perm (h : x.Represents l) : x.symbols.Perm l := by
  have hunder : x.symbols = x.byFile.keys.flatMap fun p => l.filter (place · = p) := by
    unfold symbols symbolsOf
    exact List.flatMap_congr fun p _ => Groups.under_of_hold h.byFile p
  rw [hunder]
  exact perm_flatMap_filter_of_forall_mem place (nodup_keys x.byFile) fun s hs =>
    mem_keys_byFile h hs

theorem Represents.nodup_symbols (h : x.Represents l) : (x.symbols.map Symbol.identity).Nodup :=
  (h.symbols_perm.map Symbol.identity).nodup_iff.mpr h.nodup

theorem Represents.mem_symbols (h : x.Represents l) {s : Symbol} : s ∈ x.symbols ↔ s ∈ l :=
  h.symbols_perm.mem_iff

theorem Represents.size_eq (h : x.Represents l) : x.size = l.length := by
  have hvalues : x.byFile.values = x.byFile.keys.map (Groups.under x.byFile) :=
    values_eq_map_keys x.byFile (Groups.under x.byFile) fun p symbols hp => by
      simp [Groups.under, hp]
  have hsize : x.size = x.symbols.length := by
    unfold size symbols symbolsOf
    rw [hvalues, List.map_map, List.length_flatMap]
    rfl
  rw [hsize, h.symbols_perm.length_eq]

/-! ## The delta of a replacement -/

/-- The identities of symbols, as a set. -/
def identitiesOf (symbols : List Symbol) : Std.TreeSet Identity :=
  symbols.foldl (fun m s => m.insert s.identity) {}

theorem mem_toList_identitiesOf {symbols : List Symbol} {i : Identity} :
    i ∈ (identitiesOf symbols).toList ↔ i ∈ symbols.map Symbol.identity := by
  rw [Std.TreeSet.mem_toList, ← Std.TreeSet.contains_iff_mem, identitiesOf, contains_identities,
    decide_eq_true_eq]

theorem contains_identitiesOf (old : List Symbol) (i : Identity) :
    (identitiesOf old).contains i = decide (i ∈ declared old) := by
  rw [identitiesOf, contains_identities, decide_eq_decide, mem_declared]

theorem size_identitiesOf (old : List Symbol) :
    (identitiesOf old).size = (declared old).card := by
  have hset : (identitiesOf old).toList.toFinset = declared old := by
    ext i
    rw [List.mem_toFinset, mem_toList_identitiesOf, mem_declared]
  rw [← hset, List.toFinset_card_of_nodup (nodup_toList_treeSet _), Std.TreeSet.length_toList]

theorem countP_identitiesOf (old : List Symbol) {incoming : List Symbol}
    (hincoming : (incoming.map Symbol.identity).Nodup) :
    (incoming.countP fun s => (identitiesOf old).contains s.identity) =
      (declared incoming ∩ declared old).card := by
  have hset : declared (incoming.filter fun s => (identitiesOf old).contains s.identity) =
      declared incoming ∩ declared old := by
    ext i
    rw [Finset.mem_inter, mem_declared, mem_declared, List.mem_map, List.mem_map]
    simp only [List.mem_filter, contains_identitiesOf, decide_eq_true_eq]
    constructor
    · rintro ⟨s, ⟨hs, hold⟩, rfl⟩
      exact ⟨⟨s, hs, rfl⟩, hold⟩
    · rintro ⟨⟨s, hs, rfl⟩, hold⟩
      exact ⟨s, ⟨hs, hold⟩, rfl⟩
  rw [List.countP_eq_length_filter, ← hset,
    card_declared (hincoming.sublist (List.filter_sublist.map _))]

/-- A delta counts the differences and the overlap of two sets of identities. -/
theorem deltaOf_eq (old : List Symbol) {incoming : List Symbol}
    (hincoming : (incoming.map Symbol.identity).Nodup) :
    deltaOf old incoming =
      { added := (declared incoming \ declared old).card
        removed := (declared old \ declared incoming).card
        updated := (declared incoming ∩ declared old).card } := by
  have hnew := Finset.card_sdiff_add_card_inter (declared incoming) (declared old)
  have hold := Finset.card_sdiff_add_card_inter (declared old) (declared incoming)
  have hsize := size_identitiesOf old
  have hupdated := countP_identitiesOf old hincoming
  rw [Finset.inter_comm (declared old)] at hold
  rw [card_declared hincoming] at hnew
  unfold identitiesOf at hsize hupdated
  unfold deltaOf
  dsimp only
  rw [hsize, hupdated, Delta.mk.injEq]
  refine ⟨?_, ?_, rfl⟩ <;> omega

/-- What makes way for symbols: all that is declared in the files, and what is declared again. -/
theorem Represents.declared_displaced (h : x.Represents l) (files : List Path)
    (symbols : List Symbol) :
    declared (x.displaced files (collapse symbols)) =
      declaredIn files (declared l) ∪ (declared symbols ∩ declared l) := by
  ext i
  rw [Finset.mem_union, Finset.mem_inter, mem_declaredIn, mem_declared, mem_declared, mem_declared]
  constructor
  · intro hi
    obtain ⟨t, ht, rfl⟩ := List.mem_map.mp hi
    obtain ⟨hl, hplace | hnew⟩ := h.mem_displaced.mp ht
    · exact .inl ⟨List.mem_map_of_mem hl, hplace⟩
    · exact .inr ⟨mem_map_identity_collapse.mp hnew, List.mem_map_of_mem hl⟩
  · rintro (⟨hi, hplace⟩ | ⟨hnew, hi⟩)
    · obtain ⟨t, ht, rfl⟩ := List.mem_map.mp hi
      exact List.mem_map_of_mem (h.mem_displaced.mpr ⟨ht, .inl hplace⟩)
    · obtain ⟨t, ht, rfl⟩ := List.mem_map.mp hi
      exact List.mem_map_of_mem
        (h.mem_displaced.mpr ⟨ht, .inr (mem_map_identity_collapse.mpr hnew)⟩)

/-- The delta of a replacement in terms of what the index declared before. -/
theorem Represents.delta_replaceFiles (h : x.Represents l) (files : List Path)
    (symbols : List Symbol) :
    (x.replaceFiles files symbols).2 =
      { added := (declared symbols \ declared l).card
        removed := (declaredIn files (declared l) \ declared symbols).card
        updated := (declared symbols ∩ declared l).card } := by
  have hdelta : (x.replaceFiles files symbols).2 =
      deltaOf (x.displaced files (collapse symbols)) (collapse symbols) := by
    unfold Snapshot.replaceFiles
    rw [distinct_eq_collapse]
  rw [hdelta, deltaOf_eq _ (nodup_identity_collapse symbols), declared_collapse,
    h.declared_displaced]
  have hin : declaredIn files (declared l) ⊆ declared l := Finset.filter_subset _ _
  rw [Delta.mk.injEq]
  refine ⟨congrArg Finset.card ?_, congrArg Finset.card ?_, congrArg Finset.card ?_⟩
  · ext i
    simp only [Finset.mem_sdiff, Finset.mem_union, Finset.mem_inter]
    have := @hin i
    tauto
  · ext i
    simp only [Finset.mem_sdiff, Finset.mem_union, Finset.mem_inter]
    tauto
  · ext i
    simp only [Finset.mem_union, Finset.mem_inter]
    have := @hin i
    tauto

/-- What makes way is what is declared in the files and not declared again, and what is declared
again. -/
theorem Represents.card_declared_displaced (h : x.Represents l) (files : List Path)
    (symbols : List Symbol) :
    (declared (x.displaced files (collapse symbols))).card =
      (declaredIn files (declared l) \ declared symbols).card +
        (declared symbols ∩ declared l).card := by
  have hgone : declaredIn files (declared l) ∪ (declared symbols ∩ declared l) =
      (declaredIn files (declared l) \ declared symbols) ∪ (declared symbols ∩ declared l) := by
    ext i
    simp only [Finset.mem_union, Finset.mem_sdiff, Finset.mem_inter, mem_declaredIn]
    tauto
  have hapart : Disjoint (declaredIn files (declared l) \ declared symbols)
      (declared symbols ∩ declared l) :=
    Finset.sdiff_disjoint.mono_right Finset.inter_subset_left
  rw [h.declared_displaced, hgone, Finset.card_union_of_disjoint hapart]

/-- A symbol stays unless its identity makes way. -/
theorem Represents.declared_staying_eq (h : x.Represents l) (files : List Path)
    (symbols : List Symbol) :
    declared (IndexChange.staying files symbols l) =
      declared l \ declared (x.displaced files (collapse symbols)) := by
  rw [declared_staying, h.declared_displaced]
  ext i
  simp only [Finset.mem_sdiff, Finset.mem_union, Finset.mem_inter]
  tauto

theorem Represents.length_staying_add (h : x.Represents l) (files : List Path)
    (symbols : List Symbol) :
    (IndexChange.staying files symbols l).length +
      (declared (x.displaced files (collapse symbols))).card = l.length := by
  have hgone : declared (x.displaced files (collapse symbols)) ⊆ declared l := by
    rw [h.declared_displaced]
    exact Finset.union_subset (Finset.filter_subset _ _) Finset.inter_subset_right
  have hnodup : ((IndexChange.staying files symbols l).map Symbol.identity).Nodup :=
    h.nodup.sublist (List.filter_sublist.map _)
  calc
    _ = (declared l \ declared (x.displaced files (collapse symbols))).card +
          (declared (x.displaced files (collapse symbols))).card := by
        rw [← card_declared hnodup, h.declared_staying_eq]
    _ = (declared l).card := Finset.card_sdiff_add_card_eq_card hgone
    _ = l.length := card_declared h.nodup

/-- What a replacement adds and removes accounts for the change of the size. -/
theorem Represents.size_replaceFiles (h : x.Represents l) (files : List Path)
    (symbols : List Symbol) :
    (x.replaceFiles files symbols).1.size + (x.replaceFiles files symbols).2.removed =
      x.size + (x.replaceFiles files symbols).2.added := by
  have hstaying := h.length_staying_add files symbols
  have hgone := h.card_declared_displaced files symbols
  have hcome := Finset.card_sdiff_add_card_inter (declared symbols) (declared l)
  rw [(h.replaceFiles files symbols).size_eq, h.size_eq, h.delta_replaceFiles, List.length_append,
    length_collapse]
  dsimp only
  omega

end Snapshot

end SymbolAtlas
