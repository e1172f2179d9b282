import SymbolAtlas.Proofs.Index.Delta

/-!
# What a replacement reports

The delta of a replacement tells exactly what the index gains, loses and keeps, and how its size
changes.
-/

namespace SymbolAtlas

namespace Snapshot

variable {x : Snapshot} {l : List Symbol}

theorem Represents.declared_symbols (h : x.Represents l) : declared x.symbols = declared l :=
  declared_perm h.symbols_perm

/-- What an index declares after a replacement. -/
theorem Represents.declared_replaceFiles (h : x.Represents l) (files : List Path)
    (symbols : List Symbol) :
    declared (x.replaceFiles files symbols).1.symbols =
      declared l \ (declaredIn files (declared l) ∪ declared symbols) ∪ declared symbols := by
  rw [(h.replaceFiles files symbols).declared_symbols, declared_append, declared_staying,
    declared_collapse]

/-- What a replacement brings that the index did not declare. -/
theorem Represents.declared_replaceFiles_sdiff (h : x.Represents l) (files : List Path)
    (symbols : List Symbol) :
    declared (x.replaceFiles files symbols).1.symbols \ declared l =
      declared symbols \ declared l := by
  rw [h.declared_replaceFiles]
  ext i
  simp only [Finset.mem_sdiff, Finset.mem_union]
  tauto

/-- What a replacement takes from the index: what was declared in the files and is not declared
again. -/
theorem Represents.sdiff_declared_replaceFiles (h : x.Represents l) (files : List Path)
    (symbols : List Symbol) :
    declared l \ declared (x.replaceFiles files symbols).1.symbols =
      declaredIn files (declared l) \ declared symbols := by
  rw [h.declared_replaceFiles]
  ext i
  simp only [Finset.mem_sdiff, Finset.mem_union, mem_declaredIn]
  tauto

theorem Represents.removed_le_size (h : x.Represents l) (files : List Path)
    (symbols : List Symbol) : (x.replaceFiles files symbols).2.removed ≤ x.size := by
  have hsubset : declaredIn files (declared l) \ declared symbols ⊆ declared l :=
    Finset.sdiff_subset.trans (Finset.filter_subset _ _)
  rw [h.delta_replaceFiles, h.size_eq, ← card_declared h.nodup]
  exact Finset.card_le_card hsubset

/-- The delta is exact. After any changes, the replacement of files by symbols reports as added and
as removed how many identities the index declares only afterwards and only before, and as updated
how many identities of the symbols it declared before. The updated ones are part of each of the two
numbers that they are taken from, those of the symbols that come and of those that go. The number of
symbols changes by what is added and removed, and the generation grows by one. -/
theorem delta_of_replaceFiles (changes : List IndexChange) (files : List Path)
    (symbols : List Symbol) :
    let x := after changes
    let y := (x.replaceFiles files symbols).1
    let d := (x.replaceFiles files symbols).2
    d.added = (declared y.symbols \ declared x.symbols).card ∧
    d.removed = (declared x.symbols \ declared y.symbols).card ∧
    d.updated = (declared symbols ∩ declared x.symbols).card ∧
    d.added + d.updated = (distinct symbols).length ∧
    d.removed + d.updated = (identitiesOf (x.displaced files (distinct symbols))).size ∧
    d.removed ≤ x.size ∧ y.size = x.size + d.added - d.removed ∧
    y.generation = x.generation + 1 := by
  intro x y d
  have h : x.Represents (IndexChange.after changes) := (represents_empty 0).foldl_change changes
  have hd : d = _ := h.delta_replaceFiles files symbols
  have hsize : y.size + d.removed = x.size + d.added := h.size_replaceFiles files symbols
  have hle : d.removed ≤ x.size := h.removed_le_size files symbols
  rw [h.declared_symbols, h.declared_replaceFiles_sdiff, h.sdiff_declared_replaceFiles,
    distinct_eq_collapse, length_collapse, size_identitiesOf, h.card_declared_displaced]
  refine ⟨congrArg Delta.added hd, congrArg Delta.removed hd, congrArg Delta.updated hd, ?_, ?_,
    hle, ?_, rfl⟩
  · calc
      d.added + d.updated = (declared symbols \ declared (IndexChange.after changes)).card +
            (declared symbols ∩ declared (IndexChange.after changes)).card := by rw [hd]
      _ = (declared symbols).card := Finset.card_sdiff_add_card_inter _ _
  · rw [hd]
  · omega

end Snapshot

end SymbolAtlas
