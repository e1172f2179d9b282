import SymbolAtlas.Proofs.Index.Refinement

/-!
# The symbols of a file

What an index holds for one file after it was built or some files were replaced.
-/

namespace SymbolAtlas

namespace Snapshot

variable {x : Snapshot} {l : List Symbol}

/-- The symbols of an index in a file are those of the list behind it. -/
theorem Represents.inFile_eq (h : x.Represents l) (f : Path) :
    x.inFile f = l.filter (place · = f.place) :=
  Groups.under_of_hold h.byFile f.place

/-- What files other than the replaced ones keep if no symbol comes into them. -/
theorem Represents.inFile_replaceFiles_of_not_mem (h : x.Represents l) {files : List Path}
    {symbols : List Symbol} {f : Path} (hf : f.place ∉ files.map Path.place)
    (hsymbols : ∀ t ∈ symbols, t.file.place ≠ f.place) :
    (x.replaceFiles files symbols).1.inFile f = x.inFile f := by
  rw [(h.replaceFiles files symbols).inFile_eq, h.inFile_eq, List.filter_append]
  have hnew : (collapse symbols).filter (place · = f.place) = [] := by
    rw [List.filter_eq_nil_iff]
    intro t ht heq
    exact hsymbols t (mem_of_mem_collapse ht) (of_decide_eq_true heq)
  rw [hnew, List.append_nil, IndexChange.staying, List.filter_filter]
  refine List.filter_congr fun t _ => ?_
  by_cases ht : t.file.place = f.place
  · have hid : t.identity ∉ symbols.map Symbol.identity := by
      intro hmem
      obtain ⟨u, hu, hut⟩ := List.mem_map.mp hmem
      exact hsymbols u hu ((place_eq_of_identity_eq hut).trans ht)
    have hstay : t.file.place ∉ files.map Path.place ∧ t.identity ∉ symbols.map Symbol.identity :=
      ⟨ht ▸ hf, hid⟩
    rw [decide_eq_true hstay, Bool.and_true]
  · simp [place, ht]

theorem filter_collapse_place (symbols : List Symbol) (k : Place) :
    (collapse symbols).filter (place · = k) =
      collapse (symbols.filter fun t => t.file.place = k) := by
  rw [filter_collapse]
  · rfl
  · intro t u htu
    unfold place
    rw [place_eq_of_identity_eq htu]

/-- What a replaced file has: its new symbols, each identity once. -/
theorem Represents.inFile_replaceFiles_of_mem (h : x.Represents l) {files : List Path}
    (symbols : List Symbol) {f : Path} (hf : f.place ∈ files.map Path.place) :
    (x.replaceFiles files symbols).1.inFile f =
      collapse (symbols.filter fun t => t.file.place = f.place) := by
  rw [(h.replaceFiles files symbols).inFile_eq, List.filter_append]
  have hold : (IndexChange.staying files symbols l).filter (place · = f.place) = [] := by
    rw [List.filter_eq_nil_iff]
    intro t ht heq
    have hstay := of_decide_eq_true (List.mem_filter.mp ht).2
    have hplace : t.file.place = f.place := of_decide_eq_true heq
    exact hstay.1 (hplace ▸ hf)
  rw [hold, List.nil_append]
  exact filter_collapse_place symbols f.place

/-- What a file has in an index that is built from scratch: its symbols among all, each identity
once. -/
theorem inFile_rebuild (x : Snapshot) (c : Collection) (f : Path) :
    (x.rebuild c).inFile f = collapse (c.symbols.filter fun t => t.file.place = f.place) := by
  have hrepresents := represents_ofSymbols (x.generation + 1) c.symbols
  change (ofSymbols (x.generation + 1) c.symbols).inFile f = _
  rw [hrepresents.inFile_eq]
  exact filter_collapse_place c.symbols f.place

end Snapshot

end SymbolAtlas
