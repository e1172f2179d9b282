import SymbolAtlas.Proofs.Index.Conditions
import SymbolAtlas.Proofs.Text.Lowercase

/-!
# Beginnings of names

A symbol is looked up by a beginning of its name as the name is spelled. The beginning and the name
are turned into lowercase each by itself, so the symbol is missed where that makes a difference.
-/

namespace SymbolAtlas

namespace Snapshot

variable {x : Snapshot} {l : List Symbol} {s : Symbol}

theorem Represents.mem_startingWith (h : x.Represents l) {start : String} (hstart : start ≠ "") :
    s ∈ x.startingWith start ↔
      s ∈ l ∧ Text.lowercaseLetters start <+: Text.lowercaseLetters s.name := by
  rw [(h.perm_startingWith hstart).mem_iff, List.mem_filter, List.isPrefixOf_iff_prefix]
  rfl

/-- After any changes, every symbol of the index is found by every beginning of its name as it is
spelled, apart from the empty one, except where the beginning ends a word with a capital sigma and
the name goes on with the word: alone the sigma takes its final form, and in the name it does
not. -/
theorem mem_startingWith_iff_of_beginning (changes : List IndexChange) {s : Symbol}
    (hs : s ∈ (after changes).symbols) {start : String} {rest : List Char}
    (hstart : start ≠ "") (hname : s.name.toList = start.toList ++ rest) :
    s ∈ (after changes).startingWith start ↔
      ¬ (Text.EndsInSigma start.toList ∧ Text.startsCased rest = true) := by
  have h : (after changes).Represents (IndexChange.after changes) :=
    (represents_empty 0).foldl_change changes
  rw [h.mem_startingWith hstart, and_iff_right (h.mem_symbols.mp hs)]
  exact Text.lowercaseLetters_prefix_iff hname

/-- A name with a sigma in the middle is missed by its beginning up to the sigma, and found by the
one before. -/
theorem not_mem_startingWith_of_sigma :
    let middle : Symbol := { name := "ΜΕΣΑ", kind := .classType, file := ⟨"a.sym"⟩, project := "P" }
    let x := after [.replace [⟨"a.sym"⟩] [middle]]
    middle ∈ x.symbols ∧ middle ∉ x.startingWith "ΜΕΣ" ∧ middle ∈ x.startingWith "ΜΕ" := by
  intro middle x
  have hs : middle ∈ x.symbols := by decide +kernel
  have hmissed : middle.name.toList = "ΜΕΣ".toList ++ ['Α'] := by decide
  have hfound : middle.name.toList = "ΜΕ".toList ++ ['Σ', 'Α'] := by decide
  have hends : Text.EndsInSigma "ΜΕΣ".toList := by
    refine ⟨['Μ', 'Ε'], [], rfl, ?_, by simp⟩
    decide +kernel
  have hgoesOn : Text.startsCased ['Α'] = true := by decide +kernel
  refine ⟨hs, fun hmem => ?_, ?_⟩
  · exact (mem_startingWith_iff_of_beginning _ hs (by decide) hmissed).mp hmem ⟨hends, hgoesOn⟩
  · refine (mem_startingWith_iff_of_beginning _ hs (by decide) hfound).mpr fun h => ?_
    exact absurd h.1.sigma_mem (by decide)

end Snapshot

end SymbolAtlas
