import Mathlib.Data.List.Count
import SymbolAtlas.Proofs.Index.Narrowing
import SymbolAtlas.Proofs.Index.Owners

/-!
# Queries for a qualified name

Several symbols can carry one qualified name, in different files or as different kinds, and one of
them owns it. A query with a qualified name starts from the owner, so it finds the owner or nothing:
the other symbols that carry the name are never found, whatever else the query asks for.
-/

namespace SymbolAtlas

/-- Where nothing is repeated, the members that are one given symbol are that symbol alone. -/
theorem filter_eq_of_mem {l : List Symbol} (hl : l.Nodup) {s : Symbol} (hs : s ∈ l) :
    l.filter (some s = some ·) = [s] := by
  simp only [Option.some.injEq, @eq_comm _ s]
  rw [List.filter_eq, List.count_eq_one_of_mem hl hs, List.replicate_one]

namespace Snapshot

variable {x : Snapshot} {l : List Symbol} {q : Query} {f : String}

/-- The symbols that satisfy a query and own its qualified name are all that the query finds. -/
theorem Represents.select_of_qualifiedName (h : x.Represents l) (hq : q.qualifiedName = some f)
    (test : String → Bool) :
    x.select q test = (l.filter (q.accepts test)).filter (x.qualified? f = some ·) := by
  have hcandidates : x.candidates q = (x.qualified? f).toList := by
    unfold candidates
    rw [hq]
  unfold select
  rw [hcandidates, List.filter_comm]
  cases howner : x.qualified? f with
  | none => simp
  | some s => rw [filter_eq_of_mem h.nodup.of_map (h.owner f s howner).1, Option.toList_some]

/-- Of a qualified name only its owner is found. After any changes, a query with a qualified name
finds, of the symbols of the index that satisfy its conditions, those that own the name: one or
none. So these are all that satisfy the conditions if and only if no other symbol does. As long as
symbols that carry the name and go with its owner have the name of the last one that stays, the
owner is the last symbol that carries the name, and a query that another one satisfies is not
answered in full. -/
theorem query_of_qualifiedName (changes : List IndexChange) {q : Query} {f : String}
    (hq : q.qualifiedName = some f) {test : String → Bool} (htests : q.Tests test) :
    let x := after changes
    let wanted := (IndexChange.after changes).filter (q.accepts test)
    ∃ found, x.query q = .ok found ∧ found = wanted.filter (x.qualified? f = some ·) ∧
      found.length ≤ 1 ∧
      (found = wanted ↔ ∀ s ∈ wanted, x.qualified? f = some s) ∧
      (KeepsNames f changes → (found = wanted ↔
        ∀ s ∈ wanted, (carrying f (IndexChange.after changes)).getLast? = some s)) := by
  intro x wanted
  have h : x.Represents (IndexChange.after changes) := (represents_empty 0).foldl_change changes
  have hfound : x.select q test = wanted.filter (x.qualified? f = some ·) :=
    h.select_of_qualifiedName hq test
  have hlength : (x.select q test).length ≤ 1 := by
    unfold select candidates
    rw [hq]
    exact Nat.le_trans (List.length_filter_le _ _) (by cases x.qualified? f <;> simp)
  have hfull : x.select q test = wanted ↔ ∀ s ∈ wanted, x.qualified? f = some s := by
    rw [hfound, List.filter_eq_self]
    simp only [decide_eq_true_eq]
  refine ⟨x.select q test, query_eq_ok htests, hfound, hlength, hfull, fun hnames => ?_⟩
  rw [hfull, getLast?_after hnames]

/-- Of two declarations of one class in two files the later one owns the name, and the one of the
first file is not found there. -/
theorem query_of_qualifiedName_of_two_files :
    let first : Symbol :=
      { name := "Map", qualifiedName := some "P.Map", kind := .classType, file := ⟨"a.sym"⟩,
        project := "P" }
    let second : Symbol := { first with file := ⟨"b.sym"⟩ }
    let q : Query := { qualifiedName := some "P.Map", file := some ⟨"a.sym"⟩ }
    let x := after [.replace [⟨"a.sym"⟩, ⟨"b.sym"⟩] [first, second]]
    first ∈ x.symbols ∧ q.accepts (fun _ => true) first = true ∧ x.query q = .ok [] := by
  intro first second q x
  obtain ⟨found, hanswer, hfound, -⟩ := query_of_qualifiedName
    [.replace [⟨"a.sym"⟩, ⟨"b.sym"⟩] [first, second]] (rfl : q.qualifiedName = some "P.Map")
    (rfl : q.Tests fun _ => true)
  have hnone : found = [] := by
    rw [hfound]
    decide +kernel
  rw [hnone] at hanswer
  exact ⟨by decide +kernel, by decide +kernel, hanswer⟩

end Snapshot

end SymbolAtlas
