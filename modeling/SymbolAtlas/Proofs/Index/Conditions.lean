import SymbolAtlas.Index.Query
import SymbolAtlas.Proofs.Index.Delta
import SymbolAtlas.Proofs.Index.Files
import SymbolAtlas.Proofs.Trie.Extending

/-!
# Queries as conjunctions

Whichever group of an index a query starts from, it holds every symbol that satisfies the query, and
each of them once. So the answer is what going through all symbols would find.
-/

namespace SymbolAtlas

namespace Query

/-- Whether a symbol satisfies all conditions that are set, where `test` stands for the pattern. -/
structure Satisfied (q : Query) (test : String → Bool) (s : Symbol) : Prop where
  qualifiedName : ∀ f, q.qualifiedName = some f → s.qualifiedName = some f
  file : ∀ f, q.file = some f → s.file.place = f.place
  name : ∀ n, q.name = some n → Text.lowercase s.name = Text.lowercase n
  start : ∀ p, q.start = some p → Text.lowercaseLetters p <+: Text.lowercaseLetters s.name
  project : ∀ p, q.project = some p → s.project = p
  kind : ∀ k, q.kind = some k → s.kind = k
  pattern : test s.name = true

variable {q : Query} {test : String → Bool} {s : Symbol}

theorem allows_iff {α : Type} {condition : Option α} {test : α → Bool} :
    allows condition test = true ↔ ∀ a, condition = some a → test a = true := by
  cases condition with
  | none => simp [allows]
  | some a => simp [allows]

theorem accepts_iff : q.accepts test s = true ↔ q.Satisfied test s := by
  unfold accepts
  simp only [Bool.and_eq_true, allows_iff, beq_iff_eq, List.isPrefixOf_iff_prefix, Path.same]
  constructor
  · rintro ⟨⟨⟨⟨⟨⟨hqualified, hfile⟩, hname⟩, hstart⟩, hproject⟩, hkind⟩, hpattern⟩
    exact ⟨hqualified, hfile, hname, hstart, hproject, hkind, hpattern⟩
  · rintro ⟨hqualified, hfile, hname, hstart, hproject, hkind, hpattern⟩
    exact ⟨⟨⟨⟨⟨⟨hqualified, hfile⟩, hname⟩, hstart⟩, hproject⟩, hkind⟩, hpattern⟩

/-- What a pattern of a query tests names by, if it can be read. -/
def Tests (q : Query) (test : String → Bool) : Prop :=
  match q.namePattern with
  | none => test = fun _ => true
  | some written => ∃ p, Pattern.parse true written = .ok p ∧ test = p.isMatch

end Query

namespace Snapshot

variable {x : Snapshot} {l : List Symbol} {q : Query}

theorem Represents.perm_startingWith (h : x.Represents l) {start : String} (hstart : start ≠ "") :
    (x.startingWith start).Perm
      (l.filter fun s => (Text.lowercaseLetters start).isPrefixOf (word s)) := by
  unfold startingWith
  rw [if_neg (by simpa using hstart), h.trie]
  exact Trie.perm_extending_ofList word h.nodup.of_map _

/-- The candidates of a query are the symbols with one of its conditions, each once. -/
theorem Represents.perm_candidates (h : x.Represents l) (hq : q.qualifiedName = none)
    (hstart : q.start ≠ some "") :
    ∃ p : Symbol → Bool, (x.candidates q).Perm (l.filter p) ∧
      ∀ test s, q.Satisfied test s → p s = true := by
  unfold candidates
  rw [hq]
  cases hfile : q.file with
  | some f =>
      refine ⟨_, List.Perm.of_eq (h.inFile_eq f), fun test s hs => ?_⟩
      exact decide_eq_true (hs.file f hfile)
  | none =>
  cases hname : q.name with
  | some n =>
      refine ⟨_, List.Perm.of_eq (Groups.under_of_hold h.byName _), fun test s hs => ?_⟩
      exact decide_eq_true (hs.name n hname)
  | none =>
  cases hpre : q.start with
  | some start =>
      rw [hpre] at hstart
      have hne : start ≠ "" := fun heq => hstart (congrArg some heq)
      refine ⟨_, h.perm_startingWith hne, fun test s hs => ?_⟩
      exact List.isPrefixOf_iff_prefix.mpr (hs.start start hpre)
  | none =>
  cases hproject : q.project with
  | some project =>
      refine ⟨_, List.Perm.of_eq (Groups.under_of_hold h.byProject _), fun test s hs => ?_⟩
      exact decide_eq_true (hs.project project hproject)
  | none =>
  cases hkind : q.kind with
  | some k =>
      refine ⟨_, List.Perm.of_eq (Groups.under_of_hold h.byKind _), fun test s hs => ?_⟩
      exact decide_eq_true (hs.kind k hkind)
  | none =>
      refine ⟨fun _ => true, ?_, fun _ _ _ => rfl⟩
      rw [List.filter_true]
      exact h.symbols_perm

/-- The answer of a query is that of going through all symbols. -/
theorem Represents.perm_select (h : x.Represents l) (hq : q.qualifiedName = none)
    (hstart : q.start ≠ some "") (test : String → Bool) :
    (x.select q test).Perm (l.filter (q.accepts test)) := by
  obtain ⟨p, hcandidates, hp⟩ := h.perm_candidates hq hstart
  have hfilter : (l.filter p).filter (q.accepts test) = l.filter (q.accepts test) := by
    rw [List.filter_filter]
    refine List.filter_congr fun s _ => ?_
    cases haccepts : q.accepts test s with
    | false => rw [Bool.false_and]
    | true => rw [hp test s (Query.accepts_iff.mp haccepts), Bool.true_and]
  rw [← hfilter]
  exact hcandidates.filter _

/-- A query is the conjunction of its conditions. After any changes, a query without a qualified
name, and without an empty beginning of names, finds exactly the symbols of the index that satisfy
its conditions, no identity twice, whatever the pattern tests names by. This is its answer when the
pattern can be read. -/
theorem query_after (changes : List IndexChange) {q : Query} (hq : q.qualifiedName = none)
    (hstart : q.start ≠ some "") (test : String → Bool) :
    let x := after changes
    ((x.select q test).map Symbol.identity).Nodup ∧
    (∀ s, s ∈ x.select q test ↔ s ∈ IndexChange.after changes ∧ q.Satisfied test s) ∧
    (q.Tests test → x.query q = .ok (x.select q test)) := by
  intro x
  have h : x.Represents (IndexChange.after changes) := (represents_empty 0).foldl_change changes
  have hselect := h.perm_select hq hstart test
  refine ⟨?_, fun s => ?_, fun htests => ?_⟩
  · rw [(hselect.map Symbol.identity).nodup_iff]
    exact h.nodup.sublist (List.filter_sublist.map _)
  · rw [hselect.mem_iff, List.mem_filter, Query.accepts_iff]
  · unfold Query.Tests at htests
    unfold query
    cases hpattern : q.namePattern with
    | none =>
        rw [hpattern] at htests
        rw [htests]
    | some written =>
        rw [hpattern] at htests
        obtain ⟨p, hparse, rfl⟩ := htests
        dsimp only
        rw [hparse]

/-- A query for the beginning of a name and a kind. -/
theorem query_after_of_start :
    let map : Symbol := { name := "Map", kind := .classType, file := ⟨"a.sym"⟩, project := "P" }
    let other : Symbol := { name := "mapKey", kind := .method, file := ⟨"a.sym"⟩, project := "P" }
    let x := after [.replace [⟨"a.sym"⟩] [map, other]]
    let q : Query := { start := some "MAP", kind := some .classType }
    x.query q = .ok (x.select q fun _ => true) ∧ map ∈ x.select q fun _ => true := by
  intro map other x q
  obtain ⟨-, hmem, hanswer⟩ := query_after [.replace [⟨"a.sym"⟩] [map, other]]
    (rfl : q.qualifiedName = none) (by decide) fun _ => true
  refine ⟨hanswer rfl, (hmem map).mpr ⟨by decide +kernel, Query.accepts_iff.mp ?_⟩⟩
  decide +kernel

end Snapshot

end SymbolAtlas
