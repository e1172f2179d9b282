import Mathlib.Algebra.GroupWithZero.Nat
import SymbolAtlas.Proofs.Collect
import SymbolAtlas.Proofs.Collection
import SymbolAtlas.Proofs.Search.Order
import SymbolAtlas.Proofs.TreeMap

/-!
# Collecting in any order

The projects of a solution are collected at the same time. Each hands over its errors and then its
symbols, and between the two others may hand over theirs. What is collected has one entry for each
project and one error for each failure, and does not depend on who was first.
-/

namespace SymbolAtlas

/-! ## Deliveries -/

/-- What a project hands over at once. -/
inductive Delivery where
  | errors (p : Project)
  | symbols (p : Project)

namespace Delivery

def errorsOf? : Delivery → Option Project
  | .errors p => some p
  | .symbols _ => none

def symbolsOf? : Delivery → Option Project
  | .errors _ => none
  | .symbols p => some p

end Delivery

/-- Every project hands over its errors once and its symbols once. -/
structure Solution.Delivers (solution : Solution) (deliveries : List Delivery) : Prop where
  errors : (deliveries.filterMap Delivery.errorsOf?).Perm solution.projects
  symbols : (deliveries.filterMap Delivery.symbolsOf?).Perm solution.projects

/-- The deliveries of one project after the other. -/
def Solution.inTurn (solution : Solution) : List Delivery :=
  solution.projects.flatMap fun p => [.errors p, .symbols p]

theorem Solution.filterMap_errorsOf?_inTurn (solution : Solution) :
    solution.inTurn.filterMap Delivery.errorsOf? = solution.projects := by
  simp [inTurn, List.filterMap_flatMap, List.filterMap_cons, Delivery.errorsOf?]

theorem Solution.filterMap_symbolsOf?_inTurn (solution : Solution) :
    solution.inTurn.filterMap Delivery.symbolsOf? = solution.projects := by
  simp [inTurn, List.filterMap_flatMap, List.filterMap_cons, Delivery.symbolsOf?]

theorem Solution.delivers_inTurn (solution : Solution) : solution.Delivers solution.inTurn :=
  ⟨.of_eq solution.filterMap_errorsOf?_inTurn, .of_eq solution.filterMap_symbolsOf?_inTurn⟩

namespace Sources

variable (s : Sources)

def receive (c : Collection) : Delivery → Collection
  | .errors p => { c with errors := c.errors ++ (s.collectProject p).errors }
  | .symbols p => { c with projects := c.projects.insert p.name (s.collectProject p).symbols }

/-- What is collected once all deliveries are in. -/
def collectFrom (deliveries : List Delivery) : Collection :=
  let c := deliveries.foldl s.receive {}
  { c with errors := c.errors.mergeSort fun a b => (a.compare b).isLE }

theorem foldl_receive (deliveries : List Delivery) (c : Collection) :
    deliveries.foldl s.receive c = {
      projects := ((deliveries.filterMap Delivery.symbolsOf?).map fun p =>
        (p.name, (s.collectProject p).symbols)).foldl (fun m e => m.insert e.1 e.2) c.projects
      errors := c.errors ++ (deliveries.filterMap Delivery.errorsOf?).flatMap fun p =>
        (s.collectProject p).errors } := by
  induction deliveries generalizing c with
  | nil => simp
  | cons d deliveries ih =>
      rw [List.foldl_cons, ih]
      cases d with
      | errors p =>
          simp [receive, Delivery.errorsOf?, Delivery.symbolsOf?, List.filterMap_cons]
      | symbols p =>
          simp [receive, Delivery.errorsOf?, Delivery.symbolsOf?, List.filterMap_cons]

/-- One project after the other is one of the orders. -/
theorem collect_eq (solution : Solution) : s.collect solution = s.collectFrom solution.inTurn := by
  unfold collectFrom
  rw [foldl_receive, solution.filterMap_errorsOf?_inTurn, solution.filterMap_symbolsOf?_inTurn]
  simp [collect, Collection.ofOutcomes, List.foldl_map, List.flatMap_map]

/-! ## What a project hands over -/

/-- The symbols of the supported files that can be parsed, none where the files cannot be listed. -/
def symbolsOf (p : Project) : List Symbol :=
  match s.list p with
  | .error _ => []
  | .ok files => (files.filter s.supports).flatMap (s.parsed p.name)

/-- The error of a project whose files cannot be listed, or those of the supported files that
cannot be parsed. -/
def failuresOf (p : Project) : List CollectionError :=
  match s.list p with
  | .error message => [{ project := p.name, message }]
  | .ok files => (files.filter s.supports).filterMap fun f =>
    match s.parse f p.name with
    | .ok _ => none
    | .error message => some { project := p.name, file := some f, message }

theorem collectProject_symbols (p : Project) : (s.collectProject p).symbols = s.symbolsOf p := by
  unfold collectProject symbolsOf
  cases s.list p with
  | error message => rfl
  | ok files => exact Outcome.symbols_ofFiles s p.name _

theorem collectProject_errors (p : Project) : (s.collectProject p).errors = s.failuresOf p := by
  unfold collectProject failuresOf
  cases s.list p with
  | error message => rfl
  | ok files =>
      dsimp only
      induction files.filter s.supports with
      | nil => rfl
      | cons f rest ih =>
          have hcons : (Outcome.ofFiles s p.name (f :: rest)).errors =
              (Outcome.ofFile s p.name f).errors ++ (Outcome.ofFiles s p.name rest).errors := rfl
          rw [hcons, ih, List.filterMap_cons, Outcome.ofFile]
          cases s.parse f p.name <;> rfl

theorem project_of_mem_failuresOf {p : Project} {e : CollectionError} (he : e ∈ s.failuresOf p) :
    e.project = p.name := by
  unfold failuresOf at he
  split at he
  · rw [List.mem_singleton.mp he]
  · obtain ⟨f, -, hf⟩ := List.mem_filterMap.mp he
    split at hf
    · cases hf
    · rw [← Option.some.inj hf]

end Sources

/-! ## The order of errors -/

namespace CollectionError

/-- By project and then by file, where the error of a whole project comes first. -/
def NotAfter (a b : CollectionError) : Prop :=
  a.project < b.project ∨
    a.project = b.project ∧ (Ord.compare (a.file.map Path.place) (b.file.map Path.place)).isLE

instance : Std.TransCmp compare :=
  inferInstanceAs (Std.TransCmp (compareLex (compareOn project)
    (compareOn fun e => e.file.map Path.place)))

theorem project_of_compare_eq {a b : CollectionError} (h : a.compare b = .eq) :
    a.project = b.project := by
  unfold compare at h
  rw [Ordering.then_eq_eq] at h
  exact Std.LawfulEqOrd.eq_of_compare h.1

theorem notAfter_of_compare {a b : CollectionError} (h : a.compare b ≠ .gt) : a.NotAfter b := by
  unfold compare at h
  unfold NotAfter
  cases hproject : Ord.compare a.project b.project with
  | lt => exact .inl (compareOfLessAndEq_eq_lt.mp hproject)
  | eq =>
      rw [hproject] at h
      exact .inr ⟨Std.LawfulEqOrd.eq_of_compare hproject, Ordering.isLE_iff_ne_gt.mpr h⟩
  | gt =>
      rw [hproject] at h
      exact absurd rfl h

end CollectionError

/-- What comes of a list of which only one member yields anything, in whatever order. -/
theorem flatMap_eq_of_perm {α β : Type} {xs ys : List α} (h : xs.Perm ys) (hxs : xs.Nodup)
    {f : α → List β} (honly : ∀ a ∈ xs, ∀ b ∈ xs, f a ≠ [] → f b ≠ [] → a = b) :
    xs.flatMap f = ys.flatMap f := by
  by_cases hyields : ∃ a ∈ xs, f a ≠ []
  · obtain ⟨a, ha, hfa⟩ := hyields
    have hother : ∀ b ∈ xs, b ≠ a → f b = [] := by
      intro b hb hne
      by_contra hfb
      exact hne (honly b hb a ha hfb hfa)
    rw [flatMap_eq_of_forall_ne hxs ha hother, flatMap_eq_of_forall_ne (h.nodup hxs)
      (h.mem_iff.mp ha) fun b hb => hother b (h.mem_iff.mpr hb)]
  · push Not at hyields
    have hnone : ∀ b ∈ ys, f b = [] := fun b hb => hyields b (h.mem_iff.mpr hb)
    rw [List.flatMap_eq_nil_iff.mpr hyields, List.flatMap_eq_nil_iff.mpr hnone]

/-! ## The collection -/

section Complete

variable {s : Sources} {ps qs : List Project} {deliveries : List Delivery} {solution : Solution}

def Sources.sortedFailures (s : Sources) (ps : List Project) : List CollectionError :=
  sortBy CollectionError.compare (ps.flatMap s.failuresOf)

/-- Errors that the order does not tell apart are of one project, whose errors stay together. -/
theorem Sources.sortedFailures_congr (hnames : (ps.map Project.name).Nodup) (h : ps.Perm qs) :
    s.sortedFailures ps = s.sortedFailures qs := by
  apply sortBy_congr
  intro e
  rw [List.filter_flatMap, List.filter_flatMap]
  apply flatMap_eq_of_perm h (List.Nodup.of_map _ hnames)
  have hname : ∀ p, (s.failuresOf p).filter (e.compare · == .eq) ≠ [] → e.project = p.name := by
    intro p hp
    obtain ⟨a, ha⟩ := List.exists_mem_of_ne_nil _ hp
    obtain ⟨hin, heq⟩ := List.mem_filter.mp ha
    rw [CollectionError.project_of_compare_eq (eq_of_beq heq), s.project_of_mem_failuresOf hin]
  intro p hp q hq hep heq
  exact List.inj_on_of_nodup_map hnames hp hq ((hname p hep).symm.trans (hname q heq))

theorem Sources.collectFrom_errors (s : Sources) (deliveries : List Delivery) :
    (s.collectFrom deliveries).errors =
      s.sortedFailures (deliveries.filterMap Delivery.errorsOf?) := by
  have hle : (fun a b : CollectionError => (a.compare b).isLE) = fun a b => a.compare b != .gt := by
    funext a b
    cases a.compare b <;> rfl
  unfold collectFrom sortedFailures sortBy
  rw [foldl_receive, hle]
  simp only [collectProject_errors, List.nil_append]

theorem Sources.getElem?_collectFrom (hnames : (solution.projects.map Project.name).Nodup)
    (h : solution.Delivers deliveries) (name : String) (symbols : List Symbol) :
    (s.collectFrom deliveries).projects[name]? = some symbols ↔
      (name, symbols) ∈ solution.projects.map fun p => (p.name, s.symbolsOf p) := by
  unfold collectFrom
  rw [foldl_receive]
  simp only [collectProject_symbols]
  rw [getElem?_foldl_insert]
  · exact (h.symbols.map _).mem_iff
  · rw [List.map_map]
    exact (h.symbols.map Project.name).nodup_iff.mpr hnames

theorem Sources.perm_toList_collectFrom (hnames : (solution.projects.map Project.name).Nodup)
    (h : solution.Delivers deliveries) :
    (s.collectFrom deliveries).projects.toList.Perm
      (solution.projects.map fun p => (p.name, s.symbolsOf p)) := by
  rw [List.perm_ext_iff_of_nodup]
  · rintro ⟨name, symbols⟩
    rw [Std.TreeMap.mem_toList_iff_getElem?_eq_some]
    exact getElem?_collectFrom hnames h name symbols
  · exact List.Nodup.of_map _ (nodup_keys_toList _)
  · apply List.Nodup.of_map Prod.fst
    rw [List.map_map]
    exact hnames

theorem Sources.collectFrom_equiv (hnames : (solution.projects.map Project.name).Nodup)
    (h : solution.Delivers deliveries) :
    (s.collectFrom deliveries).Equiv (s.collect solution) := by
  rw [collect_eq]
  have hturn := solution.delivers_inTurn
  refine ⟨Std.TreeMap.Equiv.of_forall_constGet?_eq fun name => ?_, ?_⟩
  · apply Option.ext
    intro symbols
    rw [getElem?_collectFrom hnames h, getElem?_collectFrom hnames hturn]
  · rw [collectFrom_errors, collectFrom_errors]
    apply sortedFailures_congr
    · exact (h.errors.map Project.name).nodup_iff.mpr hnames
    · exact h.errors.trans hturn.errors.symm

/-- In whatever order the projects of different names hand over what they have, the collection has
one entry for each of them, with what its files declare in the order in which they are listed, and
one error for each failure, ordered by project and then by file. It is the one that is collected
project by project. -/
theorem Sources.collectFrom_delivered (s : Sources) (solution : Solution)
    (hnames : (solution.projects.map Project.name).Nodup) (deliveries : List Delivery)
    (h : solution.Delivers deliveries) :
    (s.collectFrom deliveries).projects.toList.Perm
      (solution.projects.map fun p => (p.name, s.symbolsOf p)) ∧
    (s.collectFrom deliveries).errors.Perm (solution.projects.flatMap s.failuresOf) ∧
    (s.collectFrom deliveries).errors.Pairwise CollectionError.NotAfter ∧
    (s.collectFrom deliveries).size =
      (solution.projects.map fun p => (s.symbolsOf p).length).sum ∧
    (s.collectFrom deliveries).Equiv (s.collect solution) := by
  have hentries := perm_toList_collectFrom (s := s) hnames h
  refine ⟨hentries, ?_, ?_, ?_, collectFrom_equiv hnames h⟩
  · rw [collectFrom_errors]
    exact (perm_sortBy _ _).trans (h.errors.flatMap_right _)
  · rw [collectFrom_errors]
    exact (pairwise_sortBy _).imp CollectionError.notAfter_of_compare
  · have hsum := (hentries.map fun e => e.2.length).sum_nat
    rw [List.map_map] at hsum
    unfold Collection.size Collection.symbols
    rw [List.length_flatMap]
    exact hsum

/-- The first project cannot be listed and hands over its errors last; one file of the second one
cannot be parsed, and one is not supported. -/
theorem Sources.collectFrom_delivered_of_failures :
    let gone : Project := { name := "A", root := ⟨"a"⟩ }
    let kept : Project := { name := "B", root := ⟨"b"⟩ }
    let solution : Solution := { name := "S", projects := [gone, kept] }
    let main : Symbol := { name := "Main", kind := .classType, file := ⟨"b/x.sym"⟩, project := "B" }
    let s : Sources := {
      list := fun p => if p.name = "A" then .error "no folder" else
        .ok [⟨"b/n.txt"⟩, ⟨"b/w.sym"⟩, ⟨"b/x.sym"⟩]
      isSource := fun _ => true
      fingerprint := fun _ => .ok default
      isFile := fun _ => true
      supports := fun f => f.spelling != "b/n.txt"
      parse := fun f _ => if f.spelling = "b/w.sym" then .error "syntax" else .ok [main] }
    let deliveries : List Delivery := [.errors kept, .symbols gone, .symbols kept, .errors gone]
    (solution.projects.map Project.name).Nodup ∧ solution.Delivers deliveries ∧
    (s.collectFrom deliveries).projects.toList.Perm [("A", []), ("B", [main])] ∧
    (s.collectFrom deliveries).errors.Perm
      [⟨"A", none, "no folder"⟩, ⟨"B", some ⟨"b/w.sym"⟩, "syntax"⟩] ∧
    (s.collectFrom deliveries).errors.Pairwise CollectionError.NotAfter ∧
    (s.collectFrom deliveries).size = 1 := by
  intro gone kept solution main s deliveries
  have hnames : (solution.projects.map Project.name).Nodup := by decide
  have hdelivers : solution.Delivers deliveries := ⟨.swap gone kept [], .refl _⟩
  obtain ⟨hentries, herrors, hordered, hsize, -⟩ :=
    collectFrom_delivered s solution hnames deliveries hdelivers
  exact ⟨hnames, hdelivers, hentries, herrors, hordered, hsize⟩

end Complete

end SymbolAtlas
