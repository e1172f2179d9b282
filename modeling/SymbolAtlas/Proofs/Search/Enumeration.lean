import Mathlib.Data.Set.List
import SymbolAtlas.Proofs.Index.Delta
import SymbolAtlas.Proofs.Search.Numbers
import SymbolAtlas.Search.Run

/-!
# The order in which files are looked through

An index lists its files in no particular order, and two strategies of a search look through all
symbols file by file. What they find is sorted before it is offered, and hits that the order does
not tell apart lie in one file, where the symbols have an order of their own. So the order of the
files does not show.
-/

namespace SymbolAtlas

/-! ## Sorting numbers -/

section Sorting

variable {α : Type} {order : α → α → Ordering} {P : α → Prop}

theorem sortBy_map_val (order : α → α → Ordering) (xs : List { a // P a }) :
    sortBy order (xs.map Subtype.val) =
      (sortBy (fun a b : { a // P a } => order a.1 b.1) xs).map Subtype.val :=
  (List.map_mergeSort (f := Subtype.val) fun _ _ _ _ => rfl).symm

/-- Where only some elements are ordered, it is enough that the lists consist of them. -/
theorem sortBy_congr_of_forall (hP : Std.TransCmp fun a b : { a // P a } => order a.1 b.1)
    {xs ys : List α} (hxs : ∀ a ∈ xs, P a) (hys : ∀ a ∈ ys, P a)
    (hclass : ∀ a, P a → xs.filter (order a · == .eq) = ys.filter (order a · == .eq)) :
    sortBy order xs = sortBy order ys := by
  lift xs to List { a // P a } using hxs
  lift ys to List { a // P a } using hys
  rw [sortBy_map_val, sortBy_map_val, sortBy_congr fun a => ?_]
  have ha := hclass a.1 a.2
  rw [List.filter_map, List.filter_map] at ha
  exact List.map_injective_iff.mpr Subtype.val_injective ha

end Sorting

section Hits

variable {σ : Type} [Score σ]

theorem place_eq_of_tieBreak {s t : Symbol} (h : s.tieBreak t = .eq) :
    s.file.place = t.file.place := by
  unfold Symbol.tieBreak at h
  simp only [Ordering.then_eq_eq] at h
  exact Std.LawfulEqCmp.eq_of_compare h.2.2.2.1

theorem place_eq_of_offered {h h' : Hit σ} (heq : h.offered h' = .eq) :
    h.symbol.file.place = h'.symbol.file.place := by
  unfold Hit.offered at heq
  rw [Ordering.then_eq_eq] at heq
  exact place_eq_of_tieBreak heq.2

variable [NumericScore σ]

/-- Whether the score of a hit is a number. -/
def Hit.IsNumber (h : Hit σ) : Prop := NumericScore.IsNumber h.score

instance : Std.TransCmp fun a b : { h : Hit σ // h.IsNumber } => a.1.offered b.1 := by
  have hscore : Std.TransCmp fun a b : { h : Hit σ // h.IsNumber } => Hit.byScore a.1 b.1 :=
    { eq_swap := fun {a b} =>
        NumericScore.transCmp.eq_swap (a := ⟨b.1.score, b.2⟩) (b := ⟨a.1.score, a.2⟩)
      isLE_trans := fun {a b c} hab hbc =>
        NumericScore.transCmp.isLE_trans (a := ⟨c.1.score, c.2⟩) (b := ⟨b.1.score, b.2⟩)
          (c := ⟨a.1.score, a.2⟩) hbc hab }
  have htie : Std.TransCmp fun a b : { h : Hit σ // h.IsNumber } =>
      a.1.symbol.tieBreak b.1.symbol :=
    transCmp_on Symbol.tieBreak fun h : { h : Hit σ // h.IsNumber } => h.1.symbol
  exact inferInstanceAs (Std.TransCmp (compareLex _ _))

/-- Hits are offered in one order if those of each file come in one order. -/
theorem sortBy_offered_congr {xs ys : List (Hit σ)} (hxs : ∀ h ∈ xs, h.IsNumber)
    (hys : ∀ h ∈ ys, h.IsNumber)
    (hfile : ∀ p, xs.filter (·.symbol.file.place = p) = ys.filter (·.symbol.file.place = p)) :
    sortBy Hit.offered xs = sortBy Hit.offered ys := by
  apply sortBy_congr_of_forall inferInstance hxs hys
  intro h _
  have hclass (zs : List (Hit σ)) : zs.filter (h.offered · == .eq) =
      (zs.filter (·.symbol.file.place = h.symbol.file.place)).filter (h.offered · == .eq) := by
    rw [List.filter_filter]
    refine List.filter_congr fun h' _ => ?_
    cases heq : h.offered h' with
    | eq => simp [place_eq_of_offered heq]
    | lt => simp
    | gt => simp
  rw [hclass xs, hclass ys, hfile]

end Hits

namespace Search

/-! ## The hits of a strategy -/

/-- Lists of symbols in which those of each file come in one order. -/
def AlikeByFile (symbols symbols' : List Symbol) : Prop :=
  ∀ p, symbols.filter (·.file.place = p) = symbols'.filter (·.file.place = p)

section Strategies

variable {σ : Type} [Score σ]

omit [Score σ] in
theorem filter_hits {hit? : Symbol → Option (Hit σ)}
    (hsymbol : ∀ s h, hit? s = some h → h.symbol = s) (symbols : List Symbol) (p : Place) :
    (symbols.filterMap hit?).filter (·.symbol.file.place = p) =
      (symbols.filter (·.file.place = p)).filterMap hit? := by
  rw [List.filter_filterMap, List.filterMap_filter]
  congr 1
  funext s
  cases hhit : hit? s with
  | none => simp
  | some h =>
      obtain rfl := hsymbol s h hhit
      simp [Option.filter]

variable [NumericScore σ] {symbols symbols' : List Symbol}

/-- A strategy that gives numbers offers its hits in one order. -/
theorem sortBy_hits_congr {hit? : Symbol → Option (Hit σ)}
    (hhit : ∀ s h, hit? s = some h → h.symbol = s ∧ h.IsNumber)
    (halike : AlikeByFile symbols symbols') :
    sortBy Hit.offered (symbols.filterMap hit?) = sortBy Hit.offered (symbols'.filterMap hit?) := by
  have hnumber (symbols : List Symbol) : ∀ h ∈ symbols.filterMap hit?, h.IsNumber := by
    intro h hh
    obtain ⟨s, -, hs⟩ := List.mem_filterMap.mp hh
    exact (hhit s h hs).2
  apply sortBy_offered_congr (hnumber symbols) (hnumber symbols')
  intro p
  rw [filter_hits fun s h hs => (hhit s h hs).1, filter_hits fun s h hs => (hhit s h hs).1,
    halike p]

theorem isNumber_atMostOne {v w : σ} (h : Score.less v w = true) :
    NumericScore.IsNumber (Score.atMostOne w) := by
  unfold Score.atMostOne
  split_ifs
  · exact NumericScore.isNumber_tenths 10 le_rfl
  · exact NumericScore.isNumber_of_less v w h

theorem isNumber_fuzzyScore {s : Symbol} {query : String} {caseSensitive : Bool} {v : σ}
    (h : fuzzyScore? s query caseSensitive = some v) : NumericScore.IsNumber v := by
  unfold fuzzyScore? at h
  rw [Option.ite_none_right_eq_some] at h
  obtain ⟨hless, hscore⟩ := h
  rw [← Option.some.inj hscore]
  exact isNumber_atMostOne hless

theorem offered_fuzzyHits (halike : AlikeByFile symbols symbols') (query : String)
    (o : SearchOptions σ) :
    sortBy Hit.offered (fuzzyHits symbols query o) =
      sortBy Hit.offered (fuzzyHits symbols' query o) := by
  apply sortBy_hits_congr _ halike
  intro s h hs
  obtain ⟨v, hv, rfl⟩ := Option.map_eq_some_iff.mp hs
  exact ⟨rfl, isNumber_fuzzyScore hv⟩

theorem offered_patternHits (halike : AlikeByFile symbols symbols') (query : String)
    (o : SearchOptions σ) :
    sortBy Hit.offered (patternHits symbols query o) =
      sortBy Hit.offered (patternHits symbols' query o) := by
  unfold patternHits
  cases Pattern.parse (!o.caseSensitive) query with
  | error flaw => rfl
  | ok p =>
      dsimp only
      rw [← List.filterMap_eq_map, List.filterMap_filter, List.filterMap_filter]
      apply sortBy_hits_congr _ halike
      intro s h hs
      split_ifs at hs
      obtain rfl := Option.some.inj hs
      exact ⟨rfl, NumericScore.isNumber_tenths 5 (by decide)⟩

/-- A search finds the same in lists in which the symbols of each file come in one order. -/
theorem runOver_congr (halike : AlikeByFile symbols symbols') (x : Snapshot) (query : String)
    (o : SearchOptions σ) : runOver x symbols query o = runOver x symbols' query o := by
  have hgather : gather x symbols query o = gather x symbols' query o := by
    unfold gather Candidates.offerSorted
    rw [offered_fuzzyHits halike, offered_patternHits halike]
  unfold runOver
  rw [hgather]

end Strategies

/-! ## Enumerations of the files -/

theorem filter_under {x : Snapshot} {l : List Symbol} (hx : x.Represents l) (f p : Place) :
    (Groups.under x.byFile f).filter (·.file.place = p) =
      if f = p then Groups.under x.byFile f else [] := by
  split_ifs with hf
  · rw [List.filter_eq_self]
    intro s hs
    exact decide_eq_true (((Groups.mem_under_of_hold hx.byFile).mp hs).2.trans hf)
  · rw [List.filter_eq_nil_iff]
    intro s hs hp
    exact hf (((Groups.mem_under_of_hold hx.byFile).mp hs).2.symm.trans (of_decide_eq_true hp))

/-- The symbols of each file come in one order, whatever the order of the files. -/
theorem alikeByFile_symbolsOf {x : Snapshot} {l : List Symbol} (hx : x.Represents l)
    {files files' : List Place} (hperm : files.Perm files') :
    AlikeByFile (x.symbolsOf files) (x.symbolsOf files') := by
  intro p
  unfold Snapshot.symbolsOf
  induction hperm with
  | nil => rfl
  | cons f _ ih =>
      rw [List.flatMap_cons, List.flatMap_cons, List.filter_append, ih, List.filter_append]
  | swap f f' rest =>
      simp only [List.flatMap_cons, List.filter_append, filter_under hx]
      split_ifs with hf' hf
      · rw [hf, hf']
      · rfl
      · rfl
      · rfl
  | trans _ _ ih ih' => exact ih.trans ih'

/-- The order of the files does not show in a search. After any changes of the index, and in
whatever two orders its files are looked through, a search answers with the same symbols, scores and
strategies in the same positions. -/
theorem runOver_of_enumerations {σ : Type} [Score σ] [NumericScore σ] (changes : List IndexChange)
    {files files' : List Place} (hfiles : files.Perm (Snapshot.after changes).byFile.keys)
    (hfiles' : files'.Perm (Snapshot.after changes).byFile.keys) (query : String)
    (o : SearchOptions σ) :
    let x := Snapshot.after changes
    runOver x (x.symbolsOf files) query o = runOver x (x.symbolsOf files') query o := by
  intro x
  have hx := (Snapshot.represents_empty 0).foldl_change changes
  exact runOver_congr (alikeByFile_symbolsOf hx (hfiles.trans hfiles'.symm)) x query o

/-- Two symbols of one file that differ in their kinds only, and one of another file, looked through
from either file on. -/
theorem runOver_of_enumerations_of_two :
    let map : Symbol := { name := "Map", kind := .classType, file := ⟨"a.sym"⟩, project := "P" }
    let mapper : Symbol := { map with kind := .interface }
    let other : Symbol := { map with file := ⟨"b.sym"⟩ }
    let x := Snapshot.after [.replace [⟨"a.sym"⟩, ⟨"b.sym"⟩] [map, mapper, other]]
    let o : SearchOptions Float32 := .standard
    let files : List Place := [[.name "a.sym"], [.name "b.sym"]]
    (fuzzyHits (x.symbolsOf files) "ap" o).map Hit.symbol = [map, mapper, other] ∧
    (fuzzyHits (x.symbolsOf files.reverse) "ap" o).map Hit.symbol = [other, map, mapper] ∧
    runOver x (x.symbolsOf files) "ap" o = runOver x (x.symbolsOf files.reverse) "ap" o := by
  intro map mapper other x o files
  refine ⟨by decide +kernel, by decide +kernel, ?_⟩
  exact runOver_of_enumerations [.replace [⟨"a.sym"⟩, ⟨"b.sym"⟩] [map, mapper, other]]
    (by decide +kernel) (by decide +kernel) "ap" o

end Search

end SymbolAtlas
