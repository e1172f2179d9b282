import SymbolAtlas.Proofs.Index.Refinement

/-!
# Owners of qualified names

Of the symbols that carry a qualified name the one that came last owns it. When the owner goes, the
name falls back to the last symbol left that carries it under the name of one that went, letter case
apart. So the owner is the last of all that carry the qualified name as long as those that go share
the name of the last that stays.
-/

namespace SymbolAtlas

/-- The symbols of a list that carry a qualified name. -/
def carrying (q : String) (l : List Symbol) : List Symbol :=
  l.filter (·.qualifiedName == some q)

/-- The symbols of a list that have the name of a symbol, letter case apart. -/
def namesakes (s : Symbol) (l : List Symbol) : List Symbol :=
  l.filter fun t => Snapshot.nameKey t = Snapshot.nameKey s

section Lists

variable {q : String} {l : List Symbol} {s t : Symbol} {p : Symbol → Bool}

theorem mem_carrying : s ∈ carrying q l ↔ s ∈ l ∧ s.qualifiedName = some q := by
  rw [carrying, List.mem_filter, beq_iff_eq]

theorem carrying_append (q : String) (l l' : List Symbol) :
    carrying q (l ++ l') = carrying q l ++ carrying q l' :=
  List.filter_append ..

theorem carrying_filter (q : String) (l : List Symbol) (p : Symbol → Bool) :
    carrying q (l.filter p) = (carrying q l).filter p :=
  List.filter_comm ..

theorem namesakes_filter (s : Symbol) (l : List Symbol) (p : Symbol → Bool) :
    namesakes s (l.filter p) = (namesakes s l).filter p :=
  List.filter_comm ..

theorem namesakes_congr (h : Snapshot.nameKey s = Snapshot.nameKey t) (l : List Symbol) :
    namesakes s l = namesakes t l := by
  unfold namesakes
  rw [h]

/-- The last element of a list is the last of those that pass a test, if it passes. -/
theorem getLast?_filter_of_getLast? {α : Type} {l : List α} {a : α} {p : α → Bool}
    (hlast : l.getLast? = some a) (ha : p a = true) : (l.filter p).getLast? = some a := by
  obtain ⟨front, rfl⟩ := List.getLast?_eq_some_iff.mp hlast
  rw [List.filter_append, List.filter_cons_of_pos ha, List.filter_nil, List.getLast?_concat]

end Lists

/-! ## What stays and what comes -/

namespace IndexChange

/-- The symbols that stay in an index under a change. -/
def stays (l : List Symbol) : IndexChange → List Symbol
  | .rebuild _ => []
  | .replace files symbols => staying files symbols l
  | .remove files => staying files [] l
  | .clear => []

/-- The symbols that a change brings into an index. -/
def brings : IndexChange → List Symbol
  | .rebuild c => collapse c.symbols
  | .replace _ symbols => collapse symbols
  | .remove _ => []
  | .clear => []

theorem apply_eq (l : List Symbol) (c : IndexChange) : apply l c = c.stays l ++ c.brings := by
  cases c with
  | rebuild c => rfl
  | replace files symbols => rfl
  | remove files => exact (List.append_nil _).symm
  | clear => rfl

theorem exists_stays_eq_filter (l : List Symbol) (c : IndexChange) :
    ∃ p, c.stays l = l.filter p := by
  cases c with
  | rebuild c => exact ⟨fun _ => false, by simp [stays]⟩
  | replace files symbols => exact ⟨_, rfl⟩
  | remove files => exact ⟨_, rfl⟩
  | clear => exact ⟨fun _ => false, by simp [stays]⟩

theorem after_concat (changes : List IndexChange) (c : IndexChange) :
    after (changes ++ [c]) = apply (after changes) c := by
  unfold after
  rw [List.foldl_append, List.foldl_cons, List.foldl_nil]

end IndexChange

namespace Snapshot

variable {x : Snapshot} {l : List Symbol} {q : String}

/-! ## The owner after symbols came -/

theorem qualified?_insert (x : Snapshot) (s : Symbol) (q : String) :
    (x.insert s).qualified? q = if s.qualifiedName = some q then some s else x.qualified? q := by
  unfold Snapshot.qualified? Snapshot.insert
  cases hs : s.qualifiedName with
  | none => simp
  | some q' => simp [Std.TreeMap.getElem?_insert]

/-- The last symbol that comes with a qualified name owns it. -/
theorem qualified?_foldl_insert (new : List Symbol) (x : Snapshot) (q : String) :
    (new.foldl Snapshot.insert x).qualified? q =
      ((carrying q new).getLast?).or (x.qualified? q) := by
  induction new using List.reverseRecOn with
  | nil => rfl
  | append_singleton new s ih =>
      rw [List.foldl_append, List.foldl_cons, List.foldl_nil, qualified?_insert, ih,
        carrying_append, List.getLast?_append]
      by_cases hs : s.qualifiedName = some q
      · simp [carrying, hs]
      · simp [carrying, hs]

/-! ## The owner after symbols went -/

/-- The last symbol left under the name of another one that carries a qualified name. -/
def heir? (x : Snapshot) (q : String) (gone : Symbol) : Option Symbol :=
  (Groups.under x.byName (nameKey gone)).reverse.find? (·.qualifiedName == some q)

variable (doomed : Symbol → Bool)

theorem heir?_disown (x : Snapshot) (s : Symbol) (q : String) :
    (x.disown doomed s).heir? q = x.heir? q := by
  obtain ⟨owners, howners⟩ := disown_eq doomed x s
  rw [howners]
  rfl

theorem qualified?_disown (x : Snapshot) (s : Symbol) (q : String) :
    (x.disown doomed s).qualified? q =
      if s.qualifiedName = some q then
        (x.qualified? q).bind fun owner => if doomed owner then x.heir? q s else some owner
      else x.qualified? q := by
  unfold Snapshot.disown Snapshot.qualified?
  cases hs : s.qualifiedName with
  | none => simp
  | some q' =>
      dsimp only
      cases howner : x.byQualifiedName[q']? with
      | none =>
          by_cases hq : q' = q
          · subst hq
            simp [howner]
          · simp [hq]
      | some owner =>
          dsimp only
          by_cases hdoomed : doomed owner = true
          · rw [if_neg (by simp [hdoomed])]
            by_cases hq : q' = q
            · subst hq
              rw [if_pos rfl, howner, Option.bind_some, if_pos hdoomed]
              unfold heir? nameKey
              split
              · next heir hheir => rw [hheir, Std.TreeMap.getElem?_insert_self]
              · next hheir => rw [hheir, Std.TreeMap.getElem?_erase_self]
            · rw [if_neg (by simpa using hq)]
              split
              · simp [Std.TreeMap.getElem?_insert, hq]
              · simp [Std.TreeMap.getElem?_erase, hq]
          · rw [if_pos (by simpa using hdoomed)]
            by_cases hq : q' = q
            · subst hq
              simp [howner, hdoomed]
            · simp [hq]

/-- When symbols are gone through, a doomed owner gives way to the heir of the first of them that
carries the qualified name. -/
theorem qualified?_foldl_disown {old : List Symbol} (x : Snapshot) (q : String)
    (hleft : ∀ k, ∀ t ∈ Groups.under x.byName k, doomed t = false) :
    (old.foldl (disown doomed) x).qualified? q =
      (x.qualified? q).bind fun owner =>
        if doomed owner then
          ((carrying q old).head?).elim (some owner) (x.heir? q)
        else some owner := by
  induction old generalizing x with
  | nil =>
      rw [List.foldl_nil]
      cases x.qualified? q <;> simp [carrying]
  | cons s rest ih =>
      have hnames : (x.disown doomed s).byName = x.byName := by
        obtain ⟨owners, howners⟩ := disown_eq doomed x s
        rw [howners]
      rw [List.foldl_cons, ih, heir?_disown, qualified?_disown]
      · by_cases hs : s.qualifiedName = some q
        · have hfirst : (carrying q (s :: rest)).head? = some s := by simp [carrying, hs]
          rw [if_pos hs, hfirst]
          cases x.qualified? q with
          | none => rfl
          | some owner =>
              rw [Option.bind_some, Option.bind_some]
              by_cases hdoomed : doomed owner = true
              · rw [if_pos hdoomed, if_pos hdoomed, Option.elim_some]
                cases hheir : x.heir? q s with
                | none => rfl
                | some heir =>
                    -- An heir stays, so nothing that is gone through later takes the name from it.
                    have hmem := List.mem_reverse.mp (List.mem_of_find?_eq_some hheir)
                    rw [Option.bind_some, if_neg (by simp [hleft _ heir hmem])]
              · rw [if_neg hdoomed, if_neg hdoomed, Option.bind_some, if_neg hdoomed]
        · have hsame : carrying q (s :: rest) = carrying q rest := by simp [carrying, hs]
          rw [if_neg hs, hsame]
      · intro k t ht
        rw [hnames] at ht
        exact hleft k t ht

/-- Whether a symbol goes when some symbols are removed. -/
def goes (old : List Symbol) (s : Symbol) : Bool := decide (s.identity ∈ old.map Symbol.identity)

theorem removeAll_eq (x : Snapshot) (old : List Symbol) :
    x.removeAll old = old.foldl (disown (goes old)) (old.foldl (detach (goes old)) x) := by
  unfold Snapshot.removeAll goes
  simp only [contains_identities]

theorem mem_without {old : List Symbol} {s : Symbol} :
    s ∈ without old l ↔ s ∈ l ∧ goes old s = false := by
  unfold without goes
  rw [List.mem_filter, decide_eq_true_eq, decide_eq_false_iff_not]

theorem Represents.goes_iff (h : x.Represents l) {old : List Symbol} (hold : ∀ s ∈ old, s ∈ l)
    {s : Symbol} (hs : s ∈ l) : goes old s = true ↔ s ∈ old := by
  unfold goes
  rw [decide_eq_true_eq]
  constructor
  · intro hid
    obtain ⟨t, ht, hts⟩ := List.mem_map.mp hid
    rwa [← List.inj_on_of_nodup_map h.nodup (hold t ht) hs hts]
  · exact List.mem_map_of_mem

theorem Represents.qualified?_removeAll (h : x.Represents l) {old : List Symbol}
    (hold : ∀ s ∈ old, s ∈ l) (q : String) :
    (x.removeAll old).qualified? q =
      (x.qualified? q).bind fun owner =>
        if goes old owner then
          ((carrying q old).head?).elim (some owner) fun gone =>
            (namesakes gone (carrying q (without old l))).getLast?
        else some owner := by
  set y := old.foldl (detach (goes old)) x with hy
  have hremove : x.removeAll old = old.foldl (disown (goes old)) y := removeAll_eq x old
  have hnames : y.byName.Hold nameKey (without old l) := by
    obtain ⟨owners, howners⟩ := foldl_disown_eq (goes old) old y
    have hbyName := (h.removeAll hold).byName
    rwa [hremove, howners] at hbyName
  have howner : y.qualified? q = x.qualified? q := by
    unfold Snapshot.qualified?
    rw [hy, foldl_detach_byQualifiedName]
  have hheir : y.heir? q =
      fun gone => (namesakes gone (carrying q (without old l))).getLast? := by
    funext gone
    unfold heir? namesakes carrying
    rw [Groups.under_of_hold hnames, ← List.getLast?_filter, List.filter_comm]
  rw [hremove, qualified?_foldl_disown, howner, hheir]
  intro k t ht
  exact (mem_without.mp ((Groups.mem_under_of_hold hnames).mp ht).1).2

/-- What becomes of the owner of a qualified name when only some symbols stay. -/
structure Succession (q : String) (l stays : List Symbol) (before after : Option Symbol) :
    Prop where
  free : before = none → after = none
  kept : ∀ s, before = some s → s ∈ stays → after = some s
  /-- Where the owner goes, its heir is the last symbol left of the name of one that went. -/
  fallback : ∀ s, before = some s → s ∉ stays → ∃ gone ∈ carrying q l, gone ∉ stays ∧
    after = (namesakes gone (carrying q stays)).getLast?

/-- Where no symbol stays no one succeeds. -/
theorem Represents.succession_nil (h : x.Represents l) (q : String) :
    Succession q l [] (x.qualified? q) none where
  free _ := rfl
  kept _ _ hs := absurd hs List.not_mem_nil
  fallback s hs hgone := ⟨s, mem_carrying.mpr (h.owner q s hs), hgone, rfl⟩

theorem Represents.succession_removeAll (h : x.Represents l) {old : List Symbol}
    (hold : ∀ s ∈ old, s ∈ l) (q : String) :
    Succession q l (without old l) (x.qualified? q) ((x.removeAll old).qualified? q) := by
  rw [h.qualified?_removeAll hold]
  refine ⟨fun hnone => ?_, fun s hs hkept => ?_, fun s hs hgoes => ?_⟩
  · rw [hnone, Option.bind_none]
  · rw [hs, Option.bind_some, (mem_without.mp hkept).2, if_neg Bool.false_ne_true]
  · obtain ⟨hmem, hq⟩ := h.owner q s hs
    have hdoomed : goes old s = true := by
      by_contra hstays
      exact hgoes (mem_without.mpr ⟨hmem, Bool.eq_false_iff.mpr hstays⟩)
    have hcarries : s ∈ carrying q old := mem_carrying.mpr ⟨(h.goes_iff hold hmem).mp hdoomed, hq⟩
    obtain ⟨gone, rest, hold_eq⟩ := List.exists_cons_of_ne_nil (List.ne_nil_of_mem hcarries)
    have hgone : gone ∈ carrying q old := by
      rw [hold_eq]
      exact List.mem_cons_self
    obtain ⟨hin, hgoneq⟩ := mem_carrying.mp hgone
    refine ⟨gone, mem_carrying.mpr ⟨hold gone hin, hgoneq⟩, fun hstays => ?_, ?_⟩
    · have hkept := (mem_without.mp hstays).2
      rw [(h.goes_iff hold (hold gone hin)).mpr hin] at hkept
      cases hkept
    · rw [hs, Option.bind_some, if_pos hdoomed, hold_eq, List.head?_cons, Option.elim_some]

/-- The last symbol that a change brings with a qualified name owns it; if there is none, the owner
is succeeded among those that stay. -/
theorem Represents.succession_change (h : x.Represents l) (c : IndexChange) (q : String) :
    ∃ left, Succession q l (c.stays l) (x.qualified? q) left ∧
      (x.change c).qualified? q = ((carrying q c.brings).getLast?).or left := by
  have hreplace : ∀ files symbols, ∃ left,
      Succession q l (IndexChange.staying files symbols l) (x.qualified? q) left ∧
      (x.replaceFiles files symbols).1.qualified? q =
        ((carrying q (collapse symbols)).getLast?).or left := by
    intro files symbols
    set old := x.displaced files (collapse symbols) with hold
    refine ⟨(x.removeAll old).qualified? q, ?_, ?_⟩
    · rw [← h.without_displaced, ← hold]
      exact h.succession_removeAll (fun t ht => (h.mem_displaced.mp ht).1) q
    · unfold Snapshot.replaceFiles
      rw [distinct_eq_collapse]
      exact qualified?_foldl_insert (collapse symbols) (x.removeAll old) q
  cases c with
  | rebuild c =>
      refine ⟨none, h.succession_nil q, ?_⟩
      change (ofSymbols (x.generation + 1) c.symbols).qualified? q = _
      unfold ofSymbols
      rw [distinct_eq_collapse, qualified?_foldl_insert]
      rfl
  | replace files symbols => exact hreplace files symbols
  | remove files => exact hreplace files []
  | clear => exact ⟨none, h.succession_nil q, rfl⟩

/-! ## The owner is the last -/

/-- Whether a change that takes away the last symbol with a qualified name, and brings none, leaves
a symbol of the name of those that go as the last one. -/
def KeepsName (q : String) (l : List Symbol) (c : IndexChange) : Prop :=
  carrying q c.brings = [] → ∀ owner, (carrying q l).getLast? = some owner → owner ∉ c.stays l →
    ∀ heir, (carrying q (c.stays l)).getLast? = some heir →
      ∀ gone ∈ carrying q l, gone ∉ c.stays l → nameKey gone = nameKey heir

/-- The owner of a qualified name is the last of its namesakes that carry it. -/
def Seated (q : String) (l : List Symbol) (owner : Option Symbol) : Prop :=
  ∀ s, owner = some s → (namesakes s (carrying q l)).getLast? = some s

theorem Seated.change {before left : Option Symbol} (h : Seated q l before) (c : IndexChange)
    (hleft : Succession q l (c.stays l) before left) :
    Seated q (IndexChange.apply l c) (((carrying q c.brings).getLast?).or left) := by
  intro s hs
  rw [IndexChange.apply_eq, carrying_append]
  cases hbrings : (carrying q c.brings).getLast? with
  | some t =>
      rw [hbrings, Option.some_or] at hs
      cases hs
      refine getLast?_filter_of_getLast? ?_ (decide_eq_true rfl)
      rw [List.getLast?_append, hbrings, Option.some_or]
  | none =>
      rw [hbrings, Option.none_or] at hs
      rw [List.getLast?_eq_none_iff.mp hbrings, List.append_nil]
      cases hbefore : before with
      | none =>
          rw [hleft.free hbefore] at hs
          cases hs
      | some owner =>
          by_cases hstays : owner ∈ c.stays l
          · rw [hleft.kept owner hbefore hstays] at hs
            cases hs
            obtain ⟨p, hp⟩ := IndexChange.exists_stays_eq_filter l c
            rw [hp] at hstays
            rw [hp, carrying_filter, namesakes_filter]
            exact getLast?_filter_of_getLast? (h s hbefore) (List.mem_filter.mp hstays).2
          · obtain ⟨gone, -, -, hheir⟩ := hleft.fallback owner hbefore hstays
            rw [hheir] at hs
            have hname : nameKey s = nameKey gone :=
              of_decide_eq_true (List.mem_filter.mp (List.mem_of_getLast? hs)).2
            rwa [namesakes_congr hname]

/-- An owner that was the last is succeeded by the last. -/
theorem Succession.getLast? {before left : Option Symbol} {c : IndexChange}
    (hleft : Succession q l (c.stays l) before left) (hlast : before = (carrying q l).getLast?)
    (hbrings : carrying q c.brings = []) (hname : KeepsName q l c) :
    left = (carrying q (c.stays l)).getLast? := by
  obtain ⟨p, hp⟩ := IndexChange.exists_stays_eq_filter l c
  cases hbefore : before with
  | none =>
      rw [hbefore, eq_comm, List.getLast?_eq_none_iff] at hlast
      rw [hleft.free hbefore, hp, carrying_filter, hlast]
      rfl
  | some owner =>
      rw [hbefore] at hlast
      by_cases hstays : owner ∈ c.stays l
      · rw [hleft.kept owner hbefore hstays]
        rw [hp] at hstays
        rw [hp, carrying_filter]
        exact (getLast?_filter_of_getLast? hlast.symm (List.mem_filter.mp hstays).2).symm
      · obtain ⟨gone, hgone, hout, hheir⟩ := hleft.fallback owner hbefore hstays
        rw [hheir]
        cases hnext : (carrying q (c.stays l)).getLast? with
        | none =>
            rw [List.getLast?_eq_none_iff.mp hnext]
            rfl
        | some heir =>
            have hsame := hname hbrings owner hlast.symm hstays heir hnext gone hgone hout
            exact getLast?_filter_of_getLast? hnext (decide_eq_true hsame.symm)

theorem after_concat (changes : List IndexChange) (c : IndexChange) :
    after (changes ++ [c]) = (after changes).change c := by
  unfold after
  rw [List.foldl_append, List.foldl_cons, List.foldl_nil]

theorem seated_after (changes : List IndexChange) (q : String) :
    Seated q (IndexChange.after changes) ((after changes).qualified? q) := by
  induction changes using List.reverseRecOn with
  | nil =>
      intro s hs
      cases hs
  | append_singleton changes c ih =>
      have h : (after changes).Represents (IndexChange.after changes) :=
        (represents_empty 0).foldl_change changes
      obtain ⟨left, hleft, hafter⟩ := h.succession_change c q
      rw [after_concat, IndexChange.after_concat, hafter]
      exact ih.change c hleft

/-- Whether every change on the way keeps the name of a qualified name. -/
def KeepsNames (q : String) (changes : List IndexChange) : Prop :=
  ∀ earlier c, earlier ++ [c] <+: changes → KeepsName q (IndexChange.after earlier) c

theorem keepsNames_nil (q : String) : KeepsNames q [] := by
  intro earlier c hpre
  simpa using List.prefix_nil.mp hpre

theorem keepsNames_concat {changes : List IndexChange} {c : IndexChange} :
    KeepsNames q (changes ++ [c]) ↔
      KeepsNames q changes ∧ KeepsName q (IndexChange.after changes) c := by
  constructor
  · intro h
    refine ⟨fun earlier c' hpre => ?_, h changes c (List.prefix_refl _)⟩
    exact h earlier c' (hpre.trans (List.prefix_append changes [c]))
  · rintro ⟨hfront, hlast⟩ earlier c' hpre
    rcases List.prefix_concat_iff.mp hpre with heq | hpre
    · obtain ⟨rfl, hc⟩ := List.append_inj' heq rfl
      cases hc
      exact hlast
    · exact hfront earlier c' hpre

theorem getLast?_after {changes : List IndexChange} (hnames : KeepsNames q changes) :
    (after changes).qualified? q = (carrying q (IndexChange.after changes)).getLast? := by
  induction changes using List.reverseRecOn with
  | nil => rfl
  | append_singleton changes c ih =>
      have h : (after changes).Represents (IndexChange.after changes) :=
        (represents_empty 0).foldl_change changes
      obtain ⟨hfront, hname⟩ := keepsNames_concat.mp hnames
      obtain ⟨left, hleft, hafter⟩ := h.succession_change c q
      rw [after_concat, IndexChange.after_concat, hafter, IndexChange.apply_eq, carrying_append,
        List.getLast?_append]
      cases hbrings : (carrying q c.brings).getLast? with
      | some s => rw [Option.some_or, Option.some_or]
      | none =>
          rw [Option.none_or, Option.none_or]
          exact hleft.getLast? (ih hfront) (List.getLast?_eq_none_iff.mp hbrings) hname

/-- After any changes, what is found under a qualified name is a symbol of the index that carries
it, the last one of its name, letter case apart. It is the last of all symbols that carry the
qualified name, and nothing only where there is none, as long as symbols that carry it and go with
its owner have the name of the last one that stays. -/
theorem owner_after (changes : List IndexChange) (q : String) :
    let found := (after changes).qualified? q
    let carriers := carrying q (IndexChange.after changes)
    (∀ s, found = some s → s ∈ carriers ∧ (namesakes s carriers).getLast? = some s) ∧
    (KeepsNames q changes →
      (found.isSome ↔ ∃ s ∈ IndexChange.after changes, s.qualifiedName = some q) ∧
      found = carriers.getLast?) := by
  intro found carriers
  refine ⟨fun s hs => ?_, fun hnames => ?_⟩
  · have hseated := seated_after changes q s hs
    exact ⟨(List.mem_filter.mp (List.mem_of_getLast? hseated)).1, hseated⟩
  · have hlast : found = carriers.getLast? := getLast?_after hnames
    refine ⟨?_, hlast⟩
    rw [hlast, List.getLast?_isSome]
    constructor
    · intro hne
      obtain ⟨s, hs⟩ := List.exists_mem_of_ne_nil _ hne
      exact ⟨s, mem_carrying.mp hs⟩
    · rintro ⟨s, hs⟩
      exact List.ne_nil_of_mem (mem_carrying.mpr hs)

/-- The owner goes, and a symbol of its name comes after one of another name. -/
theorem owner_after_of_namesake :
    let other : Symbol :=
      { name := "Tree", qualifiedName := some "P.Map", kind := .classType, file := ⟨"a.sym"⟩,
        project := "P" }
    let heir : Symbol := { other with name := "Map", file := ⟨"b.sym"⟩ }
    let owner : Symbol := { other with name := "MAP", file := ⟨"c.sym"⟩ }
    let filled : IndexChange :=
      .replace [⟨"a.sym"⟩, ⟨"b.sym"⟩, ⟨"c.sym"⟩] [other, heir, owner]
    let gone : IndexChange := .remove [⟨"c.sym"⟩]
    KeepsNames "P.Map" [filled, gone] ∧ (after [filled, gone]).qualified? "P.Map" = some heir := by
  intro other heir owner filled gone
  have hlast : (carrying "P.Map" (gone.stays (IndexChange.after [filled]))).getLast? =
      some heir := by decide +kernel
  have hname : ∀ s ∈ carrying "P.Map" (IndexChange.after [filled]),
      s ∉ gone.stays (IndexChange.after [filled]) → nameKey s = nameKey heir := by decide +kernel
  have hnames : KeepsNames "P.Map" [filled, gone] := by
    refine keepsNames_concat.mpr ⟨keepsNames_concat.mpr ⟨keepsNames_nil _, ?_⟩, ?_⟩
    · intro _ first hfirst
      cases hfirst
    · intro _ last _ _ next hnext
      rw [← Option.some.inj (hlast.symm.trans hnext)]
      exact hname
  refine ⟨hnames, ?_⟩
  rw [((owner_after [filled, gone] "P.Map").2 hnames).2]
  decide +kernel

/-- The owner goes, and the symbol that is left has another name. -/
theorem no_owner_after :
    let left : Symbol :=
      { name := "Map", qualifiedName := some "P.Map", kind := .classType, file := ⟨"a.sym"⟩,
        project := "P" }
    let owner : Symbol := { left with name := "map2", file := ⟨"b.sym"⟩ }
    let changes : List IndexChange :=
      [.rebuild { projects := .ofList [("P", [left, owner])] }, .remove [⟨"b.sym"⟩]]
    IndexChange.after changes = [left] ∧ left.qualifiedName = some "P.Map" ∧
      (after changes).qualified? "P.Map" = none := by
  decide +kernel

end Snapshot

end SymbolAtlas
