import SymbolAtlas.Proofs.Index.Narrowing
import SymbolAtlas.Proofs.Index.Owners
import SymbolAtlas.Proofs.Index.Report
import SymbolAtlas.Proofs.Trie.Nodes

/-!
# Replacing again and in another order

A replacement that is made again changes nothing but the generation. Replacements of different files
by symbols of these files can be made one after the other in either order, or both at once: the
index has the same symbols in the end, in the same order in every file, and what is reported adds up
to the same.
-/

namespace SymbolAtlas

instance : Add Delta :=
  ⟨fun d d' => ⟨d.added + d'.added, d.removed + d'.removed, d.updated + d'.updated⟩⟩

theorem Delta.add_eq (d d' : Delta) :
    d + d' = ⟨d.added + d'.added, d.removed + d'.removed, d.updated + d'.updated⟩ := rfl

theorem Delta.add_comm (d d' : Delta) : d + d' = d' + d := by
  rw [add_eq, add_eq, Nat.add_comm, Nat.add_comm d.removed, Nat.add_comm d.updated]

namespace Groups

variable {κ : Type} [Ord κ] [DecidableEq κ] [Std.TransOrd κ] [Std.LawfulEqOrd κ]
  {g g' : Groups κ} {key : Symbol → κ} {l l' : List Symbol}

theorem equiv_of_hold (h : g.Hold key l) (h' : g'.Hold key l) : g.Equiv g' :=
  Std.TreeMap.Equiv.of_forall_constGet?_eq fun k => (h k).trans (h' k).symm

/-- How many keys there are does not depend on the order of the symbols. -/
theorem size_eq_of_hold (h : g.Hold key l) (h' : g'.Hold key l') (hperm : l.Perm l') :
    g.size = g'.size := by
  have hkeys : g.keys.Perm g'.keys := by
    refine (List.perm_ext_iff_of_nodup (nodup_keys g) (nodup_keys g')).mpr fun k => ?_
    rw [Std.TreeMap.mem_keys, Std.TreeMap.mem_keys, ← Std.TreeMap.contains_iff_mem,
      ← Std.TreeMap.contains_iff_mem, contains_eq_of_hold h, contains_eq_of_hold h',
      hperm.any_eq]
  rw [← Std.TreeMap.length_keys, ← Std.TreeMap.length_keys, hkeys.length_eq]

end Groups

namespace Snapshot

variable {x y : Snapshot} {l l' : List Symbol} {files files' : List Path}
  {symbols symbols' : List Symbol}

/-! ## Comparing indexes -/

/-- Whether two indexes answer every lookup alike. They may differ in their generations. -/
structure SameLookups (x y : Snapshot) : Prop where
  named : ∀ name, x.named name = y.named name
  qualified : ∀ q, x.qualified? q = y.qualified? q
  ofKind : ∀ k, x.ofKind k = y.ofKind k
  inProject : ∀ project, x.inProject project = y.inProject project
  inFile : ∀ f, x.inFile f = y.inFile f
  startingWith : ∀ start, x.startingWith start = y.startingWith start
  symbols : x.symbols = y.symbols
  files : x.files = y.files
  isEmpty : x.isEmpty = y.isEmpty
  query : ∀ q, x.query q = y.query q
  stats : { x.stats with generation := y.generation } = y.stats

/-- Whether two indexes have the same symbols, in every file in the same order and otherwise in any
order. They may differ in the owners of qualified names and in their generations. -/
structure SameUpToOrder (x y : Snapshot) : Prop where
  inFile : ∀ f, x.inFile f = y.inFile f
  named : ∀ name, (x.named name).Perm (y.named name)
  ofKind : ∀ k, (x.ofKind k).Perm (y.ofKind k)
  inProject : ∀ project, (x.inProject project).Perm (y.inProject project)
  startingWith : ∀ start, (x.startingWith start).Perm (y.startingWith start)
  stats : { x.stats with generation := y.generation } = y.stats

theorem Represents.stats_eq (hx : x.Represents l) (hy : y.Represents l') (hperm : l.Perm l') :
    { x.stats with generation := y.generation } = y.stats := by
  have hsize : x.size = y.size := by rw [hx.size_eq, hy.size_eq, hperm.length_eq]
  have hnodes : x.trie.nodeCount = y.trie.nodeCount := by
    rw [hx.trie, hy.trie, Trie.nodeCount_ofList_perm word hperm]
  unfold stats
  dsimp only
  rw [hsize, hnodes, Groups.size_eq_of_hold hx.byFile hy.byFile hperm,
    Groups.size_eq_of_hold hx.byProject hy.byProject hperm,
    Groups.size_eq_of_hold hx.byName hy.byName hperm]

/-- Indexes of one list differ at most in owners and in spellings. -/
theorem Represents.sameLookups (hx : x.Represents l) (hy : y.Represents l)
    (howners : ∀ q, x.qualified? q = y.qualified? q)
    (hspellings : ∀ p : Place, x.spellings[p]? = y.spellings[p]?) : SameLookups x y := by
  have hnamed : ∀ name, x.named name = y.named name := fun name => by
    unfold named
    rw [Groups.under_of_hold hx.byName, Groups.under_of_hold hy.byName]
  have hkind : ∀ k, x.ofKind k = y.ofKind k := fun k => by
    unfold ofKind
    rw [Groups.under_of_hold hx.byKind, Groups.under_of_hold hy.byKind]
  have hproject : ∀ project, x.inProject project = y.inProject project := fun project => by
    unfold inProject
    rw [Groups.under_of_hold hx.byProject, Groups.under_of_hold hy.byProject]
  have hfile : ∀ f, x.inFile f = y.inFile f := fun f => by rw [hx.inFile_eq, hy.inFile_eq]
  have hstart : ∀ start, x.startingWith start = y.startingWith start := fun start => by
    unfold startingWith
    rw [hx.trie, hy.trie]
  have hsymbols : x.symbols = y.symbols := by
    unfold Snapshot.symbols symbolsOf
    rw [(Groups.equiv_of_hold hx.byFile hy.byFile).keys_eq]
    refine List.flatMap_congr fun p _ => ?_
    rw [Groups.under_of_hold hx.byFile, Groups.under_of_hold hy.byFile]
  have hcandidates : ∀ q, x.candidates q = y.candidates q := fun q => by
    unfold candidates
    simp only [hnamed, howners, hkind, hproject, hfile, hstart, hsymbols]
  refine ⟨hnamed, howners, hkind, hproject, hfile, hstart, hsymbols, ?_, ?_,
    fun q => ?_, hx.stats_eq hy (List.Perm.refl l)⟩
  · exact (Std.TreeMap.Equiv.of_forall_constGet?_eq hspellings).values_eq
  · exact (Groups.equiv_of_hold hx.byFile hy.byFile).isEmpty_eq
  · unfold query select
    rw [hcandidates]

theorem Represents.sameUpToOrder (hx : x.Represents l) (hy : y.Represents l') (hperm : l.Perm l')
    (hfile : ∀ p, l.filter (place · = p) = l'.filter (place · = p)) : SameUpToOrder x y where
  inFile f := by rw [hx.inFile_eq, hy.inFile_eq, hfile]
  named name := by
    unfold named
    rw [Groups.under_of_hold hx.byName, Groups.under_of_hold hy.byName]
    exact hperm.filter _
  ofKind k := by
    unfold ofKind
    rw [Groups.under_of_hold hx.byKind, Groups.under_of_hold hy.byKind]
    exact hperm.filter _
  inProject project := by
    unfold inProject
    rw [Groups.under_of_hold hx.byProject, Groups.under_of_hold hy.byProject]
    exact hperm.filter _
  startingWith start := by
    by_cases hstart : start = ""
    · subst hstart
      exact List.Perm.refl _
    · exact (hx.perm_startingWith hstart).trans
        ((hperm.filter _).trans (hy.perm_startingWith hstart).symm)
  stats := hx.stats_eq hy hperm

/-! ## Spellings after a replacement -/

theorem getElem?_spellings_insert (x : Snapshot) (s : Symbol) (p : Place) :
    (x.insert s).spellings[p]? =
      (x.spellings[p]?).or (if place s = p then some s.file else none) := by
  change (x.spellings.insertIfNew (place s) s.file)[p]? = _
  rw [Std.TreeMap.getElem?_insertIfNew]
  simp only [Std.LawfulEqCmp.compare_eq_iff_eq]
  by_cases hp : place s = p
  · subst hp
    cases hold : x.spellings[place s]? with
    | none =>
        have hnew : place s ∉ x.spellings := by
          rw [Std.TreeMap.mem_iff_isSome_getElem?, hold]
          simp
        simp [hnew]
    | some spelling =>
        have hin : place s ∈ x.spellings := by
          rw [Std.TreeMap.mem_iff_isSome_getElem?, hold]
          rfl
        simp [hin]
  · simp [hp]

/-- A file is spelled as before, or else as the first symbol that comes into it spells it. -/
theorem getElem?_spellings_foldl_insert (new : List Symbol) (x : Snapshot) (p : Place) :
    (new.foldl Snapshot.insert x).spellings[p]? =
      (x.spellings[p]?).or ((new.find? (place · = p)).map Symbol.file) := by
  induction new generalizing x with
  | nil => simp
  | cons s rest ih =>
      rw [List.foldl_cons, ih, getElem?_spellings_insert, Option.or_assoc, List.find?_cons]
      by_cases hp : place s = p <;> simp [hp]

theorem getElem?_spellings_foldl_detach (doomed : Symbol → Bool) (old : List Symbol)
    (x : Snapshot) (p : Place) :
    (old.foldl (detach doomed) x).spellings[p]? = x.spellings[p]? ∨
      (old.foldl (detach doomed) x).spellings[p]? = none := by
  induction old generalizing x with
  | nil => exact .inl rfl
  | cons s rest ih =>
      have hfirst : (x.detach doomed s).spellings[p]? = x.spellings[p]? ∨
          (x.detach doomed s).spellings[p]? = none := by
        unfold detach
        dsimp only
        split_ifs
        · exact .inl rfl
        · rw [Std.TreeMap.getElem?_erase]
          split_ifs
          · exact .inr rfl
          · exact .inl rfl
      rcases ih (x.detach doomed s) with hrest | hrest
      · rw [List.foldl_cons, hrest]
        exact hfirst
      · exact .inr hrest

theorem Represents.getElem?_spellings_removeAll (h : x.Represents l) {old : List Symbol}
    (hold : ∀ s ∈ old, s ∈ l) (p : Place) :
    (x.removeAll old).spellings[p]? =
      if (without old l).any (place · = p) then x.spellings[p]? else none := by
  have hleft := h.removeAll hold
  have hspelled := hleft.spelled p
  rw [Groups.contains_eq_of_hold hleft.byFile] at hspelled
  have hcases : (x.removeAll old).spellings[p]? = x.spellings[p]? ∨
      (x.removeAll old).spellings[p]? = none := by
    obtain ⟨owners, howners⟩ := foldl_disown_eq (goes old) old (old.foldl (detach (goes old)) x)
    rw [removeAll_eq, howners]
    exact getElem?_spellings_foldl_detach _ old x p
  split_ifs with hany
  · rw [if_pos hany] at hspelled
    refine hcases.resolve_right fun hnone => ?_
    rw [hnone] at hspelled
    cases hspelled
  · rwa [if_neg hany, Option.map_eq_none_iff] at hspelled

theorem Represents.getElem?_spellings_replaceFiles (h : x.Represents l) (files : List Path)
    (symbols : List Symbol) (p : Place) :
    (x.replaceFiles files symbols).1.spellings[p]? =
      if (IndexChange.staying files symbols l).any (place · = p) then x.spellings[p]?
      else ((collapse symbols).find? (place · = p)).map Symbol.file := by
  have hold : ∀ s ∈ x.displaced files (collapse symbols), s ∈ l := fun s hs =>
    (h.mem_displaced.mp hs).1
  have hspellings : (x.replaceFiles files symbols).1.spellings =
      ((collapse symbols).foldl Snapshot.insert
        (x.removeAll (x.displaced files (collapse symbols)))).spellings := by
    unfold Snapshot.replaceFiles
    rw [distinct_eq_collapse]
  have hleft := (h.removeAll hold).spelled p
  rw [hspellings, getElem?_spellings_foldl_insert, h.getElem?_spellings_removeAll hold,
    h.without_displaced]
  rw [Groups.contains_eq_of_hold (h.removeAll hold).byFile, h.getElem?_spellings_removeAll hold,
    h.without_displaced] at hleft
  split_ifs with hany
  · rw [if_pos hany, if_pos hany] at hleft
    obtain ⟨spelling, hspelling, -⟩ := Option.map_eq_some_iff.mp hleft
    rw [hspelling, Option.some_or]
  · rw [Option.none_or]

/-! ## The same replacement again -/

theorem staying_append (files : List Path) (symbols l l' : List Symbol) :
    IndexChange.staying files symbols (l ++ l') =
      IndexChange.staying files symbols l ++ IndexChange.staying files symbols l' :=
  List.filter_append ..

theorem staying_again (files : List Path) (symbols l : List Symbol) :
    IndexChange.staying files symbols (IndexChange.staying files symbols l ++ collapse symbols) =
      IndexChange.staying files symbols l := by
  have hgone : IndexChange.staying files symbols (collapse symbols) = [] := by
    rw [IndexChange.staying, List.filter_eq_nil_iff]
    intro s hs hstays
    have hid : s.identity ∈ symbols.map Symbol.identity :=
      mem_map_identity_collapse.mp (List.mem_map_of_mem hs)
    exact (of_decide_eq_true hstays).2 hid
  rw [staying_append, hgone, List.append_nil]
  unfold IndexChange.staying
  rw [List.filter_filter]
  exact List.filter_congr fun s _ => Bool.and_self _

/-- A replacement that is made again leaves every qualified name with its owner. -/
theorem Represents.qualified?_again (h : x.Represents l) (files : List Path)
    (symbols : List Symbol) (q : String) :
    ((x.replaceFiles files symbols).1.replaceFiles files symbols).1.qualified? q =
      (x.replaceFiles files symbols).1.qualified? q := by
  have hy := h.replaceFiles files symbols
  set y := (x.replaceFiles files symbols).1 with hydef
  obtain ⟨left, -, hfirst⟩ := h.succession_change (.replace files symbols) q
  obtain ⟨left', hleft', hsecond⟩ := hy.succession_change (.replace files symbols) q
  change y.qualified? q = ((carrying q (collapse symbols)).getLast?).or left at hfirst
  change (y.replaceFiles files symbols).1.qualified? q =
    ((carrying q (collapse symbols)).getLast?).or left' at hsecond
  cases hbrings : (carrying q (collapse symbols)).getLast? with
  | some s => rw [hfirst, hsecond, hbrings, Option.some_or, Option.some_or]
  | none =>
      rw [hbrings, Option.none_or] at hsecond
      rw [hsecond]
      cases howner : y.qualified? q with
      | none => exact hleft'.free howner
      | some s =>
          -- The owner is not one of the new symbols, so it stays both times.
          refine hleft'.kept s howner ?_
          obtain ⟨hs, hq⟩ := hy.owner q s howner
          change s ∈ IndexChange.staying files symbols _
          rw [staying_again]
          refine (List.mem_append.mp hs).resolve_right fun hnew => ?_
          have hcarries := mem_carrying.mpr ⟨hnew, hq⟩
          rw [List.getLast?_eq_none_iff.mp hbrings] at hcarries
          exact List.not_mem_nil hcarries

/-- A replacement that is made again leaves every lookup as it is. -/
theorem Represents.sameLookups_again (h : x.Represents l) (files : List Path)
    (symbols : List Symbol) :
    SameLookups (x.replaceFiles files symbols).1
      ((x.replaceFiles files symbols).1.replaceFiles files symbols).1 := by
  have hy := h.replaceFiles files symbols
  have hz := hy.replaceFiles files symbols
  rw [staying_again] at hz
  refine hy.sameLookups hz (fun q => (h.qualified?_again files symbols q).symm) fun p => ?_
  rw [hy.getElem?_spellings_replaceFiles, staying_again, h.getElem?_spellings_replaceFiles]
  split_ifs <;> rfl

/-- A replacement that is made again adds and removes nothing. -/
theorem Represents.delta_again (h : x.Represents l) (files : List Path) (symbols : List Symbol) :
    ((x.replaceFiles files symbols).1.replaceFiles files symbols).2 =
      { added := 0, removed := 0, updated := (distinct symbols).length } := by
  have hdeclared := (h.replaceFiles files symbols).declared_symbols
  have hsame : declared symbols ⊆ declared (IndexChange.staying files symbols l ++
      collapse symbols) := by
    rw [declared_append, declared_collapse]
    exact Finset.subset_union_right
  have hgone : declaredIn files (declared (IndexChange.staying files symbols l ++
      collapse symbols)) \ declared symbols = ∅ := by
    rw [declared_append, declared_collapse, declared_staying]
    ext i
    simp only [Finset.mem_sdiff, mem_declaredIn, Finset.mem_union, Finset.notMem_empty, iff_false]
    tauto
  rw [(h.replaceFiles files symbols).delta_replaceFiles, hgone, Finset.sdiff_eq_empty_iff_subset.mpr
    hsame, Finset.inter_eq_left.mpr hsame, distinct_eq_collapse, length_collapse,
    Finset.card_empty]

/-! ## Replacements of different files -/

theorem staying_swap (files files' : List Path) (symbols symbols' l : List Symbol) :
    IndexChange.staying (files' ++ files) (symbols' ++ symbols) l =
      IndexChange.staying (files ++ files') (symbols ++ symbols') l := by
  refine List.filter_congr fun t _ => ?_
  simp only [List.map_append, List.mem_append, or_comm]

/-- Whether all symbols are of some files. -/
def OfFiles (symbols : List Symbol) (files : List Path) : Prop :=
  ∀ s ∈ symbols, s.file.place ∈ files.map Path.place

theorem OfFiles.mem_of_declared (h : OfFiles symbols files) {i : Identity}
    (hi : i ∈ declared symbols) : i.file ∈ files.map Path.place := by
  obtain ⟨s, hs, rfl⟩ := List.mem_map.mp (mem_declared.mp hi)
  exact h s hs

theorem OfFiles.staying_eq (h : OfFiles symbols files) (l : List Symbol) :
    IndexChange.staying files symbols l =
      l.filter fun t => t.file.place ∉ files.map Path.place := by
  refine List.filter_congr fun t _ => ?_
  rw [decide_eq_decide, and_iff_left_iff_imp]
  intro hout hid
  obtain ⟨s, hs, hst⟩ := List.mem_map.mp hid
  rw [← place_eq_of_identity_eq hst] at hout
  exact hout (h s hs)

theorem OfFiles.collapse (h : OfFiles symbols files) : OfFiles (collapse symbols) files :=
  fun s hs => h s (mem_of_mem_collapse hs)

theorem OfFiles.filter_eq_nil (h : OfFiles symbols files) {p : Place}
    (hp : p ∉ files.map Path.place) : symbols.filter (place · = p) = [] :=
  List.filter_eq_nil_iff.mpr fun s hs heq => hp (of_decide_eq_true heq ▸ h s hs)

theorem OfFiles.append (h : OfFiles symbols files) (h' : OfFiles symbols' files') :
    OfFiles (symbols ++ symbols') (files ++ files') := by
  intro s hs
  rw [List.map_append, List.mem_append]
  exact (List.mem_append.mp hs).imp (h s) (h' s)

section Apart

variable (hfiles : (files.map Path.place).Disjoint (files'.map Path.place))
  (hsymbols : OfFiles symbols files) (hsymbols' : OfFiles symbols' files')

include hfiles hsymbols hsymbols'

theorem disjoint_identities :
    (symbols.map Symbol.identity).Disjoint (symbols'.map Symbol.identity) := by
  intro i hi hi'
  exact hfiles (hsymbols.mem_of_declared (mem_declared.mpr hi))
    (hsymbols'.mem_of_declared (mem_declared.mpr hi'))

/-- Two replacements leave the list that they leave when they are made at once. -/
theorem staying_apart (l : List Symbol) :
    IndexChange.staying files' symbols' (IndexChange.staying files symbols l ++ collapse symbols) ++
        collapse symbols' =
      IndexChange.staying (files ++ files') (symbols ++ symbols') l ++
        collapse (symbols ++ symbols') := by
  have hkept : (collapse symbols).filter (fun t => t.file.place ∉ files'.map Path.place) =
      collapse symbols := by
    refine List.filter_eq_self.mpr fun t ht => decide_eq_true fun hin => ?_
    exact hfiles (hsymbols.collapse t ht) hin
  have hrest : (l.filter fun t => t.file.place ∉ files.map Path.place).filter
      (fun t => t.file.place ∉ files'.map Path.place) =
      l.filter fun t => t.file.place ∉ (files ++ files').map Path.place := by
    rw [List.filter_filter]
    refine List.filter_congr fun t _ => ?_
    rw [← Bool.decide_and, decide_eq_decide, List.map_append, List.mem_append, not_or, and_comm]
  rw [collapse_append (disjoint_identities hfiles hsymbols hsymbols'),
    (hsymbols.append hsymbols').staying_eq, hsymbols'.staying_eq, hsymbols.staying_eq,
    List.filter_append, hrest, hkept, List.append_assoc]

/-- A replacement reports the same after other files were replaced. -/
theorem Represents.delta_after (h : x.Represents l) :
    ((x.replaceFiles files symbols).1.replaceFiles files' symbols').2 =
      (x.replaceFiles files' symbols').2 := by
  rw [(h.replaceFiles files symbols).delta_replaceFiles, h.delta_replaceFiles, declared_append,
    declared_staying, declared_collapse, Delta.mk.injEq]
  have hout : ∀ i ∈ declared symbols, i.file ∉ files'.map Path.place := fun i hi =>
    hfiles (hsymbols.mem_of_declared hi)
  have hout' : ∀ i : Identity, i.file ∈ files'.map Path.place → i.file ∉ files.map Path.place :=
    fun i hi' hi => hfiles hi hi'
  have hin' : ∀ i ∈ declared symbols', i.file ∈ files'.map Path.place := fun i hi =>
    hsymbols'.mem_of_declared hi
  refine ⟨congrArg Finset.card ?_, congrArg Finset.card ?_, congrArg Finset.card ?_⟩
  all_goals
    ext i
    simp only [Finset.mem_sdiff, Finset.mem_union, Finset.mem_inter, mem_declaredIn]
    have := hout i
    have := hout' i
    have := hin' i
    tauto

/-- What replacements of different files report at once is the sum of what each of them reports. -/
theorem Represents.delta_both (h : x.Represents l) :
    (x.replaceFiles (files ++ files') (symbols ++ symbols')).2 =
      (x.replaceFiles files symbols).2 + (x.replaceFiles files' symbols').2 := by
  rw [h.delta_replaceFiles, h.delta_replaceFiles, h.delta_replaceFiles, Delta.add_eq,
    Delta.mk.injEq, declared_append]
  have hin : ∀ i ∈ declared symbols, i.file ∈ files.map Path.place := fun i hi =>
    hsymbols.mem_of_declared hi
  have hin' : ∀ i ∈ declared symbols', i.file ∈ files'.map Path.place := fun i hi =>
    hsymbols'.mem_of_declared hi
  have hout : ∀ i : Identity, i.file ∈ files.map Path.place → i.file ∉ files'.map Path.place :=
    fun i hi => hfiles hi
  have hnew : Disjoint (declared symbols) (declared symbols') :=
    Finset.disjoint_left.mpr fun i hi hi' => hout i (hin i hi) (hin' i hi')
  have hgone : declaredIn (files ++ files') (declared l) \ (declared symbols ∪ declared symbols') =
      (declaredIn files (declared l) \ declared symbols) ∪
        (declaredIn files' (declared l) \ declared symbols') := by
    ext i
    simp only [Finset.mem_sdiff, Finset.mem_union, mem_declaredIn, List.map_append, List.mem_append]
    have := hout i
    have := hin i
    have := hin' i
    tauto
  have hapart : Disjoint (declaredIn files (declared l) \ declared symbols)
      (declaredIn files' (declared l) \ declared symbols') := by
    refine Finset.disjoint_left.mpr fun i hi hi' => ?_
    exact hout i (mem_declaredIn.mp (Finset.mem_sdiff.mp hi).1).2
      (mem_declaredIn.mp (Finset.mem_sdiff.mp hi').1).2
  refine ⟨?_, ?_, ?_⟩
  · rw [Finset.union_sdiff_distrib, Finset.card_union_of_disjoint
      (hnew.mono Finset.sdiff_subset Finset.sdiff_subset)]
  · rw [hgone, Finset.card_union_of_disjoint hapart]
  · rw [Finset.union_inter_distrib_right, Finset.card_union_of_disjoint
      (hnew.mono Finset.inter_subset_left Finset.inter_subset_left)]

/-- Replacements of different files, in one order and in the other. -/
theorem Represents.sameUpToOrder_swap (h : x.Represents l) :
    SameUpToOrder
      ((x.replaceFiles files symbols).1.replaceFiles files' symbols').1
      ((x.replaceFiles files' symbols').1.replaceFiles files symbols).1 := by
  have hz := (h.replaceFiles files symbols).replaceFiles files' symbols'
  have hz' := (h.replaceFiles files' symbols').replaceFiles files symbols
  have hids := disjoint_identities hfiles hsymbols hsymbols'
  rw [staying_apart hfiles hsymbols hsymbols', collapse_append hids] at hz
  rw [staying_apart hfiles.symm hsymbols' hsymbols, collapse_append hids.symm, staying_swap] at hz'
  refine hz.sameUpToOrder hz' (List.perm_append_comm.append_left _) fun p => ?_
  rw [List.filter_append, List.filter_append, List.filter_append, List.filter_append]
  -- A file has new symbols of at most one of the two replacements.
  by_cases hp : p ∈ files.map Path.place
  · rw [hsymbols'.collapse.filter_eq_nil fun hp' => hfiles hp hp', List.append_nil, List.nil_append]
  · rw [hsymbols.collapse.filter_eq_nil hp, List.append_nil, List.nil_append]

/-- Replacements of different files, one after the other and at once. -/
theorem Represents.sameUpToOrder_both (h : x.Represents l) :
    SameUpToOrder
      ((x.replaceFiles files symbols).1.replaceFiles files' symbols').1
      (x.replaceFiles (files ++ files') (symbols ++ symbols')).1 := by
  have hz := (h.replaceFiles files symbols).replaceFiles files' symbols'
  rw [staying_apart hfiles hsymbols hsymbols'] at hz
  exact hz.sameUpToOrder (h.replaceFiles (files ++ files') (symbols ++ symbols'))
    (List.Perm.refl _) fun _ => rfl

end Apart

/-- After any changes, a replacement that is made again leaves every lookup as it is, raises the
generation, and reports nothing as added or removed. Replacements of different files by symbols of
these files come to the same in either order and at once: every file has the same symbols in the
same order, every name, kind, project and beginning the same symbols in some order, and all counts
but the generation are equal. What is reported adds up to the same. -/
theorem replaceFiles_again_and_apart (changes : List IndexChange) :
    let x := after changes
    (∀ files symbols,
      let once := x.replaceFiles files symbols
      let twice := once.1.replaceFiles files symbols
      SameLookups once.1 twice.1 ∧ twice.1.generation = once.1.generation + 1 ∧
        twice.2.added = 0 ∧ twice.2.removed = 0) ∧
    ∀ files files' symbols symbols', (files.map Path.place).Disjoint (files'.map Path.place) →
      OfFiles symbols files → OfFiles symbols' files' →
      let first := x.replaceFiles files symbols
      let first' := x.replaceFiles files' symbols'
      let second := first.1.replaceFiles files' symbols'
      let second' := first'.1.replaceFiles files symbols
      let both := x.replaceFiles (files ++ files') (symbols ++ symbols')
      SameUpToOrder second.1 second'.1 ∧ SameUpToOrder second.1 both.1 ∧
        first.2 + second.2 = both.2 ∧ first'.2 + second'.2 = both.2 := by
  intro x
  have h : x.Represents (IndexChange.after changes) := (represents_empty 0).foldl_change changes
  refine ⟨fun files symbols => ?_, fun files files' symbols symbols' hfiles hs hs' => ?_⟩
  · intro once twice
    have hdelta := h.delta_again files symbols
    exact ⟨h.sameLookups_again files symbols, rfl, congrArg Delta.added hdelta,
      congrArg Delta.removed hdelta⟩
  · intro first first' second second' both
    have hsecond : second.2 = first'.2 := h.delta_after hfiles hs hs'
    have hsecond' : second'.2 = first.2 := h.delta_after hfiles.symm hs' hs
    have hsum : both.2 = first.2 + first'.2 := h.delta_both hfiles hs hs'
    refine ⟨h.sameUpToOrder_swap hfiles hs hs', h.sameUpToOrder_both hfiles hs hs', ?_, ?_⟩
    · rw [hsecond, hsum]
    · rw [hsecond', hsum, Delta.add_comm]

/-- Two files, of which the second is replaced first and at once with the first. -/
theorem replaceFiles_again_and_apart_of_two_files :
    let map : Symbol := { name := "Map", kind := .classType, file := ⟨"a.sym"⟩, project := "P" }
    let key : Symbol := { name := "mapKey", kind := .classType, file := ⟨"b.sym"⟩, project := "P" }
    let old : Symbol := { key with name := "Old" }
    let x := after [.replace [⟨"b.sym"⟩] [old]]
    let inTurn := (x.replaceFiles [⟨"b.sym"⟩] [key]).1.replaceFiles [⟨"a.sym"⟩] [map]
    let both := x.replaceFiles [⟨"b.sym"⟩, ⟨"a.sym"⟩] [key, map]
    OfFiles [key] [⟨"b.sym"⟩] ∧ OfFiles [map] [⟨"a.sym"⟩] ∧
      SameUpToOrder inTurn.1 both.1 ∧ both.2 = { added := 2, removed := 1, updated := 0 } := by
  intro map key old x inTurn both
  have hkey : OfFiles [key] [⟨"b.sym"⟩] := List.forall_mem_singleton.mpr (by decide)
  have hmap : OfFiles [map] [⟨"a.sym"⟩] := List.forall_mem_singleton.mpr (by decide)
  have hfiles : ([⟨"b.sym"⟩].map Path.place).Disjoint ([⟨"a.sym"⟩].map Path.place) :=
    List.disjoint_singleton.mpr (by decide)
  obtain ⟨-, hboth, hsum, -⟩ :=
    (replaceFiles_again_and_apart [.replace [⟨"b.sym"⟩] [old]]).2 _ _ _ _ hfiles hkey hmap
  refine ⟨hkey, hmap, hboth, ?_⟩
  exact hsum.symm.trans (by decide +kernel)

end Snapshot

end SymbolAtlas
