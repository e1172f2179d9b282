import SymbolAtlas.Index.Update
import SymbolAtlas.Proofs.Index.Distinct
import SymbolAtlas.Proofs.Index.Groups
import SymbolAtlas.Proofs.Trie.Canonical

/-!
# One list behind every lookup

Whatever changes an index went through, its snapshot is determined by one list of symbols of
different identities. Every group holds this list under its own key, the trie is the trie of this
list, and the owner of a qualified name is one of its symbols. Each change of the index is a simple
change of the list.
-/

namespace SymbolAtlas

/-- A change of the index. -/
inductive IndexChange where
  | rebuild (c : Collection)
  | replace (files : List Path) (symbols : List Symbol)
  | remove (files : List Path)
  | clear

namespace Snapshot

/-- The key of a symbol among names: its name without letter case. -/
def nameKey (s : Symbol) : String := Text.lowercase s.name

/-- The word of a symbol in the trie. -/
def word (s : Symbol) : List Char := Text.lowercaseLetters s.name

def place (s : Symbol) : Place := s.file.place

/-- The index after a change. -/
def change (x : Snapshot) : IndexChange → Snapshot
  | .rebuild c => x.rebuild c
  | .replace files symbols => (x.replaceFiles files symbols).1
  | .remove files => (x.removeFiles files).1
  | .clear => x.clear

/-- The index after changes one after the other, from the empty one on. -/
def after (changes : List IndexChange) : Snapshot := changes.foldl change {}

/-- Exactly the files of some groups are spelled, each by a path that leads there. -/
def Spelled (spellings : Std.TreeMap Place Path) (byFile : Groups Place) : Prop :=
  ∀ p, (spellings[p]?).map Path.place = if byFile.contains p then some p else none

/-- A snapshot that a single list of symbols determines, apart from the owners of qualified names
and the spellings of paths, which the list leaves open. -/
structure Represents (x : Snapshot) (l : List Symbol) : Prop where
  /-- No identity comes twice. -/
  nodup : (l.map Symbol.identity).Nodup
  byName : x.byName.Hold nameKey l
  byKind : x.byKind.Hold Symbol.kind l
  byProject : x.byProject.Hold Symbol.project l
  byFile : x.byFile.Hold place l
  trie : x.trie = Trie.ofList word l
  /-- The owner of a qualified name is there and carries the name. -/
  owner : ∀ q s, x.byQualifiedName[q]? = some s → s ∈ l ∧ s.qualifiedName = some q
  spelled : Spelled x.spellings x.byFile

end Snapshot

namespace IndexChange

/-- The symbols that stay when some files are replaced by symbols: those of other files and of
other identities. -/
def staying (files : List Path) (symbols l : List Symbol) : List Symbol :=
  l.filter fun t =>
    t.file.place ∉ files.map Path.place ∧ t.identity ∉ symbols.map Symbol.identity

/-- What a change makes of the list behind an index. -/
def apply (l : List Symbol) : IndexChange → List Symbol
  | .rebuild c => collapse c.symbols
  | .replace files symbols => staying files symbols l ++ collapse symbols
  | .remove files => staying files [] l
  | .clear => []

/-- The list after changes one after the other. -/
def after (changes : List IndexChange) : List Symbol := changes.foldl apply []

end IndexChange

namespace Snapshot

variable {x : Snapshot} {l : List Symbol}

theorem represents_empty (generation : Nat) : Represents { generation } [] where
  nodup := List.nodup_nil
  byName := Groups.hold_empty nameKey
  byKind := Groups.hold_empty Symbol.kind
  byProject := Groups.hold_empty Symbol.project
  byFile := Groups.hold_empty place
  trie := rfl
  owner := by simp
  spelled := by simp [Spelled]

theorem Represents.setGeneration (h : x.Represents l) (generation : Nat) :
    Represents { x with generation } l :=
  ⟨h.nodup, h.byName, h.byKind, h.byProject, h.byFile, h.trie, h.owner, h.spelled⟩

/-! ## Adding symbols -/

theorem contains_add (g : Groups Place) (p p' : Place) (s : Symbol) :
    (Groups.add g p s).contains p' = (decide (p = p') || g.contains p') := by
  rw [Std.TreeMap.contains_eq_isSome_getElem?, Groups.getElem?_add,
    Std.TreeMap.contains_eq_isSome_getElem?]
  by_cases h : p = p' <;> simp [h]

theorem Spelled.add {spellings : Std.TreeMap Place Path} {byFile : Groups Place}
    (h : Spelled spellings byFile) (s : Symbol) :
    Spelled (spellings.insertIfNew s.file.place s.file) (Groups.add byFile s.file.place s) := by
  intro p
  have hp := h p
  rw [contains_add, Std.TreeMap.getElem?_insertIfNew]
  simp only [Std.LawfulEqCmp.compare_eq_iff_eq]
  by_cases hs : s.file.place = p
  · subst hs
    by_cases hold : s.file.place ∈ spellings
    · have hin : byFile.contains s.file.place = true := by
        rw [Std.TreeMap.getElem?_eq_some_getElem hold] at hp
        by_contra hout
        simp [hout] at hp
      simpa [hold, hin] using hp
    · simp [hold]
  · simpa [hs] using hp

theorem Represents.insert (h : x.Represents l) {s : Symbol}
    (hs : s.identity ∉ l.map Symbol.identity) : (x.insert s).Represents (l ++ [s]) where
  nodup := by
    rw [List.map_append]
    exact List.nodup_append_comm.mp (List.nodup_cons.mpr ⟨hs, h.nodup⟩)
  byName := Groups.hold_add h.byName s
  byKind := Groups.hold_add h.byKind s
  byProject := Groups.hold_add h.byProject s
  byFile := Groups.hold_add h.byFile s
  trie := by
    rw [Trie.ofList_append_singleton, ← h.trie]
    rfl
  owner := by
    intro q t ht
    cases hq : s.qualifiedName with
    | none =>
        have hold : x.byQualifiedName[q]? = some t := by simpa [Snapshot.insert, hq] using ht
        exact ⟨List.mem_append_left _ (h.owner q t hold).1, (h.owner q t hold).2⟩
    | some q' =>
        simp only [Snapshot.insert, hq, Std.TreeMap.getElem?_insert,
          Std.LawfulEqCmp.compare_eq_iff_eq] at ht
        split_ifs at ht with hqq
        · obtain rfl : s = t := by simpa using ht
          exact ⟨by simp, by rw [hq, hqq]⟩
        · exact ⟨List.mem_append_left _ (h.owner q t ht).1, (h.owner q t ht).2⟩
  spelled := h.spelled.add s

theorem Represents.foldl_insert (h : x.Represents l) {new : List Symbol}
    (hnew : ((l ++ new).map Symbol.identity).Nodup) :
    (new.foldl Snapshot.insert x).Represents (l ++ new) := by
  induction new generalizing x l with
  | nil => simpa using h
  | cons s rest ih =>
      have hassoc : l ++ s :: rest = (l ++ [s]) ++ rest := by simp
      rw [hassoc] at hnew ⊢
      have hs : s.identity ∉ l.map Symbol.identity := by
        rw [List.map_append, List.map_append] at hnew
        have := (List.nodup_append.mp hnew).1
        intro hmem
        exact (List.disjoint_of_nodup_append this) hmem (by simp)
      exact ih (h.insert hs) hnew

theorem represents_ofSymbols (generation : Nat) (symbols : List Symbol) :
    (ofSymbols generation symbols).Represents (collapse symbols) := by
  unfold ofSymbols
  rw [distinct_eq_collapse]
  have hnodup : (([] ++ collapse symbols).map Symbol.identity).Nodup :=
    nodup_identity_collapse symbols
  exact (represents_empty generation).foldl_insert hnodup

/-! ## Taking symbols out of the groups -/

variable (doomed : Symbol → Bool)

theorem foldl_detach_byName (old : List Symbol) (x : Snapshot) :
    (old.foldl (detach doomed) x).byName =
      (old.map nameKey).foldl (fun g k => Groups.retain g k (!doomed ·)) x.byName := by
  induction old generalizing x with
  | nil => rfl
  | cons s rest ih => exact ih (x.detach doomed s)

theorem foldl_detach_byKind (old : List Symbol) (x : Snapshot) :
    (old.foldl (detach doomed) x).byKind =
      (old.map Symbol.kind).foldl (fun g k => Groups.retain g k (!doomed ·)) x.byKind := by
  induction old generalizing x with
  | nil => rfl
  | cons s rest ih => exact ih (x.detach doomed s)

theorem foldl_detach_byProject (old : List Symbol) (x : Snapshot) :
    (old.foldl (detach doomed) x).byProject =
      (old.map Symbol.project).foldl (fun g k => Groups.retain g k (!doomed ·)) x.byProject := by
  induction old generalizing x with
  | nil => rfl
  | cons s rest ih => exact ih (x.detach doomed s)

theorem foldl_detach_byFile (old : List Symbol) (x : Snapshot) :
    (old.foldl (detach doomed) x).byFile =
      (old.map place).foldl (fun g k => Groups.retain g k (!doomed ·)) x.byFile := by
  induction old generalizing x with
  | nil => rfl
  | cons s rest ih => exact ih (x.detach doomed s)

theorem foldl_detach_trie (old : List Symbol) (x : Snapshot) :
    (old.foldl (detach doomed) x).trie =
      (old.map word).foldl (fun t w => t.remove w doomed) x.trie := by
  induction old generalizing x with
  | nil => rfl
  | cons s rest ih => exact ih (x.detach doomed s)

theorem foldl_detach_byQualifiedName (old : List Symbol) (x : Snapshot) :
    (old.foldl (detach doomed) x).byQualifiedName = x.byQualifiedName := by
  induction old generalizing x with
  | nil => rfl
  | cons s rest ih => exact ih (x.detach doomed s)

theorem contains_retain_of_ne {p p' : Place} (h : p ≠ p') (g : Groups Place)
    (keep : Symbol → Bool) : (Groups.retain g p keep).contains p' = g.contains p' := by
  rw [Std.TreeMap.contains_eq_isSome_getElem?, Groups.getElem?_retain, if_neg h,
    Std.TreeMap.contains_eq_isSome_getElem?]

theorem contains_of_contains_retain {p : Place} {g : Groups Place} {keep : Symbol → Bool}
    (h : (Groups.retain g p keep).contains p = true) : g.contains p = true := by
  rw [Std.TreeMap.contains_eq_isSome_getElem?, Groups.getElem?_retain, if_pos rfl] at h
  rw [Std.TreeMap.contains_eq_isSome_getElem?]
  cases hg : g[p]? with
  | none => simp [Groups.under, hg] at h
  | some symbols => rfl

/-- A file loses its spelling with its last symbol. -/
theorem Spelled.retain {spellings : Std.TreeMap Place Path} {byFile : Groups Place}
    (h : Spelled spellings byFile) (p : Place) (keep : Symbol → Bool) :
    Spelled (if (Groups.retain byFile p keep).contains p then spellings else spellings.erase p)
      (Groups.retain byFile p keep) := by
  intro p'
  have hp' := h p'
  by_cases hs : p = p'
  · subst hs
    by_cases hin : (Groups.retain byFile p keep).contains p = true
    · rw [if_pos hin, if_pos hin, hp', if_pos (contains_of_contains_retain hin)]
    · rw [if_neg hin, if_neg hin, Std.TreeMap.getElem?_erase_self]
      rfl
  · rw [contains_retain_of_ne hs, ← hp']
    split_ifs
    · rfl
    · rw [Std.TreeMap.getElem?_erase]
      simp [hs]

theorem spelled_foldl_detach (old : List Symbol) (h : Spelled x.spellings x.byFile) :
    Spelled (old.foldl (detach doomed) x).spellings (old.foldl (detach doomed) x).byFile := by
  induction old generalizing x with
  | nil => exact h
  | cons s rest ih =>
      have hs : Spelled (x.detach doomed s).spellings (x.detach doomed s).byFile :=
        h.retain s.file.place (!doomed ·)
      exact ih hs

/-! ## Finding new owners -/

/-- Finding a new owner changes nothing but the owners. -/
theorem disown_eq (x : Snapshot) (s : Symbol) :
    ∃ owners, x.disown doomed s = { x with byQualifiedName := owners } := by
  unfold disown
  split
  · exact ⟨_, rfl⟩
  · split
    · exact ⟨_, rfl⟩
    · split_ifs
      · exact ⟨_, rfl⟩
      · dsimp only
        split <;> exact ⟨_, rfl⟩

theorem foldl_disown_eq (old : List Symbol) (x : Snapshot) :
    ∃ owners, old.foldl (disown doomed) x = { x with byQualifiedName := owners } := by
  induction old generalizing x with
  | nil => exact ⟨_, rfl⟩
  | cons s rest ih =>
      obtain ⟨owners, howners⟩ := disown_eq doomed x s
      obtain ⟨owners', howners'⟩ := ih { x with byQualifiedName := owners }
      exact ⟨owners', by rw [List.foldl_cons, howners, howners']⟩

/-- While symbols are gone through, every owner carries its name, and it stays or is still to be
gone through. -/
def OwnersAmong (left waiting : List Symbol) (x : Snapshot) : Prop :=
  ∀ q s, x.byQualifiedName[q]? = some s →
    s.qualifiedName = some q ∧ (s ∈ left ∨ s ∈ waiting)

theorem OwnersAmong.skip {left rest : List Symbol} {s : Symbol}
    (h : OwnersAmong left (s :: rest) x)
    (hs : ∀ q, s.qualifiedName = some q → x.byQualifiedName[q]? ≠ some s) :
    OwnersAmong left rest x := by
  intro q t ht
  obtain ⟨hq, hmem⟩ := h q t ht
  refine ⟨hq, hmem.imp_right fun hmem => ?_⟩
  rcases List.mem_cons.mp hmem with rfl | hrest
  · exact absurd ht (hs q hq)
  · exact hrest

theorem OwnersAmong.disown {left rest : List Symbol} {s : Symbol} (hs : doomed s = true)
    (hleft : ∀ k t, t ∈ Groups.under x.byName k → t ∈ left)
    (h : OwnersAmong left (s :: rest) x) : OwnersAmong left rest (x.disown doomed s) := by
  unfold Snapshot.disown
  split
  · next hnone => exact h.skip fun q hq => by simp [hnone] at hq
  · next q hq =>
    split
    · next hfree =>
      refine h.skip fun q' hq' => ?_
      obtain rfl : q = q' := by simpa [hq] using hq'
      simp [hfree]
    · next owner howner =>
      split_ifs with hkept
      · refine h.skip fun q' hq' => ?_
        obtain rfl : q = q' := by simpa [hq] using hq'
        rw [howner]
        intro heq
        obtain rfl : owner = s := by simpa using heq
        simp [hs] at hkept
      · -- The name leaves its owner: no other entry can name `s`, which carries only this one.
        have hothers : ∀ q' t, q ≠ q' → x.byQualifiedName[q']? = some t →
            t.qualifiedName = some q' ∧ (t ∈ left ∨ t ∈ rest) := by
          intro q' t hne ht
          obtain ⟨hq', hmem⟩ := h q' t ht
          refine ⟨hq', hmem.imp_right fun hmem => ?_⟩
          rcases List.mem_cons.mp hmem with rfl | hrest
          · rw [hq] at hq'
            exact absurd (by simpa using hq') hne
          · exact hrest
        dsimp only
        split
        · next heir hheir =>
          intro q' t ht
          simp only [Std.TreeMap.getElem?_insert, Std.LawfulEqCmp.compare_eq_iff_eq] at ht
          split_ifs at ht with hqq
          · obtain rfl : heir = t := by simpa using ht
            have hfound := List.find?_some hheir
            have hmem := List.mem_of_find?_eq_some hheir
            refine ⟨by simpa [hqq] using hfound, Or.inl (hleft (Text.lowercase s.name) heir ?_)⟩
            simpa using hmem
          · exact hothers q' t hqq ht
        · intro q' t ht
          simp only [Std.TreeMap.getElem?_erase, Std.LawfulEqCmp.compare_eq_iff_eq] at ht
          split_ifs at ht with hqq
          exact hothers q' t hqq ht

theorem OwnersAmong.foldl_disown {left old : List Symbol} (hold : ∀ s ∈ old, doomed s = true)
    (hleft : ∀ k t, t ∈ Groups.under x.byName k → t ∈ left)
    (h : OwnersAmong left old x) : OwnersAmong left [] (old.foldl (Snapshot.disown doomed) x) := by
  induction old generalizing x with
  | nil => exact h
  | cons s rest ih =>
      refine ih (fun t ht => hold t (List.mem_cons_of_mem s ht)) ?_
        (h.disown doomed (hold s (by simp)) hleft)
      obtain ⟨owners, howners⟩ := disown_eq doomed x s
      rw [howners]
      exact hleft

/-! ## Removing symbols -/

theorem contains_identities (old : List Symbol) (i : Identity) :
    (old.foldl (fun (m : Std.TreeSet Identity) s => m.insert s.identity) {}).contains i =
      decide (i ∈ old.map Symbol.identity) := by
  induction old using List.reverseRecOn with
  | nil => simp
  | append_singleton old s ih =>
      rw [List.foldl_append, List.foldl_cons, List.foldl_nil, Std.TreeSet.contains_insert, ih,
        Bool.eq_iff_iff]
      simp only [Bool.or_eq_true, beq_iff_eq, Std.LawfulEqCmp.compare_eq_iff_eq,
        decide_eq_true_eq, List.map_append, List.mem_append, List.map_cons, List.map_nil,
        List.mem_singleton]
      rw [or_comm, eq_comm]

/-- The symbols of other identities. -/
def without (old l : List Symbol) : List Symbol :=
  l.filter fun s => s.identity ∉ old.map Symbol.identity

theorem Represents.removeAll (h : x.Represents l) {old : List Symbol} (hold : ∀ s ∈ old, s ∈ l) :
    (x.removeAll old).Represents (without old l) := by
  set doomed : Symbol → Bool := fun s => decide (s.identity ∈ old.map Symbol.identity) with hdoomed
  have hremove : x.removeAll old = old.foldl (disown doomed) (old.foldl (detach doomed) x) := by
    unfold Snapshot.removeAll
    simp only [contains_identities, hdoomed]
  have hwithout : without old l = l.filter (!doomed ·) := by
    refine List.filter_congr fun s _ => ?_
    simp only [hdoomed, decide_not]
  -- A symbol of the list that goes is one of those to remove, since identities are distinct.
  have hmem : ∀ s ∈ l, doomed s = true → s ∈ old := by
    intro s hs hgoes
    obtain ⟨t, ht, hts⟩ := List.mem_map.mp (by simpa [hdoomed] using hgoes)
    rwa [← List.inj_on_of_nodup_map h.nodup (hold t ht) hs hts]
  have hkeys : ∀ {κ : Type} (key : Symbol → κ), ∀ s ∈ l, (!doomed s) = false →
      key s ∈ old.map key := by
    intro κ key s hs hgoes
    exact List.mem_map_of_mem (hmem s hs (by simpa using hgoes))
  have hnames : (old.foldl (detach doomed) x).byName.Hold nameKey (l.filter (!doomed ·)) := by
    rw [foldl_detach_byName]
    exact Groups.hold_foldl_retain h.byName (hkeys nameKey)
  have howners : OwnersAmong (l.filter (!doomed ·)) [] (x.removeAll old) := by
    rw [hremove]
    refine OwnersAmong.foldl_disown doomed (fun s hs => ?_) (fun k t ht => ?_) fun q s hs => ?_
    · simpa [hdoomed] using List.mem_map_of_mem hs
    · exact ((Groups.mem_under_of_hold hnames).mp ht).1
    · rw [foldl_detach_byQualifiedName] at hs
      obtain ⟨hs, hq⟩ := h.owner q s hs
      refine ⟨hq, ?_⟩
      cases hgoes : doomed s with
      | true => exact Or.inr (hmem s hs hgoes)
      | false => exact Or.inl (List.mem_filter.mpr ⟨hs, by simp [hgoes]⟩)
  obtain ⟨owners, hrest⟩ := foldl_disown_eq doomed old (old.foldl (detach doomed) x)
  rw [hwithout]
  refine ⟨h.nodup.sublist (List.filter_sublist.map _), ?_, ?_, ?_, ?_, ?_, ?_, ?_⟩
  · rw [hremove, hrest]
    exact hnames
  · rw [hremove, hrest]
    dsimp only
    rw [foldl_detach_byKind]
    exact Groups.hold_foldl_retain h.byKind (hkeys Symbol.kind)
  · rw [hremove, hrest]
    dsimp only
    rw [foldl_detach_byProject]
    exact Groups.hold_foldl_retain h.byProject (hkeys Symbol.project)
  · rw [hremove, hrest]
    dsimp only
    rw [foldl_detach_byFile]
    exact Groups.hold_foldl_retain h.byFile (hkeys place)
  · rw [hremove, hrest]
    dsimp only
    rw [foldl_detach_trie, h.trie]
    exact Trie.foldl_remove_ofList word doomed l _ fun s hs hgoes =>
      hkeys word s hs (by simpa using hgoes)
  · intro q s hs
    obtain ⟨hq, hin⟩ := howners q s hs
    exact ⟨by simpa using hin, hq⟩
  · rw [hremove, hrest]
    exact spelled_foldl_detach doomed old h.spelled

/-! ## Changes -/

theorem place_eq_of_identity_eq {s t : Symbol} (h : s.identity = t.identity) :
    s.file.place = t.file.place :=
  congrArg Identity.file h

/-- Replacing files displaces what stands in them and what the new symbols declare again. -/
theorem Represents.mem_displaced (h : x.Represents l) {files : List Path} {incoming : List Symbol}
    {t : Symbol} :
    t ∈ x.displaced files incoming ↔ t ∈ l ∧ (t.file.place ∈ files.map Path.place ∨
      t.identity ∈ incoming.map Symbol.identity) := by
  unfold displaced
  rw [List.mem_append, List.mem_flatMap, List.mem_filterMap]
  constructor
  · rintro (⟨p, hp, ht⟩ | ⟨s, hs, ht⟩)
    · obtain ⟨hl, rfl⟩ := (Groups.mem_under_of_hold h.byFile).mp ht
      exact ⟨hl, Or.inl hp⟩
    · split_ifs at ht
      have hid : t.identity = s.identity := by simpa using List.find?_some ht
      have hl := ((Groups.mem_under_of_hold h.byFile).mp (List.mem_of_find?_eq_some ht)).1
      exact ⟨hl, Or.inr (hid ▸ List.mem_map_of_mem hs)⟩
  · rintro ⟨hl, hgoes⟩
    by_cases hp : t.file.place ∈ files.map Path.place
    · exact Or.inl ⟨t.file.place, hp, (Groups.mem_under_of_hold h.byFile).mpr ⟨hl, rfl⟩⟩
    · obtain ⟨s, hs, hst⟩ := List.mem_map.mp (hgoes.resolve_left hp)
      have hplace := place_eq_of_identity_eq hst
      refine Or.inr ⟨s, hs, ?_⟩
      have hout : ¬(files.map Path.place).contains s.file.place = true := by
        rw [List.contains_iff_mem, hplace]
        exact hp
      rw [if_neg hout]
      -- The first symbol of the identity in the file is `t`: the file holds each identity once.
      have hin : t ∈ x.inFile s.file :=
        (Groups.mem_under_of_hold h.byFile).mpr ⟨hl, hplace.symm⟩
      have hfound : ((x.inFile s.file).find? (·.identity == s.identity)).isSome := by
        rw [List.find?_isSome]
        exact ⟨t, hin, by simp [hst]⟩
      obtain ⟨u, hu⟩ := Option.isSome_iff_exists.mp hfound
      have hul := ((Groups.mem_under_of_hold h.byFile).mp (List.mem_of_find?_eq_some hu)).1
      have huid : u.identity = t.identity := by
        rw [← hst]
        simpa using List.find?_some hu
      rw [hu, List.inj_on_of_nodup_map h.nodup hul hl huid]

/-- What is not displaced stays. -/
theorem Represents.without_displaced (h : x.Represents l) (files : List Path)
    (symbols : List Symbol) :
    without (x.displaced files (collapse symbols)) l = IndexChange.staying files symbols l := by
  refine List.filter_congr fun t ht => ?_
  rw [decide_eq_decide, ← not_or, not_iff_not]
  constructor
  · intro hid
    obtain ⟨u, hu, hut⟩ := List.mem_map.mp hid
    obtain ⟨hul, hgoes⟩ := h.mem_displaced.mp hu
    rw [← List.inj_on_of_nodup_map h.nodup hul ht hut]
    exact hgoes.imp_right mem_map_identity_collapse.mp
  · intro hgoes
    have hdisplaced := hgoes.imp_right mem_map_identity_collapse.mpr
    exact List.mem_map_of_mem (h.mem_displaced.mpr ⟨ht, hdisplaced⟩)

theorem nodup_staying_append_collapse (hl : (l.map Symbol.identity).Nodup) (files : List Path)
    (symbols : List Symbol) :
    ((IndexChange.staying files symbols l ++ collapse symbols).map Symbol.identity).Nodup := by
  rw [List.map_append, List.nodup_append]
  refine ⟨hl.sublist (List.filter_sublist.map _), nodup_identity_collapse symbols, ?_⟩
  intro i hi j hj hij
  obtain ⟨t, ht, rfl⟩ := List.mem_map.mp hi
  subst hij
  have hstays := (List.mem_filter.mp ht).2
  simp only [decide_eq_true_eq] at hstays
  exact hstays.2 (mem_map_identity_collapse.mp hj)

theorem Represents.replaceFiles (h : x.Represents l) (files : List Path) (symbols : List Symbol) :
    (x.replaceFiles files symbols).1.Represents
      (IndexChange.staying files symbols l ++ collapse symbols) := by
  unfold Snapshot.replaceFiles
  rw [distinct_eq_collapse]
  refine Represents.setGeneration ?_ _
  refine Represents.foldl_insert ?_ (nodup_staying_append_collapse h.nodup files symbols)
  rw [← h.without_displaced]
  exact h.removeAll fun t ht => (h.mem_displaced.mp ht).1

theorem Represents.change (h : x.Represents l) (c : IndexChange) :
    (x.change c).Represents (IndexChange.apply l c) := by
  cases c with
  | rebuild c => exact represents_ofSymbols (x.generation + 1) c.symbols
  | replace files symbols => exact h.replaceFiles files symbols
  | remove files =>
      have hremove := h.replaceFiles files []
      rwa [collapse_nil, List.append_nil] at hremove
  | clear => exact represents_empty (x.generation + 1)

theorem Represents.foldl_change (h : x.Represents l) (changes : List IndexChange) :
    (changes.foldl Snapshot.change x).Represents (changes.foldl IndexChange.apply l) := by
  induction changes generalizing x l with
  | nil => exact h
  | cons c rest ih => exact ih (h.change c)

/-- After any changes, the index is the one of the list that the same changes make. -/
theorem after_represents (changes : List IndexChange) :
    (after changes).Represents (IndexChange.after changes) :=
  (represents_empty 0).foldl_change changes

end Snapshot

end SymbolAtlas
