import SymbolAtlas.Proofs.Files.Tree

/-!
# Writing files

A file that was written is read as it was written, and writing it leaves all folders where they
were.
-/

namespace SymbolAtlas

namespace Path

variable {p : Path} {name : String}

theorem isName_of_ofPiece {piece : String} (h : ofPiece piece = some (.name name))
    (hpiece : piece ∈ p.pieces) : IsName name := by
  unfold ofPiece at h
  split_ifs at h with hhere hup
  · cases h
  · obtain rfl := Component.name.inj (Option.some.inj h)
    simp only [Bool.or_eq_true, beq_iff_eq, not_or] at hhere hup
    exact ⟨hhere.1, hhere.2, hup, separator_free_of_mem_pieces hpiece⟩

theorem isName_of_mem_place (h : Component.name name ∈ p.place) : IsName name := by
  unfold place at h
  split at h
  · simp at h
  · next first rest hpieces =>
    rw [List.mem_append, List.mem_filterMap] at h
    obtain hfirst | ⟨piece, hpiece, heq⟩ := h
    · split_ifs at hfirst
      · simp at hfirst
      · simp at hfirst
      · exact isName_of_ofPiece (Option.mem_toList.mp hfirst) (hpieces ▸ List.mem_cons_self)
    · exact isName_of_ofPiece heq (hpieces ▸ List.mem_cons_of_mem _ hpiece)

end Path

namespace FileTree

variable {t u : FileTree} {a b : Address} {p : Path}

/-! ## The working folder -/

theorem workingFolder_touch (t : FileTree) (now : Nat) (a : Address) :
    (t.touch now a).workingFolder = t.workingFolder := by
  unfold touch
  split
  · split_ifs <;> rfl
  · rfl

theorem workingFolder_addFolder (t : FileTree) (now : Nat) (a : Address) :
    (t.addFolder now a).workingFolder = t.workingFolder := by
  unfold addFolder
  split_ifs
  · exact workingFolder_touch t now a.dropLast
  · rfl

theorem workingFolder_makeFolder (t : FileTree) (now : Nat) (a : Address) :
    (t.makeFolder now a).workingFolder = t.workingFolder := by
  unfold makeFolder
  generalize Address.way a = way
  induction way generalizing t with
  | nil => rfl
  | cons b way ih => rw [List.foldl_cons, ih, workingFolder_addFolder]

/-! ## Creating folders -/

/-- The address of a place has nothing but names. -/
theorem isName_addressOf (hworking : ∀ s ∈ t.workingFolder, Path.IsName s) {place : Place}
    (hplace : ∀ s, Component.name s ∈ place → Path.IsName s) :
    ∀ s ∈ t.addressOf place, Path.IsName s := by
  unfold addressOf
  induction place using List.reverseRecOn with
  | nil => exact hworking
  | append_singleton front c ih =>
    have hfront := ih fun s hs => hplace s (List.mem_append_left _ hs)
    rw [List.foldl_append, List.foldl_cons, List.foldl_nil]
    cases c with
    | root => simp
    | here => exact hfront
    | up => exact fun s hs => hfront s (List.dropLast_subset _ hs)
    | name name =>
      intro s hs
      rw [List.mem_append, List.mem_singleton] at hs
      obtain hs | rfl := hs
      · exact hfront s hs
      · exact hplace s (by simp)

theorem Proper.createFolder? (ht : t.Proper) {now : Nat} (hnames : ∀ s ∈ a, Path.IsName s)
    (h : t.createFolder? now a = some u) :
    u.Proper ∧ u.Extends t ∧ u.workingFolder = t.workingFolder := by
  unfold FileTree.createFolder? at h
  split_ifs at h
  obtain rfl := Option.some.inj h
  obtain ⟨hproper, hextends⟩ := ht.makeFolder now hnames
  exact ⟨hproper, hextends, workingFolder_makeFolder t now a⟩

theorem isSome_node?_of_isFolderAt (h : t.isFolderAt a) : (t.node? a).isSome := by
  obtain ⟨m, hm⟩ := isFolderAt_iff.mp h
  rw [hm]
  rfl

/-- A folder that is there is not made. -/
theorem Proper.makeFolder_of_isFolderAt (ht : t.Proper) (now : Nat) (h : t.isFolderAt a) :
    t.makeFolder now a = t := by
  have hway : ∀ b ∈ Address.way a, (t.node? b).isNone = false := by
    intro b hb
    obtain ⟨c, rfl⟩ := mem_way.mp hb
    have hfolder : t.isFolderAt b := by
      obtain rfl | hne := eq_or_ne c []
      · rwa [List.append_nil] at h
      · exact ht.isFolderAt_of_append hne (isSome_node?_of_isFolderAt h)
    exact Option.isNone_eq_false_iff.mpr (isSome_node?_of_isFolderAt hfolder)
  unfold FileTree.makeFolder
  generalize Address.way a = way at hway
  induction way with
  | nil => rfl
  | cons b way ih =>
    have hadd : t.addFolder now b = t := by
      unfold FileTree.addFolder
      rw [hway b (by simp)]
      rfl
    rw [List.foldl_cons, hadd]
    exact ih fun c hc => hway c (List.mem_cons_of_mem b hc)

/-! ## Writing -/

/-- The last step of a path goes from a folder to something in it, stays, or goes up. -/
theorem Proper.isFolderAt_dropLast_of_resolve (ht : t.Proper)
    (hworking : t.isFolderAt t.workingFolder) (h : t.resolve p = .ok a) :
    t.isFolderAt a.dropLast := by
  have hup {b : Address} (hb : t.isFolderAt b) : t.isFolderAt b.dropLast :=
    ht.isFolderAt_dropLast (isSome_node?_of_isFolderAt hb)
  have horigin : t.isFolderAt (t.origin p) := by
    unfold origin
    split_ifs
    · rfl
    · exact hworking
  rw [resolve_eq t (spelling_ne_empty_of_resolve h)] at h
  obtain hnil | ⟨front, last, hlast⟩ := p.pieces.eq_nil_or_concat
  · rw [hnil] at h
    obtain rfl := Except.ok.inj h
    exact hup horigin
  · rw [hlast, List.concat_eq_append, List.foldlM_append] at h
    cases hfront : front.foldlM t.step (t.origin p) with
    | error e =>
      rw [hfront] at h
      cases h
    | ok b =>
      rw [hfront] at h
      change [last].foldlM t.step b = .ok a at h
      rw [foldlM_singleton] at h
      have hb := isFolderAt_of_step h
      obtain ⟨m, hm⟩ := isFolderAt_iff.mp hb
      unfold step at h
      rw [hm] at h
      dsimp only at h
      split_ifs at h
      · obtain rfl := Except.ok.inj h
        exact hup hb
      · obtain rfl := Except.ok.inj h
        exact hup (hup hb)
      · obtain rfl := Except.ok.inj h
        rwa [List.dropLast_concat]

theorem ne_nil_of_not_isFolderAt (h : ¬ t.isFolderAt a) : a ≠ [] := by
  rintro rfl
  exact h rfl

/-- Marking a folder as changed makes no folder of what was none. -/
theorem isFolderAt_touch_iff (t : FileTree) (now : Nat) (a b : Address) :
    (t.touch now a).isFolderAt b ↔ t.isFolderAt b := by
  by_cases hne : a = []
  · rw [hne, touch_nil]
  by_cases ha : t.isFolderAt a
  · rw [touch_of_isFolderAt now hne ha]
    unfold isFolderAt at ha ⊢
    rw [node?_put t hne]
    split_ifs with hb
    · rw [hb]
      exact iff_of_true rfl ha
    · rfl
  · rw [touch_of_not_isFolderAt now ha]

/-- Where the folder of a file is there, writing the file puts it into its place. -/
theorem Proper.exists_write_eq_put (ht : t.Proper) (now : Nat) (hfolder : t.isFolderAt a.dropLast)
    (hfile : ¬ t.isFolderAt a) (text : String) (modified : Nat) :
    ∃ v : FileTree, t.write now a text modified = v.put a (.file text modified) ∧
      (∀ b, v.isFolderAt b ↔ t.isFolderAt b) ∧ v.workingFolder = t.workingFolder := by
  unfold FileTree.write
  rw [ht.makeFolder_of_isFolderAt now hfolder]
  have hfolders (b : Address) :
      (if (t.node? a).isNone then t.touch now a.dropLast else t).isFolderAt b ↔
      t.isFolderAt b := by
    split_ifs
    · exact isFolderAt_touch_iff t now a.dropLast b
    · rfl
  have hworking : (if (t.node? a).isNone then t.touch now a.dropLast else t).workingFolder =
      t.workingFolder := by
    split_ifs
    · exact workingFolder_touch t now a.dropLast
    · rfl
  dsimp only
  generalize (if (t.node? a).isNone then t.touch now a.dropLast else t) = v at *
  refine ⟨v, ?_, hfolders, hworking⟩
  obtain ⟨m, hm⟩ := isFolderAt_iff.mp ((hfolders a.dropLast).mpr hfolder)
  rw [hm]
  split
  · next _ m' _ hm' => exact absurd ((hfolders a).mp (isFolderAt_iff.mpr ⟨m', hm'⟩)) hfile
  · rfl
  · next hno _ => exact absurd rfl (hno m)

/-- A path leads where it led as long as no folder is lost and the working folder is the same. -/
theorem resolve_of_workingFolder (h : ∀ a, t.isFolderAt a → u.isFolderAt a)
    (hworking : u.workingFolder = t.workingFolder) (hresolve : t.resolve p = .ok a) :
    u.resolve p = .ok a := by
  have hne := spelling_ne_empty_of_resolve hresolve
  have horigin : u.origin p = t.origin p := by
    unfold origin
    rw [hworking]
  rw [resolve_eq t hne] at hresolve
  rw [resolve_eq u hne, horigin]
  exact foldlM_step_of_folders h hresolve

/-- A file that was written is read as it was written. -/
theorem Proper.readText?_writeText? (ht : t.Proper) (hworking : t.isFolderAt t.workingFolder)
    {now : Nat} {text : String} (h : t.writeText? now p text = some u) :
    u.readText? p = some text := by
  unfold FileTree.writeText? at h
  cases hresolve : t.resolve p with
  | error e =>
    rw [hresolve] at h
    cases h
  | ok a =>
    rw [hresolve] at h
    dsimp only at h
    split_ifs at h with hfile
    obtain rfl := Option.some.inj h
    have hfolder := ht.isFolderAt_dropLast_of_resolve hworking hresolve
    obtain ⟨v, hwrite, hfolders, hv⟩ := ht.exists_write_eq_put now hfolder hfile text now
    have hne := ne_nil_of_not_isFolderAt hfile
    have hkept : ∀ b, t.isFolderAt b → (v.put a (.file text now)).isFolderAt b := by
      intro b hb
      unfold FileTree.isFolderAt
      rw [node?_put v hne, if_neg]
      · exact (hfolders b).mpr hb
      · rintro rfl
        exact hfile hb
    rw [hwrite, readText?_eq, resolve_of_workingFolder hkept hv hresolve]
    exact textAt?_eq_some_iff.mpr ⟨now, by rw [node?_put v hne, if_pos rfl]⟩

end FileTree

end SymbolAtlas
