import SymbolAtlas.Files.Listing
import SymbolAtlas.Proofs.Files.Tree
import SymbolAtlas.Proofs.TreeMap

/-!
# What is listed

A listing holds each file of the folder of a project at most once, and no path that is not one of
a file below this folder.
-/

namespace SymbolAtlas

namespace FileTree

variable {t : FileTree} {a : Address} {names : List String}

theorem mem_filesBelow : names ∈ t.filesBelow a ↔
    ∃ text m, t.nodes[a ++ names]? = some (.file text m) := by
  unfold filesBelow
  rw [List.mem_filterMap]
  constructor
  · rintro ⟨⟨b, n⟩, hmem, hfile⟩
    cases n with
    | folder m => simp at hfile
    | file text m =>
        dsimp only at hfile
        split_ifs at hfile with hbelow
        obtain ⟨c, rfl⟩ := List.isPrefixOf_iff_prefix.mp hbelow
        rw [List.drop_left, Option.some.injEq] at hfile
        subst hfile
        exact ⟨text, m, Std.TreeMap.mem_toList_iff_getElem?_eq_some.mp hmem⟩
  · rintro ⟨text, m, hget⟩
    refine ⟨(a ++ names, .file text m), Std.TreeMap.mem_toList_iff_getElem?_eq_some.mpr hget, ?_⟩
    dsimp only
    rw [if_pos (List.isPrefixOf_iff_prefix.mpr (List.prefix_append a names)), List.drop_left]

theorem nodup_filesBelow (t : FileTree) (a : Address) : (t.filesBelow a).Nodup := by
  have hkeys := nodup_keys t.nodes
  rw [← Std.TreeMap.map_fst_toList_eq_keys, List.Nodup, List.pairwise_map] at hkeys
  obtain ⟨below?, hfiles, hback⟩ : ∃ below? : Address × FileNode → Option Address,
      t.filesBelow a = t.nodes.toList.filterMap below? ∧
        ∀ e names, below? e = some names → e.1 = a ++ names := by
    refine ⟨_, rfl, ?_⟩
    rintro ⟨b, n⟩ names hfile
    cases n with
    | folder m => simp at hfile
    | file text m =>
        dsimp only at hfile
        split_ifs at hfile with hbelow
        obtain ⟨c, rfl⟩ := List.isPrefixOf_iff_prefix.mp hbelow
        rw [List.drop_left, Option.some.injEq] at hfile
        rw [hfile]
  rw [hfiles, List.Nodup, List.pairwise_filterMap]
  refine hkeys.imp fun {e e'} hne names hnames names' hnames' heq => hne ?_
  rw [hback e names hnames, hback e' names' hnames', heq]

end FileTree

namespace SourceRules

variable {r : SourceRules} {t : FileTree} {p : Project} {files : List Path}

theorem exists_folder_of_list (h : r.list t p = .ok files) :
    ∃ start, t.resolve p.root = .ok start ∧ t.isFolderAt start := by
  unfold list at h
  split at h
  · simp at h
  · next start hresolve =>
    split_ifs at h with hfolder
    · exact ⟨start, hresolve, by simpa using hfolder⟩

/-- A project whose folder is there has a listing. -/
theorem exists_list_of_folder {start : Address} (hresolve : t.resolve p.root = .ok start)
    (hfolder : t.isFolderAt start) : ∃ files, r.list t p = .ok files := by
  unfold list
  rw [hresolve]
  dsimp only
  rw [if_neg (by simp [hfolder])]
  exact ⟨_, rfl⟩

/-- What is listed, apart from the order. -/
theorem perm_list (h : r.list t p = .ok files) {start : Address}
    (hresolve : t.resolve p.root = .ok start) :
    files.Perm ((t.filesBelow start).filterMap fun names =>
      if r.isSource (p.root.down names) && r.reaches t start start names then
        some (p.root.down names)
      else none) := by
  unfold list at h
  rw [hresolve] at h
  dsimp only at h
  split_ifs at h
  · rw [← Except.ok.inj h]
    exact List.mergeSort_perm _ _

/-- What is listed are the files below the folder that the walk reaches. -/
theorem mem_list (h : r.list t p = .ok files) {start : Address}
    (hresolve : t.resolve p.root = .ok start) {f : Path} :
    f ∈ files ↔ ∃ names ∈ t.filesBelow start, f = p.root.down names ∧
      r.isSource f ∧ r.reaches t start start names := by
  rw [(perm_list h hresolve).mem_iff, List.mem_filterMap]
  constructor
  · rintro ⟨names, hnames, hf⟩
    split_ifs at hf with hlisted
    · rw [Bool.and_eq_true] at hlisted
      rw [Option.some.injEq] at hf
      subst hf
      exact ⟨names, hnames, rfl, hlisted⟩
  · rintro ⟨names, hnames, rfl, hsource, hreaches⟩
    refine ⟨names, hnames, ?_⟩
    rw [if_pos (by rw [hsource, hreaches]; rfl)]

end SourceRules

/-- Whether a file is listed for a project. -/
def SourceRules.Lists (r : SourceRules) (t : FileTree) (p : Project) (k : Place) : Prop :=
  ∃ files, r.list t p = .ok files ∧ k ∈ files.map Path.place

namespace FileTree.Proper

variable {r : SourceRules} {t : FileTree} {p : Project} {files : List Path} {names : List String}

theorem isName_of_mem_filesBelow (ht : t.Proper) {start : Address}
    (h : names ∈ t.filesBelow start) : ∀ n ∈ names, Path.IsName n := by
  obtain ⟨text, m, hget⟩ := mem_filesBelow.mp h
  intro n hn
  exact ht.isName _ _ hget n (List.mem_append_right start hn)

/-- A listed path is one of a file below the folder of the project. -/
theorem exists_names_of_mem_list (ht : t.Proper) (h : r.list t p = .ok files) {start : Address}
    (hresolve : t.resolve p.root = .ok start) {f : Path} (hf : f ∈ files) :
    ∃ names, (∀ n ∈ names, Path.IsName n) ∧ f = p.root.down names ∧
      (t.textAt? (start ++ names)).isSome := by
  obtain ⟨names, hnames, hdown, -, -⟩ := (SourceRules.mem_list h hresolve).mp hf
  refine ⟨names, ht.isName_of_mem_filesBelow hnames, hdown, ?_⟩
  obtain ⟨text, m, hget⟩ := mem_filesBelow.mp hnames
  have hnode : t.node? (start ++ names) = some (.file text m) := by
    rw [node?_of_ne_nil t (ht.ne_nil _ _ hget), hget]
  rw [textAt?_eq_some_iff.mpr ⟨m, hnode⟩]
  rfl

/-- A listed path leads to a file below the folder of the project. -/
theorem resolve_of_mem_list (ht : t.Proper) (h : r.list t p = .ok files) {f : Path}
    (hf : f ∈ files) : ∃ start names, t.resolve p.root = .ok start ∧ t.isFolderAt start ∧
      (∀ n ∈ names, Path.IsName n) ∧ f = p.root.down names ∧
      t.resolve f = .ok (start ++ names) ∧ (t.textAt? (start ++ names)).isSome := by
  obtain ⟨start, hstart, hfolder⟩ := SourceRules.exists_folder_of_list h
  obtain ⟨names, hnames, hdown, htext⟩ := ht.exists_names_of_mem_list h hstart hf
  refine ⟨start, names, hstart, hfolder, hnames, hdown, ?_, htext⟩
  rw [hdown, resolve_down hnames hstart]
  exact ht.foldlM_step hfolder hnames htext

theorem nodup_map_place_list (ht : t.Proper) (h : r.list t p = .ok files) :
    (files.map Path.place).Nodup := by
  obtain ⟨start, hresolve, -⟩ := SourceRules.exists_folder_of_list h
  have hperm := (SourceRules.perm_list h hresolve).map Path.place
  rw [hperm.nodup_iff, List.Nodup, List.pairwise_map, List.pairwise_filterMap]
  refine (t.nodup_filesBelow start).imp_of_mem ?_
  intro names names' hnames hnames' hne f hf f' hf' heq
  apply hne
  split_ifs at hf with hlisted
  · split_ifs at hf' with hlisted'
    · rw [Option.some.injEq] at hf hf'
      subst hf hf'
      exact Path.eq_of_place_down_eq (ht.isName_of_mem_filesBelow hnames)
        (ht.isName_of_mem_filesBelow hnames') heq

end FileTree.Proper

end SymbolAtlas
