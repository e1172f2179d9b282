import SymbolAtlas.Proofs.Files.Listing
import SymbolAtlas.Proofs.Index.Files
import SymbolAtlas.Proofs.Scanner

/-!
# A solution in a file tree

The projects of a solution have folders of their own, so every file belongs to one of them at most.
An index that is built from scratch holds, for a listed file, what the file declares for its
project, and nothing for any other file.
-/

namespace SymbolAtlas

namespace Solution

/-- The projects of a solution have names and folders of their own. -/
structure Apart (s : Solution) (t : FileTree) : Prop where
  nodup : (s.projects.map Project.name).Nodup
  isAbsolute : ∀ p ∈ s.projects, p.root.isAbsolute
  places : ∀ p ∈ s.projects, ∀ q ∈ s.projects, p.name ≠ q.name → ¬ p.root.place <+: q.root.place
  folders : ∀ p ∈ s.projects, ∀ q ∈ s.projects, p.name ≠ q.name → ∀ a b,
    t.resolve p.root = .ok a → t.resolve q.root = .ok b → ¬ a <+: b

variable {s : Solution} {t : FileTree} {p q : Project} {names : List String}

theorem Apart.eq_of_name_eq (h : s.Apart t) (hp : p ∈ s.projects) (hq : q ∈ s.projects)
    (hname : p.name = q.name) : p = q :=
  List.inj_on_of_nodup_map h.nodup hp hq hname

/-- A file below the folder of a project is below no other one. -/
theorem Apart.eq_of_prefix (h : s.Apart t) (hp : p ∈ s.projects) (hq : q ∈ s.projects)
    (hn : ∀ n ∈ names, Path.IsName n) (hbelow : q.root.place <+: (p.root.down names).place) :
    p = q := by
  by_contra hne
  have hname : p.name ≠ q.name := fun heq => hne (h.eq_of_name_eq hp hq heq)
  rcases Path.prefix_or_prefix_of_down hn hbelow with hqp | hpq
  · exact h.places q hq p hp hname.symm hqp
  · exact h.places p hp q hq hname hpq

end Solution

/-! ## The collected symbols -/

namespace Solution

variable {s : Solution} {t : FileTree} {p : Project} {names : List String} {k : Scanner}

/-- The symbols of each project, in an index that is built from scratch. -/
theorem mem_toList_projects_collect (h : s.Apart t) (src : Sources) {name : String}
    {symbols : List Symbol} : (name, symbols) ∈ (src.collect s).projects.toList ↔
      ∃ p ∈ s.projects, p.name = name ∧ (src.collectProject p).symbols = symbols := by
  have hprojects : (src.collect s).projects =
      (s.projects.map fun p => (p.name, (src.collectProject p).symbols)).foldl
        (fun m e => m.insert e.1 e.2) {} := by
    unfold Sources.collect Collection.ofOutcomes
    rw [List.foldl_map, List.foldl_map]
  have hnodup : ((s.projects.map fun p => (p.name, (src.collectProject p).symbols)).map
      Prod.fst).Nodup := by
    rw [List.map_map]
    exact h.nodup
  rw [Std.TreeMap.mem_toList_iff_getElem?_eq_some, hprojects, getElem?_foldl_insert hnodup,
    List.mem_map]
  simp only [Prod.mk.injEq]

/-- The folders of all projects are there. -/
def Settled (s : Solution) (t : FileTree) : Prop :=
  ∀ p ∈ s.projects, ∃ start, t.resolve p.root = .ok start ∧ t.isFolderAt start

theorem symbols_collectProject (ht : t.Proper) {files : List Path}
    (hlist : k.rules.list t p = .ok files) :
    ((k.sources t).collectProject p).symbols =
      files.flatMap ((k.sources t).declared p.name) := by
  apply Sources.symbols_collectProject (Scanner.list_sources.mpr hlist)
  intro f hf
  obtain ⟨start, hresolve, hfolder⟩ := SourceRules.exists_folder_of_list hlist
  obtain ⟨names, hnames, rfl, htext⟩ := ht.exists_names_of_mem_list hlist hresolve hf
  change t.isFile (p.root.down names)
  rw [t.isFile_eq, ht.readText?_down hresolve hfolder hnames]
  exact htext

/-- A listed file is below the root of its project. -/
theorem exists_names_of_lists (ht : t.Proper) {f : Place} (h : k.rules.Lists t p f) :
    ∃ names, (∀ n ∈ names, Path.IsName n) ∧ f = (p.root.down names).place := by
  obtain ⟨files, hlist, hin⟩ := h
  obtain ⟨start, hresolve, -⟩ := SourceRules.exists_folder_of_list hlist
  obtain ⟨g, hg, rfl⟩ := List.mem_map.mp hin
  obtain ⟨names, hnames, rfl, -⟩ := ht.exists_names_of_mem_list hlist hresolve hg
  exact ⟨names, hnames, rfl⟩

/-- A project has no symbols of files that it does not list. -/
theorem filter_symbols_of_not_lists (ht : t.Proper) (hs : s.Settled t) (hp : p ∈ s.projects)
    {f : Place} (hlists : ¬ k.rules.Lists t p f) :
    ((k.sources t).collectProject p).symbols.filter (fun u => u.file.place = f) = [] := by
  obtain ⟨start, hresolve, hfolder⟩ := hs p hp
  obtain ⟨files, hlist⟩ := SourceRules.exists_list_of_folder (r := k.rules) hresolve hfolder
  rw [symbols_collectProject ht hlist]
  apply (k.attributes_sources t).filter_flatMap_declared_of_not_mem
  exact fun hin => hlists ⟨files, hlist, hin⟩

/-- The symbols of one file among those that are collected. -/
theorem filter_symbols_collect (ht : t.Proper) (h : s.Apart t) (hs : s.Settled t)
    (hp : p ∈ s.projects) (hn : ∀ n ∈ names, Path.IsName n) :
    ((k.sources t).collect s).symbols.filter
        (fun u => u.file.place = (p.root.down names).place) =
      ((k.sources t).collectProject p).symbols.filter
        (fun u => u.file.place = (p.root.down names).place) := by
  unfold Collection.symbols
  rw [List.filter_flatMap]
  have hentry := (mem_toList_projects_collect h (k.sources t)).mpr ⟨p, hp, rfl, rfl⟩
  have hnodup := nodup_keys_toList ((k.sources t).collect s).projects
  rw [flatMap_eq_of_forall_ne (List.Nodup.of_map _ hnodup) hentry]
  rintro ⟨name, symbols⟩ hmem hne
  obtain ⟨q, hq, rfl, rfl⟩ := (mem_toList_projects_collect h (k.sources t)).mp hmem
  apply filter_symbols_of_not_lists ht hs hq
  intro hlists
  obtain ⟨names', hnames', hplace⟩ := exists_names_of_lists ht hlists
  have hbelow : q.root.place <+: (p.root.down names).place := by
    rw [hplace, Path.place_down hnames']
    exact List.prefix_append _ _
  rw [h.eq_of_prefix hp hq hn hbelow] at hne
  exact hne rfl

/-- What an index that is built from scratch holds for a listed file. -/
theorem inFile_rebuild_of_lists (ht : t.Proper) (h : s.Apart t) (hs : s.Settled t)
    (hp : p ∈ s.projects) (hn : ∀ n ∈ names, Path.IsName n) (x : Snapshot)
    (hlists : k.rules.Lists t p (p.root.down names).place) :
    (x.rebuild ((k.sources t).collect s)).inFile (p.root.down names) =
      collapse ((k.sources t).declared p.name (p.root.down names)) := by
  obtain ⟨files, hlist, hin⟩ := hlists
  obtain ⟨start, hresolve, -⟩ := SourceRules.exists_folder_of_list hlist
  obtain ⟨f, hf, hplace⟩ := List.mem_map.mp hin
  obtain ⟨names', hnames', rfl, -⟩ := ht.exists_names_of_mem_list hlist hresolve hf
  have heq := Path.eq_of_place_down_eq hnames' hn hplace
  subst heq
  rw [Snapshot.inFile_rebuild, filter_symbols_collect ht h hs hp hn,
    symbols_collectProject ht hlist]
  have hnodup := ht.nodup_map_place_list hlist
  rw [(k.attributes_sources t).filter_flatMap_declared hnodup hf]

/-- An index that is built from scratch holds nothing for a file that is not listed. -/
theorem inFile_rebuild_of_not_lists (ht : t.Proper) (h : s.Apart t) (hs : s.Settled t)
    (hp : p ∈ s.projects) (hn : ∀ n ∈ names, Path.IsName n) (x : Snapshot)
    (hlists : ¬ k.rules.Lists t p (p.root.down names).place) :
    (x.rebuild ((k.sources t).collect s)).inFile (p.root.down names) = [] := by
  rw [Snapshot.inFile_rebuild, filter_symbols_collect ht h hs hp hn,
    filter_symbols_of_not_lists ht hs hp hlists]
  rfl

/-- An index that is built from scratch holds nothing for a path below no project. -/
theorem inFile_rebuild_of_foreign (ht : t.Proper) (h : s.Apart t) (hs : s.Settled t)
    (x : Snapshot) {f : Path} (hf : ∀ p ∈ s.projects, ∀ names, (∀ n ∈ names, Path.IsName n) →
      f.place ≠ (p.root.down names).place) :
    (x.rebuild ((k.sources t).collect s)).inFile f = [] := by
  rw [Snapshot.inFile_rebuild]
  have hnone : ((k.sources t).collect s).symbols.filter
      (fun u => u.file.place = f.place) = [] := by
    unfold Collection.symbols
    rw [List.filter_flatMap, List.flatMap_eq_nil_iff]
    rintro ⟨name, symbols⟩ hmem
    obtain ⟨q, hq, rfl, rfl⟩ := (mem_toList_projects_collect h (k.sources t)).mp hmem
    apply filter_symbols_of_not_lists ht hs hq
    intro hlists
    obtain ⟨names, hnames, hplace⟩ := exists_names_of_lists ht hlists
    exact hf q hq names hnames hplace
  rw [hnone]
  rfl

/-! ## Editing one file -/

theorem Settled.of_folders {u : FileTree} (hs : s.Settled t) (h : s.Apart t)
    (hu : ∀ a, t.isFolderAt a → u.isFolderAt a) : s.Settled u := by
  intro p hp
  obtain ⟨start, hresolve, hfolder⟩ := hs p hp
  exact ⟨start, FileTree.resolve_of_folders hu (h.isAbsolute p hp) hresolve, hu start hfolder⟩

theorem Apart.of_folders {u : FileTree} (h : s.Apart t) (hs : s.Settled t)
    (hu : ∀ a, t.isFolderAt a → u.isFolderAt a) : s.Apart u := by
  refine ⟨h.nodup, h.isAbsolute, h.places, fun p hp q hq hname a b ha hb => ?_⟩
  have hsame : ∀ r ∈ s.projects, ∀ c, u.resolve r.root = .ok c → t.resolve r.root = .ok c := by
    intro r hr c hc
    obtain ⟨start, hresolve, -⟩ := hs r hr
    rw [FileTree.resolve_of_folders hu (h.isAbsolute r hr) hresolve] at hc
    cases hc
    exact hresolve
  exact h.folders p hp q hq hname a b (hsame p hp a ha) (hsame q hq b hb)

/-- Files of different places stand in different places of the tree. -/
theorem Apart.append_ne {q : Project} {names' : List String} {a b : Address} (h : s.Apart t)
    (hp : p ∈ s.projects) (hq : q ∈ s.projects) (ha : t.resolve p.root = .ok a)
    (hb : t.resolve q.root = .ok b) (hne : (p.root.down names).place ≠ (q.root.down names').place) :
    a ++ names ≠ b ++ names' := by
  intro heq
  have hcomparable : a <+: b ∨ b <+: a :=
    List.prefix_or_prefix_of_prefix (List.prefix_append a names)
      (heq ▸ List.prefix_append b names')
  have hpq : p = q := by
    apply h.eq_of_name_eq hp hq
    by_contra hname
    rcases hcomparable with hab | hba
    · exact h.folders p hp q hq hname a b ha hb hab
    · exact h.folders q hq p hp (Ne.symm hname) b a hb ha hba
  subst hpq
  rw [ha] at hb
  cases hb
  rw [List.append_cancel_left_eq] at heq
  rw [heq] at hne
  exact hne rfl

/-- An edit of one file does not change what the others declare. -/
theorem declared_of_differs {u : FileTree} {q : Project} {names' : List String} {a : Address}
    (ht : t.Proper) (hu : u.Proper) (h : s.Apart t) (hs : s.Settled t) (hp : p ∈ s.projects)
    (ha : t.resolve p.root = .ok a) (hdiffers : u.Differs t (a ++ names)) (hq : q ∈ s.projects)
    (hnames' : ∀ n ∈ names', Path.IsName n)
    (hne : (q.root.down names').place ≠ (p.root.down names).place) (project : String) :
    (k.sources u).declared project (q.root.down names') =
      (k.sources t).declared project (q.root.down names') := by
  obtain ⟨b, hb, hfolder⟩ := hs q hq
  have habsolute := h.isAbsolute q hq
  have hb' := FileTree.resolve_of_folders hdiffers.isFolderAt habsolute hb
  apply k.declared_congr
  rw [hu.readText?_down hb' (hdiffers.isFolderAt b hfolder) hnames',
    ht.readText?_down hb hfolder hnames']
  exact hdiffers.textAt? _ (h.append_ne hq hp hb ha hne)

end Solution

end SymbolAtlas
