import Mathlib.Logic.Relation
import SymbolAtlas.Proofs.Upkeep.Updater

/-!
# Keeping an index current

A solution is loaded and tracked. Then files are written and removed below the folders of its
projects, and every such edit is reported at some time. When nothing is under way any more, the
index holds what is declared by the files that were listed at first or have been reported. An index
that is built from scratch holds what is declared by the files that are listed now.
-/

namespace SymbolAtlas

/-- An index that is kept current while files are edited. -/
structure Upkeep where
  tree : FileTree
  updater : Updater
  index : Snapshot
  /-- The files that were edited after they were last reported. -/
  unreported : List Place := []
  /-- The files that were ever reported. -/
  reported : List Place := []

namespace Upkeep

/-- Tracks all projects of a solution. -/
def registerAll (k : Scanner) (t : FileTree) (settings : Updater.Settings) (s : Solution) :
    Except String Updater :=
  s.projects.foldlM (fun u p => (u.register (k.sources t) p).map Prod.snd)
    (.new settings s.dependencies)

/-- Begins with an index that is built from scratch. -/
def load (k : Scanner) (s : Solution) (t : FileTree) (updater : Updater) (x : Snapshot) :
    Upkeep where
  tree := t
  updater
  index := x.rebuild ((k.sources t).collect s)

/-- What can happen next. Files are edited below the folders of projects only. A report comes for
any file there, and any kind of change may be told. No files are parsed while others wait to be
put into the index. -/
inductive Step (k : Scanner) (s : Solution) : Upkeep → Upkeep → Prop
  | write {g : Upkeep} {p : Project} {start : Address} {names : List String} (now : Nat)
      (text : String) (modified : Nat) (hp : p ∈ s.projects)
      (hstart : g.tree.resolve p.root = .ok start) (hnames : ∀ n ∈ names, Path.IsName n) :
      Step k s g { g with
        tree := g.tree.write now (start ++ names) text modified
        unreported := (p.root.down names).place :: g.unreported }
  | remove {g : Upkeep} {p : Project} {start : Address} {names : List String} (now : Nat)
      (hp : p ∈ s.projects) (hstart : g.tree.resolve p.root = .ok start)
      (hnames : ∀ n ∈ names, Path.IsName n)
      (hfile : (g.tree.textAt? (start ++ names)).isSome) :
      Step k s g { g with
        tree := g.tree.remove now (start ++ names)
        unreported := (p.root.down names).place :: g.unreported }
  | report {g : Upkeep} {p : Project} {names : List String} (c : Change) (hp : p ∈ s.projects)
      (hnames : ∀ n ∈ names, Path.IsName n) :
      Step k s g { g with
        updater := (Updater.notify (k.sources g.tree) (fun _ us => us) (p.root.down names) c
          (g.updater, ())).1
        unreported := g.unreported.filter (· ≠ (p.root.down names).place)
        reported := (p.root.down names).place :: g.reported }
  | fire {g : Upkeep} : Step k s g { g with updater := g.updater.fire }
  | parse {g : Upkeep} (id : Nat) (hnone : g.updater.parsedSlices = []) :
      Step k s g { g with updater := g.updater.parse (k.sources g.tree) id }
  | apply {g : Upkeep} (id : Nat) :
      Step k s g { g with
        updater := (g.updater.apply g.index id).2.2
        index := (g.updater.apply g.index id).2.1 }

/-- Whether every edit has been reported and nothing is under way. -/
structure Quiet (g : Upkeep) : Prop where
  unreported : g.unreported = []
  batch : g.updater.batch.isEmpty
  tasks : g.updater.tasks = []

variable {k : Scanner} {s : Solution} {t₀ : FileTree} {g g' : Upkeep}

/-- The files that were listed at first or have been reported since. -/
def Known (k : Scanner) (s : Solution) (t₀ : FileTree) (reported : List Place) (q : Place) : Prop :=
  (∃ p ∈ s.projects, k.rules.Lists t₀ p q) ∨ q ∈ reported

/-- Whether a file has still to be parsed. -/
def Pending (g : Upkeep) (q : Place) : Prop := q ∈ g.unreported ∨ g.updater.Awaits q

/-- What holds all the time. For a known file that has not to be parsed any more, what was parsed
or else the index is as the file declares. -/
structure Kept (k : Scanner) (s : Solution) (known : Place → Prop) (g : Upkeep) : Prop where
  proper : g.tree.Proper
  apart : s.Apart g.tree
  settled : s.Settled g.tree
  updater : g.updater.Sound s known
  one : g.updater.parsedSlices.length ≤ 1
  parsed : ∀ slice ∈ g.updater.parsedSlices, SliceSound s known slice.project slice.files ∧
    ∀ u ∈ slice.symbols, u.file.place ∈ slice.files.map Path.place
  represents : ∃ l, g.index.Represents l
  unknown : ∀ f : Path, ¬ known f.place → g.index.inFile f = []
  fresh : ∀ name q, s.Owns name q → known q.place → ¬ g.Pending q.place →
    ∀ slice ∈ g.updater.parsedSlices, q.place ∈ slice.files.map Path.place →
      slice.symbols.filter (fun u => u.file.place = q.place) =
        (k.sources g.tree).declared name q
  current : ∀ name q, s.Owns name q → known q.place → ¬ g.Pending q.place →
    (∀ slice ∈ g.updater.parsedSlices, q.place ∉ slice.files.map Path.place) →
      g.index.inFile q = collapse ((k.sources g.tree).declared name q)

variable {known : Place → Prop} {p : Project} {start : Address} {names : List String}

/-! ## Edits -/

theorem Kept.edit (h : Kept k s known g) (hp : p ∈ s.projects)
    (hstart : g.tree.resolve p.root = .ok start) {u : FileTree} (hu : u.Proper)
    (hdiffers : u.Differs g.tree (start ++ names)) :
    Kept k s known { g with
      tree := u, unreported := (p.root.down names).place :: g.unreported } := by
  have hpending : ∀ q, ¬ Pending { g with
      tree := u, unreported := (p.root.down names).place :: g.unreported } q →
      q ≠ (p.root.down names).place ∧ ¬ g.Pending q := by
    intro q hq
    constructor
    · rintro rfl
      exact hq (.inl List.mem_cons_self)
    · rintro (hunreported | hawaits)
      · exact hq (.inl (List.mem_cons_of_mem _ hunreported))
      · exact hq (.inr hawaits)
  have hdeclared : ∀ name q, s.Owns name q → q.place ≠ (p.root.down names).place →
      (k.sources u).declared name q = (k.sources g.tree).declared name q := by
    rintro name q ⟨p', hp', -, names', hnames', rfl⟩ hne
    exact Solution.declared_of_differs h.proper hu h.apart h.settled hp hstart hdiffers hp' hnames'
      hne name
  refine ⟨hu, h.apart.of_folders h.settled hdiffers.isFolderAt,
    h.settled.of_folders h.apart hdiffers.isFolderAt, h.updater, h.one, h.parsed, h.represents,
    h.unknown, fun name q hq hknown hnot => ?_, fun name q hq hknown hnot => ?_⟩
  · obtain ⟨hne, hnot'⟩ := hpending q.place hnot
    rw [hdeclared name q hq hne]
    exact h.fresh name q hq hknown hnot'
  · obtain ⟨hne, hnot'⟩ := hpending q.place hnot
    rw [hdeclared name q hq hne]
    exact h.current name q hq hknown hnot'

/-- The names on the way to a file below the folder of a project. -/
theorem Kept.isName_append (h : Kept k s known g) (hp : p ∈ s.projects)
    (hstart : g.tree.resolve p.root = .ok start) (hnames : ∀ n ∈ names, Path.IsName n) :
    ∀ n ∈ start ++ names, Path.IsName n := by
  obtain ⟨start', hresolve, hfolder⟩ := h.settled p hp
  rw [hresolve] at hstart
  cases hstart
  intro n hn
  rcases List.mem_append.mp hn with hin | hin
  · obtain ⟨m, hm⟩ := FileTree.isFolderAt_iff.mp hfolder
    exact FileTree.isName_of_node? h.proper (by rw [hm]; rfl) n hin
  · exact hnames n hin

/-! ## Reports and tasks -/

/-- Whatever makes more files wait and leaves the tree and the index alone. -/
theorem Kept.wait (h : Kept k s known g) {known' : Place → Prop} {v : Updater}
    {unreported reported : List Place} (hv : v.Sound s known')
    (hslices : v.parsedSlices = g.updater.parsedSlices) (hknown : ∀ q, known q → known' q)
    (hpending : ∀ q, known' q → ¬ (q ∈ unreported ∨ v.Awaits q) → known q ∧ ¬ g.Pending q) :
    Kept k s known' { g with updater := v, unreported, reported } := by
  refine ⟨h.proper, h.apart, h.settled, hv, ?_, ?_, h.represents, ?_, ?_, ?_⟩
  · rw [hslices]
    exact h.one
  · intro slice hslice
    rw [hslices] at hslice
    obtain ⟨⟨hnodup, howns⟩, hplaces⟩ := h.parsed slice hslice
    exact ⟨⟨hnodup, fun q hq => (howns q hq).imp_right (hknown q.place)⟩, hplaces⟩
  · intro f hf
    exact h.unknown f fun hin => hf (hknown f.place hin)
  · intro name q hq hin hnot
    obtain ⟨hin', hnot'⟩ := hpending q.place hin hnot
    rw [hslices]
    exact h.fresh name q hq hin' hnot'
  · intro name q hq hin hnot
    obtain ⟨hin', hnot'⟩ := hpending q.place hin hnot
    rw [hslices]
    exact h.current name q hq hin' hnot'

/-- A file that is reported is known from then on and waits to be parsed. -/
theorem Kept.report (h : Kept k s (Known k s t₀ g.reported) g) (c : Change) (hp : p ∈ s.projects)
    (hnames : ∀ n ∈ names, Path.IsName n) :
    Kept k s (Known k s t₀ ((p.root.down names).place :: g.reported)) { g with
      updater := (Updater.notify (k.sources g.tree) (fun _ us => us) (p.root.down names) c
        (g.updater, ())).1
      unreported := g.unreported.filter (· ≠ (p.root.down names).place)
      reported := (p.root.down names).place :: g.reported } := by
  have hknown : ∀ q, Known k s t₀ g.reported q →
      Known k s t₀ ((p.root.down names).place :: g.reported) q := fun q hq =>
    hq.imp_right (List.mem_cons_of_mem _)
  have howns : s.Owns p.name (p.root.down names) := ⟨p, hp, rfl, names, hnames, rfl⟩
  obtain ⟨hsound, hslices, hkeeps, hawaits⟩ := (h.updater.mono hknown).notify h.apart howns
    (.inr List.mem_cons_self) (k.sources g.tree) c
  refine h.wait hsound hslices hknown fun q hq hnot => ⟨?_, ?_⟩
  · rcases hq with hlisted | hin
    · exact .inl hlisted
    · rcases List.mem_cons.mp hin with rfl | hin
      · exact absurd (.inr hawaits) hnot
      · exact .inr hin
  · rintro (hunreported | hold)
    · by_cases heq : q = (p.root.down names).place
      · subst heq
        exact hnot (.inr hawaits)
      · exact hnot (.inl (List.mem_filter.mpr ⟨hunreported, by simpa using heq⟩))
    · exact hnot (.inr (hkeeps q hold))

theorem Kept.fire (h : Kept k s known g) :
    Kept k s known { g with updater := g.updater.fire } := by
  obtain ⟨hsound, hslices, hkeeps⟩ := h.updater.fire
  refine h.wait hsound hslices (fun q hq => hq) fun q hq hnot => ⟨hq, ?_⟩
  rintro (hunreported | hold)
  · exact hnot (.inl hunreported)
  · exact hnot (.inr (hkeeps q hold))

theorem Kept.parse (h : Kept k s known g) (hnone : g.updater.parsedSlices = []) (id : Nat) :
    Kept k s known { g with updater := g.updater.parse (k.sources g.tree) id } := by
  rcases h.updater.parse hnone (k.sources g.tree) id with
    hsame | ⟨project, files, hslice, hsound, hslices, hkeeps⟩
  · rw [hsame]
    exact h
  have hsymbols : ((k.sources g.tree).collectFiles project files).symbols =
      files.flatMap ((k.sources g.tree).declared project) := Sources.symbols_collectFiles _ _ _
  have hattributes := k.attributes_sources g.tree
  have hpending : ∀ q, ¬ Pending { g with updater := g.updater.parse (k.sources g.tree) id } q →
      q ∉ files.map Path.place → ¬ g.Pending q := by
    rintro q hnot hin (hunreported | hawaits)
    · exact hnot (.inl hunreported)
    · rcases hkeeps q hawaits with hawaits' | hin'
      · exact hnot (.inr hawaits')
      · exact hin hin'
  refine ⟨h.proper, h.apart, h.settled, hsound, ?_, ?_, h.represents, h.unknown, ?_, ?_⟩
  · dsimp only
    rw [hslices]
    exact Nat.le_refl 1
  · intro slice hin
    dsimp only at hin
    rw [hslices, List.mem_singleton] at hin
    subst hin
    refine ⟨hslice, fun u hu => ?_⟩
    dsimp only at hu
    rw [hsymbols] at hu
    exact hattributes.of_mem_flatMap_declared hu
  · intro name q hq hknown hnot slice hin hfile
    dsimp only at hin
    rw [hslices, List.mem_singleton] at hin
    subst hin
    obtain ⟨q', hq', hplace⟩ := List.mem_map.mp hfile
    obtain ⟨rfl, rfl⟩ := (hslice.owns q' hq').1.eq_of_place_eq h.apart hq hplace
    dsimp only
    rw [hsymbols]
    exact hattributes.filter_flatMap_declared hslice.nodup hq'
  · intro name q hq hknown hnot hfile
    have hfile' : q.place ∉ files.map Path.place := hfile _ (by
      dsimp only
      rw [hslices]
      exact List.mem_singleton_self _)
    apply h.current name q hq hknown (hpending q.place hnot hfile')
    intro slice hin
    rw [hnone] at hin
    simp at hin

theorem Kept.apply (h : Kept k s known g) (id : Nat) :
    Kept k s known { g with
      updater := (g.updater.apply g.index id).2.2
      index := (g.updater.apply g.index id).2.1 } := by
  rcases h.updater.apply h.one g.index id with
    ⟨hindex, hsame⟩ | ⟨slice, hslices, hindex, hsound, hnone, hkeeps⟩
  · rw [hindex, hsame]
    exact h
  obtain ⟨l, hl⟩ := h.represents
  have hin : slice ∈ g.updater.parsedSlices := by
    rw [hslices]
    exact List.mem_singleton_self slice
  obtain ⟨hslice, hplaces⟩ := h.parsed slice hin
  have hpending : ∀ q, ¬ Pending { g with
      updater := (g.updater.apply g.index id).2.2
      index := (g.updater.apply g.index id).2.1 } q → ¬ g.Pending q := by
    rintro q hnot (hunreported | hawaits)
    · exact hnot (.inl hunreported)
    · exact hnot (.inr (hkeeps q hawaits))
  have hother : ∀ f : Path, f.place ∉ slice.files.map Path.place →
      (g.updater.apply g.index id).2.1.inFile f = g.index.inFile f := by
    intro f hf
    rw [hindex]
    apply hl.inFile_replaceFiles_of_not_mem hf
    intro u hu heq
    exact hf (heq ▸ hplaces u hu)
  refine ⟨h.proper, h.apart, h.settled, hsound, ?_, ?_, ?_, ?_, ?_, ?_⟩
  · dsimp only
    rw [hnone]
    exact Nat.zero_le 1
  · intro slice' hin'
    dsimp only at hin'
    rw [hnone] at hin'
    simp at hin'
  · dsimp only
    rw [hindex]
    exact ⟨_, hl.replaceFiles slice.files slice.symbols⟩
  · intro f hf
    dsimp only
    rw [hother f, h.unknown f hf]
    intro hfile
    obtain ⟨q, hq, hplace⟩ := List.mem_map.mp hfile
    rw [← hplace] at hf
    exact hf (hslice.owns q hq).2
  · intro name q hq hknown hnot slice' hin'
    dsimp only at hin'
    rw [hnone] at hin'
    simp at hin'
  · intro name q hq hknown hnot _
    dsimp only
    by_cases hfile : q.place ∈ slice.files.map Path.place
    · rw [hindex, hl.inFile_replaceFiles_of_mem slice.symbols hfile,
        h.fresh name q hq hknown (hpending q.place hnot) slice hin hfile]
    · rw [hother q hfile]
      apply h.current name q hq hknown (hpending q.place hnot)
      intro slice' hin'
      rw [hslices, List.mem_singleton] at hin'
      rw [hin']
      exact hfile

/-! ## Runs -/

theorem Kept.step (h : Kept k s (Known k s t₀ g.reported) g) (hstep : Step k s g g') :
    Kept k s (Known k s t₀ g'.reported) g' := by
  cases hstep with
  | write now text modified hp hstart hnames =>
      obtain ⟨hproper, hdiffers⟩ :=
        h.proper.write now (h.isName_append hp hstart hnames) text modified
      exact h.edit hp hstart hproper hdiffers
  | remove now hp hstart hnames hfile =>
      obtain ⟨hproper, hdiffers⟩ := h.proper.remove now hfile
      exact h.edit hp hstart hproper hdiffers
  | report c hp hnames => exact h.report c hp hnames
  | fire => exact h.fire
  | parse id hnone => exact h.parse hnone id
  | apply id => exact h.apply id

theorem Kept.run (h : Kept k s (Known k s t₀ g.reported) g)
    (hrun : Relation.ReflTransGen (Step k s) g g') :
    Kept k s (Known k s t₀ g'.reported) g' := by
  induction hrun with
  | refl => exact h
  | tail _ hstep ih => exact ih.step hstep

/-- A listed file belongs to the project for which it is listed. -/
theorem owns_of_mem_list (ht : t₀.Proper) (hp : p ∈ s.projects) {files : List Path}
    (hlist : k.rules.list t₀ p = .ok files) {f : Path} (hf : f ∈ files) : s.Owns p.name f := by
  obtain ⟨start, hresolve, -⟩ := SourceRules.exists_folder_of_list hlist
  obtain ⟨names, hnames, hdown, -⟩ := ht.exists_names_of_mem_list hlist hresolve hf
  exact ⟨p, hp, rfl, names, hnames, hdown⟩

theorem foldlM_register (ht : t₀.Proper) (hs : s.Apart t₀) {projects : List Project}
    (hprojects : ∀ p ∈ projects, p ∈ s.projects) {u v : Updater}
    (hu : u.tracking.Sound s (Known k s t₀ []))
    (hv : projects.foldlM (fun (u : Updater) p => (u.register (k.sources t₀) p).map Prod.snd) u =
      .ok v) :
    ∃ tracking, v = { u with tracking } ∧ tracking.Sound s (Known k s t₀ []) ∧
      (∀ p ∈ s.projects, u.tracking.projects[p.name]? = some p ∨ p ∈ projects →
        tracking.projects[p.name]? = some p) ∧
      ∀ p ∈ projects, ∃ files, k.rules.list t₀ p = .ok files := by
  induction projects generalizing u with
  | nil =>
      cases hv
      refine ⟨v.tracking, rfl, hu, fun p _ hp => ?_, by simp⟩
      simpa using hp
  | cons p rest ih =>
      have hp := hprojects p List.mem_cons_self
      rw [List.foldlM_cons] at hv
      unfold Updater.register at hv
      cases hregister : u.tracking.register (k.sources t₀) p with
      | error e =>
          rw [hregister] at hv
          cases hv
      | ok result =>
          obtain ⟨n, tracking⟩ := result
          rw [hregister] at hv
          obtain ⟨hsound, ⟨files, hlist⟩, hget⟩ := hu.register hp hregister (by
            intro files hlist f hf
            have hlist' := Scanner.list_sources.mp hlist
            exact ⟨owns_of_mem_list ht hp hlist' hf,
              .inl ⟨p, hp, files, hlist', List.mem_map_of_mem hf⟩⟩)
          obtain ⟨tracking', rfl, hsound', hcomplete, hlists⟩ :=
            ih (u := { u with tracking })
              (fun p' hp' => hprojects p' (List.mem_cons_of_mem p hp')) hsound hv
          refine ⟨tracking', rfl, hsound', fun p' hp' hin => hcomplete p' hp' ?_, ?_⟩
          · dsimp only
            rw [hget]
            by_cases hname : p.name = p'.name
            · rw [if_pos hname, hs.eq_of_name_eq hp hp' hname]
              exact .inl rfl
            · rw [if_neg hname]
              refine hin.imp_right fun hmem => ?_
              rcases List.mem_cons.mp hmem with rfl | hrest
              · exact absurd rfl hname
              · exact hrest
          · intro p' hp'
            rcases List.mem_cons.mp hp' with rfl | hrest
            · exact ⟨files, Scanner.list_sources.mp hlist⟩
            · exact hlists p' hrest

theorem registerAll_sound (ht : t₀.Proper) (hs : s.Apart t₀) {settings : Updater.Settings}
    {u : Updater} (hu : registerAll k t₀ settings s = .ok u) :
    s.Settled t₀ ∧ u.Sound s (Known k s t₀ []) ∧ u.tasks = [] := by
  obtain ⟨tracking, rfl, hsound, hcomplete, hlists⟩ :=
    foldlM_register ht hs (fun p hp => hp) (Tracking.sound_empty s _) hu
  refine ⟨fun p hp => ?_, ⟨rfl, ?_, List.nodup_nil, hsound, fun p hp => ?_, ?_, ?_⟩, rfl⟩
  · obtain ⟨files, hlist⟩ := hlists p hp
    exact SourceRules.exists_folder_of_list hlist
  · exact Updater.numbered_new settings s.dependencies
  · exact hcomplete p hp (.inr hp)
  · intro q e he
    change ({} : Std.TreeMap Place FileEvent)[q]? = some e at he
    simp at he
  · intro t ht
    change t ∈ ([] : List UpdateTask) at ht
    simp at ht

/-- A file belongs to the project for which it is listed. -/
theorem Lists.eq_project (ht : t₀.Proper) (hs : s.Apart t₀) (hp : p ∈ s.projects)
    (hnames : ∀ n ∈ names, Path.IsName n) {p' : Project} (hp' : p' ∈ s.projects)
    (hlists : k.rules.Lists t₀ p' (p.root.down names).place) : p' = p := by
  obtain ⟨files, hlist, hin⟩ := hlists
  obtain ⟨f, hf, hplace⟩ := List.mem_map.mp hin
  have howns := owns_of_mem_list ht hp' hlist hf
  have howns' : s.Owns p.name (p.root.down names) := ⟨p, hp, rfl, names, hnames, rfl⟩
  exact hs.eq_of_name_eq hp' hp (howns.eq_of_place_eq hs howns' hplace).1

theorem kept_load (ht : t₀.Proper) (hs : s.Apart t₀) {settings : Updater.Settings} {u : Updater}
    (hu : registerAll k t₀ settings s = .ok u) (x : Snapshot) :
    Kept k s (Known k s t₀ []) (load k s t₀ u x) := by
  obtain ⟨hsettled, hsound, htasks⟩ := registerAll_sound ht hs hu
  have hnone : u.parsedSlices = [] := by
    unfold Updater.parsedSlices
    rw [htasks]
    rfl
  have hrepresents := Snapshot.represents_ofSymbols (x.generation + 1)
    ((k.sources t₀).collect s).symbols
  have hslices : ∀ slice ∈ (load k s t₀ u x).updater.parsedSlices, False := by
    intro slice hslice
    change slice ∈ u.parsedSlices at hslice
    rw [hnone] at hslice
    simp at hslice
  refine ⟨ht, hs, hsettled, hsound, ?_, fun slice hslice => (hslices slice hslice).elim,
    ⟨_, hrepresents⟩, fun f hf => ?_,
    fun _ _ _ _ _ slice hslice => (hslices slice hslice).elim,
    fun name q hq hknown _ _ => ?_⟩
  · change u.parsedSlices.length ≤ 1
    rw [hnone]
    exact Nat.zero_le 1
  · change (x.rebuild ((k.sources t₀).collect s)).inFile f = []
    by_cases hforeign : ∃ p ∈ s.projects, ∃ names, (∀ n ∈ names, Path.IsName n) ∧
        f.place = (p.root.down names).place
    · obtain ⟨p, hp, names, hnames, hplace⟩ := hforeign
      have hnot : ¬ k.rules.Lists t₀ p (p.root.down names).place := by
        rw [← hplace]
        exact fun hlists => hf (.inl ⟨p, hp, hlists⟩)
      unfold Snapshot.inFile
      rw [hplace]
      exact Solution.inFile_rebuild_of_not_lists ht hs hsettled hp hnames x hnot
    · apply Solution.inFile_rebuild_of_foreign ht hs hsettled
      intro p hp names hnames hplace
      exact hforeign ⟨p, hp, names, hnames, hplace⟩
  · obtain ⟨p, hp, rfl, names, hnames, rfl⟩ := hq
    rcases hknown with ⟨p', hp', hlists⟩ | hin
    · rw [Lists.eq_project ht hs hp hnames hp' hlists] at hlists
      exact Solution.inFile_rebuild_of_lists ht hs hsettled hp hnames x hlists
    · simp at hin

/-! ## What a run comes to -/

/-- When nothing is under way, the index holds for each known file what it declares. -/
theorem Kept.inFile_eq (h : Kept k s known g) (hquiet : g.Quiet) {name : String} {q : Path}
    (hq : s.Owns name q) (hknown : known q.place) :
    g.index.inFile q = collapse ((k.sources g.tree).declared name q) := by
  apply h.current name q hq hknown
  · rintro (hunreported | ⟨e, he⟩ | ⟨t, ht, -⟩)
    · rw [hquiet.unreported] at hunreported
      simp at hunreported
    · rw [Std.TreeMap.getElem?_of_isEmpty hquiet.batch] at he
      simp at he
    · rw [hquiet.tasks] at ht
      simp at ht
  · intro slice hslice
    unfold Updater.parsedSlices at hslice
    rw [hquiet.tasks] at hslice
    simp at hslice

/-- Only files of projects are reported. -/
theorem owns_of_mem_reported (hrun : Relation.ReflTransGen (Step k s) g g') {q : Place}
    (hq : q ∈ g'.reported) : q ∈ g.reported ∨ ∃ name f, s.Owns name f ∧ q = f.place := by
  induction hrun with
  | refl => exact .inl hq
  | tail _ hstep ih =>
      cases hstep with
      | write | remove | fire | parse | apply => exact ih hq
      | report c hp hnames =>
          rcases List.mem_cons.mp hq with rfl | hin
          · exact .inr ⟨_, _, ⟨_, hp, rfl, _, hnames, rfl⟩, rfl⟩
          · exact ih hin

theorem collapse_eq_nil {symbols : List Symbol} : collapse symbols = [] ↔ symbols = [] := by
  constructor
  · intro h
    by_contra hne
    obtain ⟨u, rest, rfl⟩ := List.exists_cons_of_ne_nil hne
    have hmem : u.identity ∈ (collapse (u :: rest)).map Symbol.identity :=
      mem_map_identity_collapse.mpr List.mem_cons_self
    rw [h] at hmem
    simp at hmem
  · rintro rfl
    rfl

/-- An index that was kept current is as one built from scratch for a file that declares nothing.
For any other file it is if and only if the file is listed now just when it was listed at first or
has been reported: a report takes in a file that the walk passes over. -/
theorem inFile_eq_inFile_rebuild_iff (ht : t₀.Proper) (hs : s.Apart t₀)
    {settings : Updater.Settings} {u : Updater} (hu : registerAll k t₀ settings s = .ok u)
    (x : Snapshot) (hrun : Relation.ReflTransGen (Step k s) (load k s t₀ u x) g)
    (hquiet : g.Quiet) (f : Path) :
    let fresh := g.index.rebuild ((k.sources g.tree).collect s)
    ((∀ p ∈ s.projects, ∀ names, (∀ n ∈ names, Path.IsName n) →
        f.place ≠ (p.root.down names).place) → g.index.inFile f = fresh.inFile f) ∧
    ∀ p ∈ s.projects, ∀ names, (∀ n ∈ names, Path.IsName n) →
      f.place = (p.root.down names).place →
      (g.index.inFile f = fresh.inFile f ↔
        (k.sources g.tree).declared p.name (p.root.down names) = [] ∨
        ((k.rules.Lists t₀ p f.place ∨ f.place ∈ g.reported) ↔
          k.rules.Lists g.tree p f.place)) := by
  intro fresh
  have hkept := (kept_load ht hs hu x).run hrun
  constructor
  · intro hforeign
    have hunknown : ¬ Known k s t₀ g.reported f.place := by
      rintro (⟨p, hp, files, hlist, hin⟩ | hin)
      · obtain ⟨f', hf', hplace⟩ := List.mem_map.mp hin
        obtain ⟨p', hp', -, names, hnames, rfl⟩ := owns_of_mem_list ht hp hlist hf'
        exact hforeign p' hp' names hnames hplace.symm
      · rcases owns_of_mem_reported hrun hin with
          hnone | ⟨_, _, ⟨p, hp, -, names, hnames, rfl⟩, hplace⟩
        · simp [load] at hnone
        · exact hforeign p hp names hnames hplace
    rw [hkept.unknown f hunknown]
    exact (Solution.inFile_rebuild_of_foreign hkept.proper hkept.apart hkept.settled g.index
      hforeign).symm
  · intro p hp names hnames hplace
    have howns : s.Owns p.name (p.root.down names) := ⟨p, hp, rfl, names, hnames, rfl⟩
    have hsame : ∀ y : Snapshot, y.inFile f = y.inFile (p.root.down names) := fun y => by
      unfold Snapshot.inFile
      rw [hplace]
    have hknown : Known k s t₀ g.reported (p.root.down names).place ↔
        k.rules.Lists t₀ p (p.root.down names).place ∨
          (p.root.down names).place ∈ g.reported := by
      refine or_congr_left ⟨?_, fun hlists => ⟨p, hp, hlists⟩⟩
      rintro ⟨p', hp', hlists⟩
      rwa [Lists.eq_project ht hs hp hnames hp' hlists] at hlists
    rw [hsame, hsame, hplace, ← hknown]
    by_cases hin : Known k s t₀ g.reported (p.root.down names).place
    · rw [hkept.inFile_eq hquiet howns hin, iff_true_left hin]
      by_cases hlists : k.rules.Lists g.tree p (p.root.down names).place
      · have hfresh := Solution.inFile_rebuild_of_lists hkept.proper hkept.apart hkept.settled hp
          hnames g.index hlists
        exact iff_of_true hfresh.symm (.inr hlists)
      · have hfresh := Solution.inFile_rebuild_of_not_lists hkept.proper hkept.apart
          hkept.settled hp hnames g.index hlists
        rw [hfresh, collapse_eq_nil, or_iff_left hlists]
    · rw [hkept.unknown _ hin, iff_false_left hin]
      by_cases hlists : k.rules.Lists g.tree p (p.root.down names).place
      · have hfresh := Solution.inFile_rebuild_of_lists hkept.proper hkept.apart hkept.settled hp
          hnames g.index hlists
        rw [hfresh, eq_comm, collapse_eq_nil, or_iff_left (not_not_intro hlists)]
      · have hfresh := Solution.inFile_rebuild_of_not_lists hkept.proper hkept.apart
          hkept.settled hp hnames g.index hlists
        exact iff_of_true hfresh.symm (.inr hlists)

/-! ## A file in a folder that is passed over -/

/-- A solution of one project. -/
def plainProject : Project where
  name := "P"
  root := ⟨"/r"⟩

def plainSolution : Solution where
  name := "S"
  projects := [plainProject]

/-- A tree that has the folder of the project alone. -/
def plainTree : FileTree := ({} : FileTree).put ["r"] (.folder 0)

/-- An updater that tracks the project and holds nothing back. -/
def plainUpdater : Updater :=
  match registerAll (Config.scanner {}) plainTree { debounce := 0 } plainSolution with
  | .ok u => u
  | .error _ => .new {} {}

/-- The text of a file that declares a symbol. -/
def generatedText : String :=
  "[\x7b\"name\":\"Gen\",\"kind\":\"class\",\"file_path\":\"\",\"project_name\":\"\"\x7d]"

theorem apart_plainSolution : plainSolution.Apart plainTree where
  nodup := by decide
  isAbsolute := by
    intro p hp
    rw [List.mem_singleton.mp hp]
    decide
  places := by
    intro p hp q hq hname
    rw [List.mem_singleton.mp hp, List.mem_singleton.mp hq] at hname
    exact absurd rfl hname
  folders := by
    intro p hp q hq hname
    rw [List.mem_singleton.mp hp, List.mem_singleton.mp hq] at hname
    exact absurd rfl hname

theorem proper_plainTree : plainTree.Proper := by
  apply FileTree.proper_empty.put
  · decide
  · rfl
  · intro n hn
    rw [List.mem_singleton.mp hn]
    constructor <;> decide
  · exact .inl ⟨0, rfl⟩

/-- A file that is created in a folder for build results comes into the index when this is
reported, and is not in an index that is built from scratch. -/
theorem inFile_ne_inFile_rebuild_of_report :
    ∃ g, Relation.ReflTransGen (Step (Config.scanner {}) plainSolution)
        (load (Config.scanner {}) plainSolution plainTree plainUpdater {}) g ∧ g.Quiet ∧
      g.index.inFile ⟨"/r/obj/gen.json"⟩ ≠
        (g.index.rebuild (((Config.scanner {}).sources g.tree).collect plainSolution)).inFile
          ⟨"/r/obj/gen.json"⟩ := by
  have hp : plainProject ∈ plainSolution.projects := List.mem_singleton_self _
  have hnames : ∀ n ∈ ["obj", "gen.json"], Path.IsName n := by
    intro n hn
    rcases List.mem_cons.mp hn with rfl | hn
    · constructor <;> decide
    · rw [List.mem_singleton.mp hn]
      constructor <;> decide
  have hstart : plainTree.resolve plainProject.root = .ok ["r"] := by decide +kernel
  obtain ⟨g, hrun, hquiet, htree, hreported⟩ :
      ∃ g, Relation.ReflTransGen (Step (Config.scanner {}) plainSolution)
        (load (Config.scanner {}) plainSolution plainTree plainUpdater {}) g ∧ g.Quiet ∧
      g.tree = plainTree.write 0 ["r", "obj", "gen.json"] generatedText 0 ∧
      g.reported = [(⟨"/r/obj/gen.json"⟩ : Path).place] :=
    ⟨_, .tail (.tail (.tail (.single (.write 0 generatedText 0 hp hstart hnames))
      (.report .created hp hnames)) (.parse 0 (by decide +kernel))) (.apply 0),
      ⟨by decide +kernel, by decide +kernel, by decide +kernel⟩, rfl, by decide +kernel⟩
  have hregister : registerAll (Config.scanner {}) plainTree { debounce := 0 } plainSolution =
      .ok plainUpdater := by
    have hok :
        (registerAll (Config.scanner {}) plainTree { debounce := 0 } plainSolution).isOk := by
      decide +kernel
    unfold plainUpdater
    cases hregister : registerAll (Config.scanner {}) plainTree { debounce := 0 } plainSolution with
    | ok u => rfl
    | error e =>
        rw [hregister] at hok
        cases hok
  refine ⟨g, hrun, hquiet, ?_⟩
  have hiff := (inFile_eq_inFile_rebuild_iff proper_plainTree apart_plainSolution hregister {} hrun
    hquiet ⟨"/r/obj/gen.json"⟩).2 plainProject hp ["obj", "gen.json"] hnames (by decide +kernel)
  rw [ne_eq, hiff, htree, hreported]
  rintro (hnone | hlists)
  · have hsome : ((Config.scanner {}).sources
        (plainTree.write 0 ["r", "obj", "gen.json"] generatedText 0)).declared plainProject.name
          (plainProject.root.down ["obj", "gen.json"]) ≠ [] := by decide +kernel
    exact hsome hnone
  · obtain ⟨files, hlist, hin⟩ := hlists.mp (.inr List.mem_cons_self)
    have hempty : (Config.scanner {}).rules.list
        (plainTree.write 0 ["r", "obj", "gen.json"] generatedText 0) plainProject = .ok [] := by
      decide +kernel
    rw [hempty] at hlist
    cases hlist
    simp at hin

end Upkeep

end SymbolAtlas
