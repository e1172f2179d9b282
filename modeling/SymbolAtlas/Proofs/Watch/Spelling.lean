import SymbolAtlas.Proofs.Watch.Posts
import SymbolAtlas.Proofs.Watch.Startup

/-!
# How roots are spelled

Files are listed, tracked and indexed by paths that go down from the root of their project as it is
spelled. A watcher reports them by paths that go down from the root as it is seen from the working
folder. The two are one path if the root is absolute, whatever its spelling. Below a relative root
they lead to different places, so a change is never taken for one of the project, and over relative
roots alone nothing is indexed again whatever is edited.
-/

namespace SymbolAtlas

namespace FileTree

theorem isAbsolute_workingPath (t : FileTree) : t.workingPath.isAbsolute := by
  unfold workingPath Path.isAbsolute
  simp

/-- Every path is absolute when it is seen from the working folder. -/
theorem isAbsolute_join_workingPath (t : FileTree) (p : Path) :
    (t.workingPath.join p).isAbsolute :=
  Path.isAbsolute_down t.isAbsolute_workingPath [p.spelling]

theorem exists_fingerprint {t : FileTree} {p : Path} {a : Address} (h : t.resolve p = .ok a)
    (htext : (t.textAt? a).isSome) : ∃ look, t.fingerprint p = .ok look := by
  obtain ⟨text, htext⟩ := Option.isSome_iff_exists.mp htext
  obtain ⟨m, hm⟩ := textAt?_eq_some_iff.mp htext
  unfold fingerprint lookup
  rw [h]
  dsimp only
  rw [hm]
  exact ⟨_, rfl⟩

end FileTree

namespace Watcher

variable {t : FileTree} {root : Path} {settings : Settings} {w : Watcher}

/-- A folder can be watched. -/
theorem exists_start? (settings : Settings) {start : Address}
    (hresolve : t.resolve root = .ok start) (hfolder : t.isFolderAt start) :
    ∃ w, start? t root settings = some w := by
  obtain ⟨m, hm⟩ := FileTree.isFolderAt_iff.mp hfolder
  exact ⟨_, start?_eq_some.mpr ⟨start, hresolve, by rw [hm]; rfl, rfl⟩⟩

theorem post_of_start? (h : start? t root settings = some w) :
    ∃ start, t.resolve root = .ok start ∧ w.post = (root, start, t.workingPath.join root) := by
  obtain ⟨start, hresolve, -, rfl⟩ := start?_eq_some.mp h
  exact ⟨start, hresolve, rfl⟩

end Watcher

/-! ## Sessions -/

namespace Session

/-- What happens to a session that has been started: something is edited, or time passes. -/
inductive Moment where
  | edit (e : Edit)
  | sleep (time : Nat)

def advance (s : Session) : Moment → Session
  | .edit e => s.edit e
  | .sleep time => s.sleep time

/-- What comes of a session that has been started. -/
def live (s : Session) (moments : List Moment) : Session := moments.foldl advance s

variable {s s' : Session} {x : Solution} {posts : List (Path × Address × Path)}
  {projects : List Project}

theorem onPost_advance (h : s.schedule.OnPost x posts) (m : Moment) :
    (s.advance m).schedule.OnPost x posts := by
  cases m with
  | edit e =>
      refine ⟨?_, fun w hw => ?_, h.rooted⟩
      · rw [← h.posts]
        change (s.schedule.watchers.map _).map _ = _
        rw [List.map_map]
        exact List.map_congr_left fun w _ => w.post_foldl_sight _
      · obtain ⟨before, hbefore, rfl⟩ := List.mem_map.mp hw
        exact (h.faithful before hbefore).foldl_sight _
  | sleep time => exact h.run _ _ _

theorem onPost_live (h : s.schedule.OnPost x posts) (moments : List Moment) :
    (s.live moments).schedule.OnPost x posts := by
  induction moments generalizing s with
  | nil => exact h
  | cons m rest ih => exact ih (onPost_advance h m)

/-- If all that is reported strays from the roots, nothing is ever indexed again. -/
theorem rests_live {index : Snapshot} (h : s.schedule.Rests x index)
    (hs : s.schedule.OnPost x posts) (hposts : Schedule.StrayPosts x posts)
    (moments : List Moment) : (s.live moments).schedule.Rests x index := by
  induction moments generalizing s with
  | nil => exact h
  | cons m rest ih =>
      refine ih ?_ (onPost_advance hs m)
      cases m with
      | edit e => exact ⟨h.idle, h.parsing, h.index_eq, h.updates⟩
      | sleep time => exact h.run hs hposts _ _ _

/-! ## What a start comes to -/

theorem follow_registers
    (h : s.follow (projects.map fun p => .step (.register p)) = .ok s') :
    ∃ tracking, s.schedule.updater.tracking.registerAll (s.config.sources s.tree) projects =
        .ok tracking ∧
      s' = { s with schedule := { s.schedule with
        updater := { s.schedule.updater with tracking } } } := by
  induction projects generalizing s with
  | nil =>
      cases h
      exact ⟨_, rfl, rfl⟩
  | cons p rest ih =>
      rw [List.map_cons] at h
      obtain ⟨next, hnext, hrest⟩ := follow_cons_eq_ok.mp h
      cases proceeds_of_eq_ok hnext with
      | register _ n tracking hregister =>
          obtain ⟨last, hlast, rfl⟩ := ih hrest
          exact ⟨last, Tracking.registerAll_cons_eq_ok.mpr ⟨n, tracking, hregister, hlast⟩, rfl⟩

theorem follow_watches (h : s.follow (projects.map fun p => .step (.watch p)) = .ok s') :
    s' = { s with schedule := { s.schedule with
      watchers := s.schedule.watchers ++ projects.filterMap fun p =>
        Watcher.start? s.tree p.root s.config.watcherSettings } } := by
  induction projects generalizing s with
  | nil =>
      cases h
      rw [List.filterMap_nil, List.append_nil]
  | cons p rest ih =>
      rw [List.map_cons] at h
      obtain ⟨next, hnext, hrest⟩ := follow_cons_eq_ok.mp h
      cases proceeds_of_eq_ok hnext with
      | watch =>
          rw [ih hrest, List.filterMap_cons]
          cases Watcher.start? s.tree p.root s.config.watcherSettings <;> simp

/-- What a session has when it has been started: all projects are registered and watched, and
nothing has been indexed again. -/
structure Started (config : Config) (solution : Solution) (s : Session) : Prop where
  tracking : Tracking.registerAll {} (config.sources s.tree) solution.projects =
    .ok s.schedule.updater.tracking
  watchers : s.schedule.watchers = solution.projects.filterMap fun p =>
    Watcher.start? s.tree p.root config.watcherSettings
  batch : s.schedule.updater.batch = {}
  tasks : s.schedule.updater.tasks = []
  parsing : s.schedule.parsing = []
  updates : s.schedule.updates = []

theorem start_eq_follow (s : Session) : s.start = s.follow ((plan s.solution).map .step) := by
  unfold start follow
  rw [List.foldlM_map]
  rfl

theorem started_of_start {config : Config} {environment : Environment} {solution : Solution}
    {tree : FileTree} {now : Nat}
    (h : (new config environment solution tree now).start = .ok s) :
    s.Started config solution := by
  rw [start_eq_follow] at h
  unfold plan at h
  rw [List.map_append, List.map_append, List.map_map, List.map_map] at h
  obtain ⟨registered, hregistered, hwatch⟩ := follow_append_eq_ok.mp h
  obtain ⟨loaded, hloaded, hregister⟩ := follow_append_eq_ok.mp hregistered
  obtain ⟨loaded', hload, hnone⟩ := follow_cons_eq_ok.mp hloaded
  cases hnone
  cases proceeds_of_eq_ok hload with
  | load c hc =>
      obtain ⟨⟨⟨hconfig, -⟩, hschedule⟩, -⟩ := load_eq_ok hc
      obtain ⟨tracking, htracking, rfl⟩ := follow_registers hregister
      obtain rfl := follow_watches hwatch
      rw [hconfig, hschedule] at htracking
      constructor
      · exact htracking
      · dsimp only
        rw [hconfig, hschedule]
        rfl
      all_goals
        dsimp only
        rw [hschedule]
        rfl

theorem Started.onPost {config : Config} {solution : Solution} (h : s.Started config solution)
    (ht : s.tree.Proper) :
    s.schedule.OnPost solution (s.schedule.watchers.map Watcher.post) := by
  refine ⟨rfl, fun w hw => ?_, ?_⟩
  · rw [h.watchers] at hw
    obtain ⟨p, -, hstart⟩ := List.mem_filterMap.mp hw
    exact Watcher.faithful_of_start? hstart
  · refine (Tracking.rooted_empty solution).registerAll (fun p hp => hp) ?_ h.tracking
    intro p _ files hlist f hf
    obtain ⟨start, names, -, -, hnames, rfl, -⟩ :=
      ht.resolve_of_mem_list (Config.list_sources.mp hlist) hf
    rw [Path.place_down hnames]
    exact List.prefix_append _ _

theorem Started.rests {config : Config} {solution : Solution} (h : s.Started config solution)
    (ht : s.tree.Proper) : s.schedule.Rests solution s.schedule.index := by
  refine ⟨⟨(h.onPost ht).rooted, ?_, h.tasks⟩, h.parsing, rfl, h.updates⟩
  rw [h.batch]
  simp

/-- The roots of a session that has been started have a spelling. -/
theorem Started.spelling_ne_empty {config : Config} {solution : Solution}
    (h : s.Started config solution) {p : Project} (hp : p ∈ solution.projects) :
    p.root.spelling ≠ "" := by
  obtain ⟨files, hlist⟩ := Tracking.exists_list_of_registerAll h.tracking p hp
  obtain ⟨start, hresolve, -⟩ := SourceRules.exists_folder_of_list (Config.list_sources.mp hlist)
  exact FileTree.spelling_ne_empty_of_resolve hresolve

/-! ## What is reported of a session -/

variable {config : Config} {solution : Solution} {p : Project}

/-- Each post is that of a project. -/
theorem Started.exists_post (h : s.Started config solution) {w : Watcher}
    (hw : w.post ∈ s.schedule.watchers.map Watcher.post) :
    ∃ q ∈ solution.projects, ∃ start, s.tree.resolve q.root = .ok start ∧
      w.post = (q.root, start, s.tree.workingPath.join q.root) := by
  rw [h.watchers] at hw
  obtain ⟨first, hfirst, hpost⟩ := List.mem_map.mp hw
  obtain ⟨q, hq, hstart⟩ := List.mem_filterMap.mp hfirst
  obtain ⟨start, hresolve, hfirstPost⟩ := Watcher.post_of_start? hstart
  exact ⟨q, hq, start, hresolve, hpost.symm.trans hfirstPost⟩

/-- The watchers of a project stay at their post. -/
theorem Started.post_eq (h : s.Started config solution) (hp : p ∈ solution.projects)
    {start : Address} (hresolve : s.tree.resolve p.root = .ok start)
    (hfolder : s.tree.isFolderAt start) {g : Session}
    (hg : g.schedule.OnPost solution (s.schedule.watchers.map Watcher.post)) :
    (∃ w ∈ g.schedule.watchers, w.root = p.root) ∧
      ∀ w ∈ g.schedule.watchers, w.root = p.root →
        w.post = (p.root, start, s.tree.workingPath.join p.root) := by
  constructor
  · obtain ⟨first, hfirst⟩ := Watcher.exists_start? config.watcherSettings hresolve hfolder
    have hmem : first.post ∈ g.schedule.watchers.map Watcher.post := by
      rw [hg.posts, h.watchers]
      exact List.mem_map_of_mem (List.mem_filterMap.mpr ⟨p, hp, hfirst⟩)
    obtain ⟨w, hw, hpost⟩ := List.mem_map.mp hmem
    obtain ⟨_, -, hfirstPost⟩ := Watcher.post_of_start? hfirst
    exact ⟨w, hw, (Prod.mk.inj (hpost.trans hfirstPost)).1⟩
  · intro w hw hroot
    obtain ⟨q, -, start', hresolve', hpost⟩ :=
      h.exists_post (hg.posts ▸ List.mem_map_of_mem hw)
    have hq : q.root = p.root := (Prod.mk.inj hpost).1.symm.trans hroot
    rw [hq] at hresolve' hpost
    cases hresolve.symm.trans hresolve'
    exact hpost

/-- All paths that are reported are absolute. -/
theorem Started.isAbsolute_of_reports (h : s.Started config solution) {w : Watcher}
    (hw : w.post ∈ s.schedule.watchers.map Watcher.post) {q : Path} (hq : w.Reports q) :
    q.isAbsolute := by
  obtain ⟨p, -, start, -, hpost⟩ := h.exists_post hw
  have hreported : w.reported = s.tree.workingPath.join p.root :=
    (Prod.mk.inj (Prod.mk.inj hpost).2).2
  obtain ⟨a, -, rfl⟩ := hq
  unfold Watcher.reportedPath
  rw [hreported]
  exact Path.isAbsolute_down (s.tree.isAbsolute_join_workingPath p.root) _

/-- Over relative roots alone, all that is reported strays. -/
theorem Started.strayPosts (h : s.Started config solution)
    (hroots : ∀ q ∈ solution.projects, ¬ q.root.isAbsolute) :
    Schedule.StrayPosts solution (s.schedule.watchers.map Watcher.post) := by
  intro w hw q hq p hp hprefix
  have habsolute := h.isAbsolute_of_reports hw hq
  rw [← Path.isAbsolute_of_prefix (h.spelling_ne_empty hp) hprefix] at habsolute
  exact hroots p hp habsolute

/-- What is reported of a file of a project. -/
theorem Started.reportedPath_eq (h : s.Started config solution) (hp : p ∈ solution.projects)
    {names : List String} (hnames : ∀ n ∈ names, Path.IsName n) {w : Watcher} {start : Address}
    (hpost : w.post = (p.root, start, s.tree.workingPath.join p.root)) :
    w.Reports (w.reportedPath (start ++ names)) ∧
      ((w.reportedPath (start ++ names)).place = (p.root.down names).place ↔
        p.root.isAbsolute) ∧
      (p.root.isAbsolute → w.reportedPath (start ++ names) = p.root.down names) := by
  obtain ⟨-, hplace⟩ := Prod.mk.inj hpost
  obtain ⟨rfl, hreported⟩ := Prod.mk.inj hplace
  have hsame : p.root.isAbsolute → w.reportedPath (w.address ++ names) = p.root.down names := by
    intro habsolute
    rw [w.reportedPath_append, hreported]
    unfold Path.join
    rw [if_pos (by simp [habsolute])]
  refine ⟨⟨_, List.prefix_append _ _, rfl⟩, ⟨fun hplace => ?_, fun habsolute => ?_⟩, hsame⟩
  · have hprefix : p.root.place <+: (p.root.down names).place := by
      rw [Path.place_down hnames]
      exact List.prefix_append _ _
    rw [← hplace, w.reportedPath_append, hreported] at hprefix
    rw [Path.isAbsolute_of_prefix (h.spelling_ne_empty hp) hprefix]
    exact Path.isAbsolute_down (s.tree.isAbsolute_join_workingPath p.root) names
  · rw [hsame habsolute]

/-- Watched changes reach their project if and only if its root is absolute. A session has been
started, then files are edited and time passes. Whatever a watcher passes on is of a path that it
reports, and a file that was listed for a project is owned by a project that finds it. If the root
of the project is absolute, however it is spelled, the file is reported by the very path by which it
was listed, a change of it is taken for one of its owner, and this path is indexed again. If the
root is relative, the reported path leads to another place, and a change of it is only ever taken
for one of a project with an absolute root. If all roots are relative, nothing is indexed again. -/
theorem attribution {config : Config} {environment : Environment} {solution : Solution}
    {tree : FileTree} {now : Nat} {s : Session}
    (hstart : (new config environment solution tree now).start = .ok s) (ht : s.tree.Proper)
    (moments : List Moment) {p : Project} (hp : p ∈ solution.projects) {files : List Path}
    (hlist : (config.sources s.tree).list p = .ok files) {f : Path} (hf : f ∈ files) :
    let g := s.live moments
    let tracking := g.schedule.updater.tracking
    (∀ w ∈ g.schedule.watchers, ∀ n, ∀ c ∈ (w.takeIn n).1 ++ (w.look n).1, w.Reports c.path) ∧
    (∃ q ∈ solution.projects, (config.sources s.tree).Finds q f.place ∧
      s.schedule.updater.tracking.owners[f.place]? = some q.name) ∧
    (∀ v ∈ (config.sources s.tree).declared p.name f, v.file.place = f.place) ∧
    (∃ w ∈ g.schedule.watchers, w.root = p.root) ∧
    (∃ a, s.tree.resolve f = .ok a ∧ ∀ w ∈ g.schedule.watchers, w.root = p.root →
      w.Reports (w.reportedPath a) ∧
      ((w.reportedPath a).place = f.place ↔ p.root.isAbsolute) ∧
      (p.root.isAbsolute → w.reportedPath a = f ∧ ∀ owner,
        tracking.owners[f.place]? = some owner → tracking.TakesFor (w.reportedPath a) owner) ∧
      ∀ name, tracking.projectOf? (w.reportedPath a) = some name →
        ∃ q ∈ solution.projects, q.name = name ∧ q.root.isAbsolute) ∧
    ((∀ q ∈ solution.projects, ¬ q.root.isAbsolute) →
      g.schedule.index = s.schedule.index ∧ g.reports = 0) := by
  intro g tracking
  have hstarted := started_of_start hstart
  have hg : g.schedule.OnPost solution (s.schedule.watchers.map Watcher.post) :=
    onPost_live (hstarted.onPost ht) moments
  obtain ⟨start, names, hresolve, hfolder, hnames, rfl, hfile, htext⟩ :=
    ht.resolve_of_mem_list (Config.list_sources.mp hlist) hf
  obtain ⟨hwatched, hpost⟩ := hstarted.post_eq hp hresolve hfolder hg
  refine ⟨fun w hw n c hc => ?_, ?_, fun v hv => ?_, hwatched,
    ⟨start ++ names, hfile, fun w hw hroot => ?_⟩, fun hroots => ?_⟩
  · rcases List.mem_append.mp hc with hin | hin
    · exact ((hg.faithful w hw).takeIn n).reports c hin
    · exact ((hg.faithful w hw).look n).reports c hin
  · obtain ⟨look, hlook⟩ := FileTree.exists_fingerprint hfile htext
    have hfinds : (config.sources s.tree).Finds p (p.root.down names).place :=
      ⟨files, hlist, _, hf, rfl, look, hlook⟩
    rcases Tracking.owner_registerAll hstarted.tracking with howner | ⟨hnone, -⟩
    · exact howner
    · exact absurd hfinds (hnone p hp)
  · exact (config.scanner.attributes_sources s.tree).of_mem_declared hv
  · obtain ⟨hreports, hplace, hsame⟩ := hstarted.reportedPath_eq hp hnames (hpost w hw hroot)
    refine ⟨hreports, hplace, fun habsolute => ⟨hsame habsolute, fun owner howner => ?_⟩,
      fun name hname => ?_⟩
    · apply Tracking.takesFor_of_owner
      rw [hsame habsolute]
      exact howner
    · obtain ⟨q, hq, hqname, hprefix⟩ := hg.rooted.root_prefix_of_projectOf? hname
      refine ⟨q, hq, hqname, ?_⟩
      rw [Path.isAbsolute_of_prefix (hstarted.spelling_ne_empty hq) hprefix]
      exact hstarted.isAbsolute_of_reports (hg.posts ▸ List.mem_map_of_mem hw) hreports
  · have hrests := rests_live (hstarted.rests ht) (hstarted.onPost ht) (hstarted.strayPosts hroots)
      moments
    exact ⟨hrests.index_eq, by rw [reports, hrests.updates]; rfl⟩

/-! ## One root in several spellings -/

/-- A project by the spelling of its root. -/
def spelledProject (root : String) : Project where
  name := "P"
  root := ⟨root⟩

/-- A working folder that has a folder of sources with one file. -/
def workingTree : FileTree :=
  ({ workingFolder := ["w"] } : FileTree).write 0 ["w", "r", "a.json"] (classText "Old") 0

def spelledSession (root : String) : Session :=
  new {} {} { name := "S", projects := [spelledProject root] } workingTree 0

/-- The file is edited, and then a minute passes. -/
def laterEdit : List Moment :=
  [.edit (.write ["w", "r", "a.json"] (classText "New") 1), .sleep 60000]

theorem proper_workingTree : workingTree.Proper := by
  have hempty : ({ workingFolder := ["w"] } : FileTree).Proper :=
    FileTree.proper_empty.of_toList rfl
  refine (hempty.write 0 (fun name hname => ?_) (classText "Old") 0).1
  simp only [List.mem_cons, List.not_mem_nil, or_false] at hname
  rcases hname with rfl | rfl | rfl <;> constructor <;> decide

/-- A file below a relative root is tracked and watched, but its edit is reported by a path that is
taken for nobody, and it stays as it was in the index. -/
theorem attribution_of_relative_root :
    ∃ s, (spelledSession "r").start = .ok s ∧ s.tree.Proper ∧
      (({} : Config).sources s.tree).list (spelledProject "r") = .ok [⟨"r/a.json"⟩] ∧
      let g := s.live laterEdit
      s.schedule.updater.tracking.owners[(⟨"r/a.json"⟩ : Path).place]? = some "P" ∧
      (∃ w ∈ g.schedule.watchers, w.root = ⟨"r"⟩ ∧
        (w.reportedPath ["w", "r", "a.json"]).place ≠ (⟨"r/a.json"⟩ : Path).place ∧
        g.schedule.updater.tracking.projectOf? (w.reportedPath ["w", "r", "a.json"]) = none) ∧
      ((({} : Config).sources g.tree).declared "P" ⟨"r/a.json"⟩).map Symbol.name = ["New"] ∧
      (g.schedule.index.inFile ⟨"r/a.json"⟩).map Symbol.name = ["Old"] ∧ g.reports = 0 := by
  have hfacts : (spelledSession "r").start.toOption.map (fun s =>
      (decide (s.tree.nodes.toList = workingTree.nodes.toList ∧
          (({} : Config).sources s.tree).list (spelledProject "r") = .ok [⟨"r/a.json"⟩] ∧
          s.tree.resolve ⟨"r/a.json"⟩ = .ok ["w", "r", "a.json"]),
        s.schedule.updater.tracking.owners[(⟨"r/a.json"⟩ : Path).place]?,
        ((({} : Config).sources (s.live laterEdit).tree).declared "P" ⟨"r/a.json"⟩).map
          Symbol.name,
        (s.schedule.index.inFile ⟨"r/a.json"⟩).map Symbol.name)) =
      some (true, some "P", ["New"], ["Old"]) := by
    decide +kernel
  cases hstart : (spelledSession "r").start with
  | error fault =>
      rw [hstart] at hfacts
      cases hfacts
  | ok s =>
      rw [hstart] at hfacts
      obtain ⟨htree, hfacts⟩ := Prod.mk.inj (Option.some.inj hfacts)
      obtain ⟨hnodes, hlist, hresolve⟩ := of_decide_eq_true htree
      obtain ⟨howner, hfacts⟩ := Prod.mk.inj hfacts
      obtain ⟨hnew, hold⟩ := Prod.mk.inj hfacts
      have ht := proper_workingTree.of_toList hnodes
      obtain ⟨-, -, -, ⟨w, hw, hroot⟩, ⟨a, hfile, hreported⟩, hrelative⟩ :=
        attribution hstart ht laterEdit (List.mem_singleton_self _) hlist List.mem_cons_self
      have hnone : ∀ q ∈ [spelledProject "r"], ¬ q.root.isAbsolute := by decide +kernel
      cases hfile.symm.trans hresolve
      obtain ⟨-, hplace, -, hproject⟩ := hreported w hw hroot
      obtain ⟨hindex, hreports⟩ := hrelative hnone
      refine ⟨s, rfl, ht, hlist, howner, ⟨w, hw, hroot, fun hsame => ?_, ?_⟩, hnew,
        hindex ▸ hold, hreports⟩
      · exact hnone _ (List.mem_singleton_self _) (hplace.mp hsame)
      · by_contra hsome
        obtain ⟨name, hname⟩ := Option.ne_none_iff_exists'.mp hsome
        obtain ⟨q, hq, -, habsolute⟩ := hproject name hname
        exact hnone q hq habsolute

example : (spelledSession "/w/./r//").start.toOption.map (fun s =>
    ((s.live laterEdit).schedule.index.inFile ⟨"/w/r/a.json"⟩).map Symbol.name) =
    some ["New"] := by
  decide +kernel

end Session

end SymbolAtlas
