import SymbolAtlas.Proofs.Update.Attribution
import SymbolAtlas.Proofs.Watch.Forwarder
import SymbolAtlas.Proofs.Watch.Startup

/-!
# Watchers at their posts

A watcher keeps its root, and only ever passes on changes of nodes at or below it. So as files are
edited and time passes, all changes that are reported are of such nodes. If all of their paths
stray from the roots of a solution, nothing is ever indexed again.
-/

namespace SymbolAtlas

/-! ## What a forwarder passes on -/

namespace Forwarder

/-- All paths of changes that are held back have some property. -/
def Holds (P : Path → Prop) (f : Forwarder) : Prop :=
  ∀ (k : Place) h, f.held[k]? = some h → P h.path

variable {P : Path → Prop} {f : Forwarder}

theorem Holds.hold (h : f.Holds P) (now : Nat) {c : FileChange} (hc : P c.path) :
    (f.hold now c).Holds P := by
  intro k held hheld
  rw [getElem?_hold] at hheld
  split_ifs at hheld
  · cases hold : f.held[k]? with
    | none =>
        rw [hold] at hheld
        cases hheld
        exact hc
    | some old =>
        rw [hold] at hheld
        cases hheld
        exact h k old hold
  · exact h k held hheld

theorem Holds.release (h : f.Holds P) (now : Nat) :
    (∀ c ∈ (f.release now).1, P c.path) ∧ (f.release now).2.Holds P := by
  unfold Forwarder.release
  constructor
  · intro c hc
    obtain ⟨held, hheld, rfl⟩ := List.mem_map.mp hc
    obtain ⟨k, hk⟩ := (mem_values f.held held).mp (List.mem_of_mem_filter hheld)
    exact h k held hk
  · intro k held hheld
    dsimp only at hheld
    rw [getElem?_foldl_erase] at hheld
    split_ifs at hheld
    exact h k held hheld

theorem Holds.receiveAll (h : f.Holds P) (now : Nat) {changes : List FileChange}
    (hchanges : ∀ c ∈ changes, P c.path) :
    (∀ c ∈ (f.receiveAll now changes).1, P c.path) ∧ (f.receiveAll now changes).2.Holds P := by
  induction changes generalizing f with
  | nil => exact ⟨by simp [Forwarder.receiveAll], h⟩
  | cons c rest ih =>
      obtain ⟨hfirst, hafter⟩ := (h.hold now (hchanges c List.mem_cons_self)).release now
      obtain ⟨hothers, hlast⟩ := ih hafter fun c' hc' => hchanges c' (List.mem_cons_of_mem c hc')
      refine ⟨fun c' hc' => ?_, hlast⟩
      rcases List.mem_append.mp hc' with hin | hin
      · exact hfirst c' hin
      · exact hothers c' hin

end Forwarder

/-! ## What a watcher reports -/

namespace Watcher

/-- What stays the same of a watcher: its root, where this stands, and how it is reported. -/
def post (w : Watcher) : Path × Address × Path := (w.root, w.address, w.reported)

/-- A path by which some node at or below the root is reported. -/
def Reports (w : Watcher) (q : Path) : Prop := ∃ a, w.address <+: a ∧ w.reportedPath a = q

/-- A watcher that has noticed changes of nodes at or below its root only. -/
structure Faithful (w : Watcher) : Prop where
  queue : ∀ c ∈ w.queue, w.Reports c.path
  held : w.forwarder.Holds w.Reports

variable {w : Watcher}

theorem reportedPath_append (w : Watcher) (names : List String) :
    w.reportedPath (w.address ++ names) = w.reported.down names := by
  unfold reportedPath
  rw [List.drop_left]
  rfl

theorem path_mem_of_mem_fileChanges {n : Notice} {extensions : List String} {c : FileChange}
    (hc : c ∈ n.fileChanges extensions) : c.path ∈ n.paths := by
  obtain ⟨⟨path, i⟩, hmem, hsome⟩ := List.mem_filterMap.mp hc
  dsimp only at hsome
  split_ifs at hsome
  obtain ⟨change, -, rfl⟩ := Option.map_eq_some_iff.mp hsome
  exact List.fst_mem_of_mem_zipIdx hmem

theorem reports_of_mem_noticed {x : Sighting} {c : FileChange} (hc : c ∈ w.noticed x) :
    w.Reports c.path := by
  unfold noticed at hc
  split_ifs at hc with hall
  · obtain ⟨a, ha, hpath⟩ := List.mem_map.mp (path_mem_of_mem_fileChanges hc)
    exact ⟨a, List.isPrefixOf_iff_prefix.mp (List.all_eq_true.mp hall a ha), hpath⟩
  · simp at hc

theorem faithful_of_start? {t : FileTree} {root : Path} {settings : Settings}
    (h : start? t root settings = some w) : w.Faithful := by
  obtain ⟨address, -, -, rfl⟩ := start?_eq_some.mp h
  exact ⟨by simp, fun k held hheld => by simp at hheld⟩

theorem post_foldl_sight (w : Watcher) (sightings : List Sighting) :
    (sightings.foldl sight w).post = w.post := by
  rw [foldl_sight]
  rfl

theorem Faithful.foldl_sight (h : w.Faithful) (sightings : List Sighting) :
    (sightings.foldl sight w).Faithful := by
  rw [Watcher.foldl_sight]
  refine ⟨fun c hc => ?_, h.held⟩
  rcases List.mem_append.mp hc with hold | hnew
  · exact h.queue c hold
  · obtain ⟨x, -, hnoticed⟩ := List.mem_flatMap.mp hnew
    exact reports_of_mem_noticed hnoticed

/-- What a watcher does without forgetting its post: it passes on what it has noticed. -/
structure Passes (w : Watcher) (r : List FileChange × Watcher) : Prop where
  post : r.2.post = w.post
  reports : ∀ c ∈ r.1, w.Reports c.path
  faithful : r.2.Faithful

theorem Faithful.rest (h : w.Faithful) : w.Passes ([], w) := ⟨rfl, by simp, h⟩

theorem Faithful.takeIn (h : w.Faithful) (now : Nat) : w.Passes (w.takeIn now) := by
  unfold Watcher.takeIn
  split_ifs
  · exact h.rest
  · obtain ⟨hout, hheld⟩ := h.held.receiveAll now h.queue
    exact ⟨rfl, hout, ⟨by simp, hheld⟩⟩

theorem Faithful.look (h : w.Faithful) (now : Nat) : w.Passes (w.look now) := by
  obtain ⟨hout, hheld⟩ := h.held.release now
  exact ⟨rfl, hout, ⟨h.queue, hheld⟩⟩

end Watcher

/-! ## Letting time pass -/

namespace Schedule

/-- What is kept by polling, by all that can happen at a moment and by the passing of time is kept
by a run. -/
theorem run_induction {σ : Type} {e : Surroundings} {listen : FileListener σ}
    {P : Schedule σ → Prop} (hpoll : ∀ s, P s → P (s.poll e listen))
    (hnow : ∀ s now, P s → P { s with now }) (hhappen : ∀ s, P s → P (s.happen e listen))
    (untilIdle : Bool) (stop fuel : Nat) {s : Schedule σ} (h : P s) :
    P (s.run e listen untilIdle stop fuel) := by
  induction fuel generalizing s with
  | zero => exact h
  | succ fuel ih =>
      unfold run
      dsimp only
      split_ifs
      · exact h
      · split
        · exact hnow _ _ (hpoll s h)
        · split_ifs
          · exact hnow _ _ (hpoll s h)
          · exact ih (hhappen _ (hnow _ _ (hpoll s h)))

theorem updater_report {σ : Type} (e : Surroundings) (listen : FileListener σ) (s : Schedule σ)
    (changes : List FileChange) :
    (s.report e listen changes).updater = (changes.foldl (fun us c =>
      Updater.notify e.sources listen c.path c.change us) (s.updater, s.memory)).1 := rfl

/-- What is kept as each of some changes is reported. -/
theorem report_induction {e : Surroundings} {P : Updater → Prop} {changes : List FileChange}
    (hnotify : ∀ u, ∀ c ∈ changes, P u →
      P (Updater.notify e.sources Session.silent c.path c.change (u, ())).1)
    {s : Schedule Unit} (h : P s.updater) : P (s.report e Session.silent changes).updater := by
  rw [updater_report]
  generalize s.updater = u at h ⊢
  induction changes generalizing u with
  | nil => exact h
  | cons c rest ih =>
      rw [List.foldl_cons]
      exact ih (fun u c' hc' => hnotify u c' (List.mem_cons_of_mem c hc')) _
        (hnotify u c List.mem_cons_self h)

/-- Watchers at their posts, and tracking that keeps to the roots of a solution. -/
structure OnPost (x : Solution) (posts : List (Path × Address × Path)) (s : Schedule Unit) :
    Prop where
  posts : s.watchers.map Watcher.post = posts
  faithful : ∀ w ∈ s.watchers, w.Faithful
  rooted : s.updater.tracking.Rooted x

variable {x : Solution} {posts : List (Path × Address × Path)} {s s' : Schedule Unit}
  {e : Surroundings} {f : Watcher → List FileChange × Watcher} {w : Watcher}

theorem OnPost.of_keeps (h : s.OnPost x posts) (hwatchers : s'.watchers = s.watchers)
    (htracking : s'.updater.tracking = s.updater.tracking) : s'.OnPost x posts :=
  ⟨hwatchers ▸ h.posts, hwatchers ▸ h.faithful, htracking ▸ h.rooted⟩

theorem OnPost.withWatchers (h : s.OnPost x posts) (hf : ∀ w ∈ s.watchers, w.Passes (f w)) :
    (s.withWatchers e Session.silent f).OnPost x posts where
  posts := by
    rw [← h.posts]
    unfold Schedule.withWatchers
    rw [List.map_map, List.map_map]
    exact List.map_congr_left fun w hw => (hf w hw).post
  faithful := by
    intro w hw
    obtain ⟨r, hr, rfl⟩ := List.mem_map.mp hw
    obtain ⟨before, hbefore, rfl⟩ := List.mem_map.mp hr
    exact (hf before hbefore).faithful
  rooted := by
    apply report_induction (P := fun u => u.tracking.Rooted x) _ h.rooted
    intro u c _ hu
    have htracking :=
      Updater.tracking_notify (u := u) (s := e.sources) (p := c.path) (c := c.change)
    exact htracking ▸ hu.notice e.sources c.path c.change

theorem setTimer_keeps (s : Schedule Unit) :
    s.setTimer.watchers = s.watchers ∧ s.setTimer.updater = s.updater := by
  unfold setTimer
  split_ifs <;> exact ⟨rfl, rfl⟩

theorem startParsing_keeps (s : Schedule Unit) :
    (s.startParsing e).watchers = s.watchers ∧
      (s.startParsing e).updater.tracking = s.updater.tracking := by
  unfold startParsing
  generalize s.updater.tasks = tasks
  induction tasks generalizing s with
  | nil => exact ⟨rfl, rfl⟩
  | cons t rest ih =>
      rw [List.foldl_cons]
      split
      · exact ih _
      · exact ih s

theorem OnPost.poll (h : s.OnPost x posts) : (s.poll e Session.silent).OnPost x posts := by
  have hwatched : (s.withWatchers e Session.silent (·.takeIn s.now)).OnPost x posts :=
    h.withWatchers fun w hw => (h.faithful w hw).takeIn s.now
  obtain ⟨hwatchers, hupdater⟩ :=
    setTimer_keeps (s.withWatchers e Session.silent (·.takeIn s.now))
  obtain ⟨hwatchers', htracking⟩ := startParsing_keeps (e := e)
    (s.withWatchers e Session.silent (·.takeIn s.now)).setTimer
  exact (hwatched.of_keeps hwatchers (by rw [hupdater])).of_keeps hwatchers' htracking

/-- The watchers that have something to forward do so. -/
theorem passes_look (h : w.Faithful) (now : Nat) (due : Prop) [Decidable due] :
    w.Passes (if due then w.look now else ([], w)) := by
  split_ifs
  · exact h.look now
  · exact h.rest

theorem OnPost.apply (h : s.OnPost x posts) (id : Nat) : (s.apply id).OnPost x posts := by
  obtain ⟨-, -, htracking, -⟩ := Updater.apply_keeps s.updater s.index id
  exact h.of_keeps rfl htracking

theorem OnPost.happen (h : s.OnPost x posts) : (s.happen e Session.silent).OnPost x posts := by
  have hfired : (if s.timer == some s.now then
      { s with updater := s.updater.fire, timer := none } else s).OnPost x posts := by
    split_ifs
    · exact h.of_keeps rfl (Updater.submit_keeps _ _).2
    · exact h
  unfold Schedule.happen
  dsimp only
  generalize (if s.timer == some s.now then
    { s with updater := s.updater.fire, timer := none } else s) = fired at hfired ⊢
  have happlied : ((fired.parsing.filter (·.2 == fired.now)).foldl
      (fun s p => s.apply p.1) fired).OnPost x posts := by
    generalize fired.parsing.filter (·.2 == fired.now) = parsed
    induction parsed generalizing fired with
    | nil => exact hfired
    | cons p rest ih => exact ih _ (hfired.apply p.1)
  exact happlied.withWatchers fun w hw => passes_look (happlied.faithful w hw) _ _

/-! ## Watchers that report to nobody -/

/-- A schedule of which nothing has come so far: nothing waits to be indexed, and the index is as it
was. -/
structure Rests (x : Solution) (index : Snapshot) (s : Schedule Unit) : Prop where
  idle : s.updater.Idle x
  parsing : s.parsing = []
  index_eq : s.index = index
  updates : s.updates = []

variable {index : Snapshot}

theorem Rests.withWatchers (h : s.Rests x index) (hf : ∀ w ∈ s.watchers, w.Passes (f w))
    (hstrays : ∀ w ∈ s.watchers, ∀ q, w.Reports q → x.Strays q) :
    (s.withWatchers e Session.silent f).Rests x index := by
  refine ⟨?_, h.parsing, h.index_eq, h.updates⟩
  apply report_induction (P := fun u => u.Idle x) _ h.idle
  intro u c hc hu
  obtain ⟨r, hr, hin⟩ := List.mem_flatMap.mp hc
  obtain ⟨w, hw, rfl⟩ := List.mem_map.mp hr
  exact hu.notify (hstrays w hw c.path ((hf w hw).reports c hin)) e.sources c.change

theorem Rests.poll (h : s.Rests x index) (hfaithful : ∀ w ∈ s.watchers, w.Faithful)
    (hstrays : ∀ w ∈ s.watchers, ∀ q, w.Reports q → x.Strays q) :
    (s.poll e Session.silent).Rests x index := by
  have hreported : (s.withWatchers e Session.silent (·.takeIn s.now)).Rests x index :=
    h.withWatchers (fun w hw => (hfaithful w hw).takeIn s.now) hstrays
  have htimer : (s.withWatchers e Session.silent (·.takeIn s.now)).setTimer.Rests x index := by
    unfold setTimer
    split_ifs
    · exact ⟨hreported.idle, hreported.parsing, hreported.index_eq, hreported.updates⟩
    · exact hreported
  unfold Schedule.poll startParsing
  rw [htimer.idle.tasks]
  exact htimer

theorem Rests.happen (h : s.Rests x index) (hfaithful : ∀ w ∈ s.watchers, w.Faithful)
    (hstrays : ∀ w ∈ s.watchers, ∀ q, w.Reports q → x.Strays q) :
    (s.happen e Session.silent).Rests x index := by
  have hfired : (if s.timer == some s.now then
      { s with updater := s.updater.fire, timer := none } else s).Rests x index ∧
      (if s.timer == some s.now then
        { s with updater := s.updater.fire, timer := none } else s).watchers = s.watchers := by
    split_ifs
    · exact ⟨⟨h.idle.fire, h.parsing, h.index_eq, h.updates⟩, rfl⟩
    · exact ⟨h, rfl⟩
  unfold Schedule.happen
  dsimp only
  generalize (if s.timer == some s.now then
    { s with updater := s.updater.fire, timer := none } else s) = fired at hfired ⊢
  obtain ⟨hrests, hwatchers⟩ := hfired
  rw [hrests.parsing, List.filter_nil, List.foldl_nil]
  rw [← hwatchers] at hfaithful hstrays
  exact hrests.withWatchers (fun w hw => passes_look (hfaithful w hw) _ _) hstrays

/-! ## Runs -/

theorem OnPost.run (h : s.OnPost x posts) (untilIdle : Bool) (stop fuel : Nat) :
    (s.run e Session.silent untilIdle stop fuel).OnPost x posts :=
  run_induction (fun _ hs => hs.poll) (fun _ _ hs => hs.of_keeps rfl rfl) (fun _ hs => hs.happen)
    untilIdle stop fuel h

/-- Paths that stray from all roots are all that is reported from these posts. -/
def StrayPosts (x : Solution) (posts : List (Path × Address × Path)) : Prop :=
  ∀ w : Watcher, w.post ∈ posts → ∀ q, w.Reports q → x.Strays q

theorem OnPost.strays (h : s.OnPost x posts) (hposts : StrayPosts x posts) :
    ∀ w ∈ s.watchers, ∀ q, w.Reports q → x.Strays q :=
  fun w hw => hposts w (h.posts ▸ List.mem_map_of_mem hw)

theorem Rests.run (h : s.Rests x index) (hs : s.OnPost x posts) (hposts : StrayPosts x posts)
    (untilIdle : Bool) (stop fuel : Nat) :
    (s.run e Session.silent untilIdle stop fuel).Rests x index := by
  have hboth : (s.run e Session.silent untilIdle stop fuel).OnPost x posts ∧
      (s.run e Session.silent untilIdle stop fuel).Rests x index :=
    run_induction (P := fun s => s.OnPost x posts ∧ s.Rests x index)
      (fun _ hs => ⟨hs.1.poll, hs.2.poll hs.1.faithful (hs.1.strays hposts)⟩)
      (fun _ _ hs => ⟨hs.1.of_keeps rfl rfl,
        ⟨hs.2.idle, hs.2.parsing, hs.2.index_eq, hs.2.updates⟩⟩)
      (fun _ hs => ⟨hs.1.happen, hs.2.happen hs.1.faithful (hs.1.strays hposts)⟩)
      untilIdle stop fuel ⟨hs, h⟩
  exact hboth.2

end Schedule

end SymbolAtlas
