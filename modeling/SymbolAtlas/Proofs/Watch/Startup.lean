import SymbolAtlas.Proofs.Upkeep.Run
import SymbolAtlas.Watch.Session

/-!
# How a session starts

Files may be edited while a session starts. The index holds each file as it was when the solution
was loaded, or what the cache had of it. What a file looks like is noted when its project is
registered, and its edits are noticed once its project is watched. So a file that was edited after
it was loaded and before it was registered stays as it was in the index, and nothing is ever
noticed of it.
-/

namespace SymbolAtlas

/-! ## What a watcher notices -/

namespace Watcher

/-- The changes that a sighting means to a watcher. -/
def noticed (w : Watcher) (x : Sighting) : List FileChange :=
  if x.addresses.all w.address.isPrefixOf then
    let notice : Notice := { kind := x.kind, paths := x.addresses.map w.reportedPath }
    notice.fileChanges w.settings.extensions
  else []

theorem foldl_sight (w : Watcher) (sightings : List Sighting) :
    sightings.foldl sight w = { w with queue := w.queue ++ sightings.flatMap w.noticed } := by
  induction sightings generalizing w with
  | nil => simp
  | cons x rest ih =>
      have hsight : w.sight x = { w with queue := w.queue ++ w.noticed x } := by
        unfold sight noticed
        split
        · rfl
        · simp
      rw [List.foldl_cons, hsight, ih, List.flatMap_cons, ← List.append_assoc]
      rfl

/-- A change of a file has been noticed and not yet been forwarded. -/
def Notified (w : Watcher) (k : Place) : Prop :=
  (∃ c ∈ w.queue, c.path.place = k) ∨ (w.forwarder.held[k]?).isSome

/-- A watcher can be started where some node stands, and has noticed nothing at first. -/
theorem start?_eq_some {t : FileTree} {root : Path} {settings : Settings} {w : Watcher} :
    start? t root settings = some w ↔ ∃ address, t.resolve root = .ok address ∧
      (t.node? address).isSome ∧
      w = { root, settings, address, reported := t.workingPath.join root,
            forwarder := { debounce := settings.debounce } } := by
  unfold start?
  constructor
  · intro h
    split at h
    · cases h
    · next address hresolve =>
      split_ifs at h with hnone
      cases h
      exact ⟨address, hresolve, Option.isSome_iff_ne_none.mpr (by simpa using hnone), rfl⟩
  · rintro ⟨address, hresolve, hsome, rfl⟩
    rw [hresolve]
    dsimp only
    rw [if_neg (by simpa [Option.isSome_iff_ne_none] using hsome)]

theorem not_notified_of_start? {t : FileTree} {root : Path} {settings : Settings} {w : Watcher}
    (h : start? t root settings = some w) (k : Place) : ¬ w.Notified k := by
  obtain ⟨address, -, -, rfl⟩ := start?_eq_some.mp h
  rintro (⟨c, hc, -⟩ | hheld)
  · exact List.not_mem_nil hc
  · simp at hheld

theorem notified_foldl_sight (w : Watcher) (sightings : List Sighting) (k : Place) :
    (sightings.foldl sight w).Notified k ↔
      w.Notified k ∨ ∃ x ∈ sightings, ∃ c ∈ w.noticed x, c.path.place = k := by
  rw [foldl_sight]
  unfold Notified
  simp only [List.mem_append, List.mem_flatMap]
  constructor
  · rintro (⟨c, hqueued | ⟨x, hx, hc⟩, hplace⟩ | hheld)
    · exact .inl (.inl ⟨c, hqueued, hplace⟩)
    · exact .inr ⟨x, hx, c, hc, hplace⟩
    · exact .inl (.inr hheld)
  · rintro ((⟨c, hqueued, hplace⟩ | hheld) | ⟨x, hx, c, hc, hplace⟩)
    · exact .inl ⟨c, .inl hqueued, hplace⟩
    · exact .inr hheld
    · exact .inl ⟨c, .inr ⟨x, hx, hc⟩, hplace⟩

end Watcher

/-! ## What was seen of a file -/

namespace Tracking

/-- What a file looks like is what it did before, or what was found of it last. -/
theorem seen_trackAll {u : Tracking} {project : String} {found : List (Path × Fingerprint)}
    {k : Place} {q : Path} {look : Fingerprint}
    (h : (u.trackAll project found).seen[k]? = some (q, look)) :
    u.seen[k]? = some (q, look) ∨ ∃ f, (f, look) ∈ found ∧ f.place = k := by
  induction found generalizing u with
  | nil => exact .inl h
  | cons e rest ih =>
      rcases ih h with hbefore | ⟨f, hf, hplace⟩
      · rw [seen_track, getElem?_seen_see] at hbefore
        split_ifs at hbefore with hk
        · cases hbefore
          exact .inr ⟨e.1, List.mem_cons_self, hk⟩
        · exact .inl hbefore
      · exact .inr ⟨f, List.mem_cons_of_mem _ hf, hplace⟩

end Tracking

/-! ## Starting -/

namespace Session

/-- What happens while a session starts: it takes a step, or something is edited. -/
inductive Event where
  | step (st : Step)
  | edit (e : Edit)

def Event.step? : Event → Option Step
  | .step st => some st
  | .edit _ => none

def proceed (s : Session) : Event → Except SessionFault Session
  | .step st => s.perform st
  | .edit e => .ok (s.edit e)

/-- What comes of a session as one thing after the other happens. -/
def follow (s : Session) (events : List Event) : Except SessionFault Session :=
  events.foldlM proceed s

/-- A change of a file has still to be forwarded. -/
def Notified (s : Session) (k : Place) : Prop := ∃ w ∈ s.schedule.watchers, w.Notified k

/-- An edit is taken notice of as a change of a file. -/
def Notices (s : Session) (e : Edit) (k : Place) : Prop :=
  ∃ w ∈ s.schedule.watchers, ∃ x ∈ s.tree.sightings e, ∃ c ∈ w.noticed x, c.path.place = k

/-- A file is listed for a project, and looks like this. -/
def Sees (s : Session) (p : Project) (f : Path) (look : Fingerprint) : Prop :=
  ∃ files, (s.config.sources s.tree).list p = .ok files ∧ f ∈ files ∧
    (s.config.sources s.tree).fingerprint f = .ok look

variable {s s' : Session} {e : Event} {events : List Event} {k : Place}

theorem follow_append (s : Session) (first last : List Event) :
    s.follow (first ++ last) = (s.follow first).bind (follow · last) :=
  List.foldlM_append

theorem follow_cons_eq_ok : s.follow (e :: events) = .ok s' ↔
    ∃ next, s.proceed e = .ok next ∧ next.follow events = .ok s' := by
  unfold follow
  rw [List.foldlM_cons]
  cases hnext : s.proceed e with
  | error fault => simp [bind, Except.bind]
  | ok next => simp [bind, Except.bind]

theorem follow_append_eq_ok {first last : List Event} : s.follow (first ++ last) = .ok s' ↔
    ∃ next, s.follow first = .ok next ∧ next.follow last = .ok s' := by
  rw [follow_append]
  cases hnext : s.follow first with
  | error fault => simp [Except.bind]
  | ok next => simp [Except.bind]

/-! ## What one thing does -/

/-- What was collected for the solution earlier and is still in the cache. -/
def cached (s : Session) : Option Collection :=
  (s.workspace.cache.getCollection s.schedule.now s.solution.name none).1

theorem schedule_storeCache (s : Session) : s.storeCache.schedule = s.schedule := by
  unfold storeCache
  split <;> rfl

theorem keeps_storeCache (s : Session) :
    s.storeCache.config = s.config ∧ s.storeCache.solution = s.solution := by
  unfold storeCache
  split <;> exact ⟨rfl, rfl⟩

/-- Loading makes an index of what is in the cache, or else of what is collected now. -/
theorem load_eq_ok {c : Collection} (h : s.load none = .ok (c, s')) :
    ((s'.config = s.config ∧ s'.solution = s.solution) ∧
      s'.schedule = { s.schedule with index := s.workspace.index.rebuild c }) ∧
    (s.cached = some c ∨
      s.cached = none ∧ c = (s.config.sources s.tree).collect s.solution) := by
  unfold load Workspace.load Workspace.collected at h
  unfold cached
  rcases hcached : s.workspace.cache.getCollection s.schedule.now s.solution.name none with
    ⟨found, cache⟩
  rw [hcached] at h
  cases found with
  | some found =>
      obtain ⟨rfl, rfl⟩ := Prod.mk.inj (Except.ok.inj h)
      exact ⟨⟨keeps_storeCache _, schedule_storeCache _⟩, .inl rfl⟩
  | none =>
      dsimp only at h
      cases hput : cache.putCollection s.schedule.now s.solution.name
          ((s.config.sources s.tree).collect s.solution) none with
      | error fault =>
          rw [hput] at h
          cases h
      | ok stored =>
          rw [hput] at h
          obtain ⟨rfl, rfl⟩ := Prod.mk.inj (Except.ok.inj h)
          exact ⟨⟨keeps_storeCache _, schedule_storeCache _⟩, .inr ⟨rfl, rfl⟩⟩

/-- What a session comes to by one thing that happens. -/
inductive Proceeds (s : Session) : Event → Session → Prop where
  | load (c : Collection) {s' : Session} : s.load none = .ok (c, s') →
    Proceeds s (.step .load) s'
  | register (p : Project) (n : Nat) (tracking : Tracking) :
    s.schedule.updater.tracking.register (s.config.sources s.tree) p = .ok (n, tracking) →
    Proceeds s (.step (.register p))
      { s with schedule := { s.schedule with
        updater := { s.schedule.updater with tracking } } }
  | watch (p : Project) :
    Proceeds s (.step (.watch p))
      { s with schedule := { s.schedule with
        watchers := s.schedule.watchers ++
          (Watcher.start? s.tree p.root s.config.watcherSettings).toList } }
  | edit (change : Edit) : Proceeds s (.edit change) (s.edit change)

theorem proceeds_of_eq_ok (h : s.proceed e = .ok s') : s.Proceeds e s' := by
  cases e with
  | edit change =>
      cases h
      exact .edit change
  | step st =>
      cases st with
      | load =>
          change (s.load none).map (·.2) = .ok s' at h
          cases hload : s.load none with
          | error fault =>
              rw [hload] at h
              cases h
          | ok r =>
              rw [hload] at h
              cases h
              exact .load r.1 hload
      | register p =>
          rw [proceed, perform, Updater.register] at h
          cases hregister :
              s.schedule.updater.tracking.register (s.config.sources s.tree) p with
          | error fault =>
              rw [hregister] at h
              cases h
          | ok r =>
              rw [hregister] at h
              cases h
              exact .register p r.1 r.2 hregister
      | watch p =>
          cases h
          exact .watch p

namespace Proceeds

theorem keeps (h : s.Proceeds e s') : s'.config = s.config ∧ s'.solution = s.solution := by
  cases h with
  | load c hload => exact (load_eq_ok hload).1.1
  | register | watch | edit => exact ⟨rfl, rfl⟩

/-- Only loading changes the index. -/
theorem index_eq (h : s.Proceeds e s') (he : e.step? ≠ some .load) :
    s'.schedule.index = s.schedule.index := by
  cases h with
  | load => exact absurd rfl he
  | register | watch | edit => rfl

/-- What a file looks like is only noted when a project is registered that lists it. -/
theorem seen (h : s.Proceeds e s') {q : Path} {look : Fingerprint}
    (hseen : s'.schedule.updater.tracking.seen[k]? = some (q, look)) :
    s.schedule.updater.tracking.seen[k]? = some (q, look) ∨
      ∃ p f, e = .step (.register p) ∧ s.Sees p f look ∧ f.place = k := by
  cases h with
  | load c hload =>
      rw [(load_eq_ok hload).1.2] at hseen
      exact .inl hseen
  | watch | edit => exact .inl hseen
  | register p n tracking hregister =>
      rcases s.schedule.updater.tracking.register_cases (s.config.sources s.tree) p with
        ⟨fault, -, herror⟩ | ⟨files, found, hlist, hok, hfound⟩
      · rw [herror] at hregister
        cases hregister
      · rw [hok] at hregister
        cases hregister
        rcases Tracking.seen_trackAll hseen with hbefore | ⟨f, hf, hplace⟩
        · exact .inl hbefore
        · obtain ⟨hlisted, hlook⟩ := (hfound _).mp hf
          exact .inr ⟨p, f, rfl, ⟨files, hlist, hlisted, hlook⟩, hplace⟩

/-- Only edits are taken notice of, by those who watch already. -/
theorem notified_iff (h : s.Proceeds e s') (k : Place) :
    s'.Notified k ↔ s.Notified k ∨ ∃ change, e = .edit change ∧ s.Notices change k := by
  cases h with
  | load c hload =>
      unfold Notified
      rw [(load_eq_ok hload).1.2]
      simp
  | register => simp [Notified]
  | watch p =>
      have hnew : ∀ w ∈ Watcher.start? s.tree p.root s.config.watcherSettings,
          ¬ w.Notified k := fun w hw => Watcher.not_notified_of_start? hw k
      unfold Notified
      simp only [List.mem_append, Option.mem_toList]
      constructor
      · rintro ⟨w, hold | hw, hnotified⟩
        · exact .inl ⟨w, hold, hnotified⟩
        · exact absurd hnotified (hnew w hw)
      · rintro (⟨w, hw, hnotified⟩ | ⟨change, hedit, -⟩)
        · exact ⟨w, .inl hw, hnotified⟩
        · cases hedit
  | edit change =>
      unfold Notified Notices
      change (∃ w ∈ s.schedule.watchers.map fun w =>
        (s.tree.sightings change).foldl Watcher.sight w, _) ↔ _
      simp only [List.mem_map, exists_exists_and_eq_and, Watcher.notified_foldl_sight]
      constructor
      · rintro ⟨w, hw, hnotified | ⟨x, hx, hnoticed⟩⟩
        · exact .inl ⟨w, hw, hnotified⟩
        · exact .inr ⟨change, rfl, w, hw, x, hx, hnoticed⟩
      · rintro (⟨w, hw, hnotified⟩ | ⟨_, heq, w, hw, x, hx, hnoticed⟩)
        · exact ⟨w, hw, .inl hnotified⟩
        · cases heq
          exact ⟨w, hw, .inr ⟨x, hx, hnoticed⟩⟩

/-- Nobody watches before a project is watched. -/
theorem watchers_eq_nil (h : s.Proceeds e s') (he : ∀ p, e ≠ .step (.watch p))
    (hs : s.schedule.watchers = []) : s'.schedule.watchers = [] := by
  cases h with
  | load c hload =>
      rw [(load_eq_ok hload).1.2]
      exact hs
  | register => exact hs
  | watch p => exact absurd rfl (he p)
  | edit change =>
      change s.schedule.watchers.map _ = []
      rw [hs]
      rfl

end Proceeds

/-! ## What a start does -/

/-- As one thing after the other happens, a session is `s` when `e` happens, and `rest` follows. -/
def Meets (first : Session) (events : List Event) (s : Session) (e : Event) (rest : List Event) :
    Prop :=
  ∃ before, events = before ++ e :: rest ∧ first.follow before = .ok s

variable {first next : Session} {rest : List Event}

theorem meets_cons (hnext : first.proceed e = .ok next) {e' : Event} :
    first.Meets (e :: events) s e' rest ↔
      s = first ∧ e' = e ∧ rest = events ∨ next.Meets events s e' rest := by
  constructor
  · rintro ⟨before, hevents, hfollow⟩
    cases before with
    | nil =>
        obtain ⟨rfl, rfl⟩ := List.cons.inj hevents
        cases hfollow
        exact .inl ⟨rfl, rfl, rfl⟩
    | cons _ before =>
        obtain ⟨rfl, rfl⟩ := List.cons.inj hevents
        obtain ⟨next', hnext', hfollow⟩ := follow_cons_eq_ok.mp hfollow
        cases hnext.symm.trans hnext'
        exact .inr ⟨before, rfl, hfollow⟩
  · rintro (⟨rfl, rfl, rfl⟩ | ⟨before, rfl, hfollow⟩)
    · exact ⟨[], rfl, rfl⟩
    · exact ⟨e :: before, rfl, follow_cons_eq_ok.mpr ⟨next, hnext, hfollow⟩⟩

theorem keeps_follow (h : s.follow events = .ok s') :
    s'.config = s.config ∧ s'.solution = s.solution := by
  induction events generalizing s with
  | nil =>
      cases h
      exact ⟨rfl, rfl⟩
  | cons e events ih =>
      obtain ⟨next, hnext, hrest⟩ := follow_cons_eq_ok.mp h
      obtain ⟨hconfig, hsolution⟩ := (proceeds_of_eq_ok hnext).keeps
      obtain ⟨hconfig', hsolution'⟩ := ih hrest
      exact ⟨hconfig'.trans hconfig, hsolution'.trans hsolution⟩

/-- The index stays as it was loaded. -/
theorem index_follow (h : s.follow events = .ok s')
    (hevents : .load ∉ events.filterMap Event.step?) :
    s'.schedule.index = s.schedule.index := by
  induction events generalizing s with
  | nil =>
      cases h
      rfl
  | cons e events ih =>
      obtain ⟨next, hnext, hrest⟩ := follow_cons_eq_ok.mp h
      have he : e.step? ≠ some .load := fun hload =>
        hevents (List.mem_filterMap.mpr ⟨e, List.mem_cons_self, hload⟩)
      have hlater : .load ∉ events.filterMap Event.step? := by
        intro hload
        obtain ⟨e', he', hstep⟩ := List.mem_filterMap.mp hload
        exact hevents (List.mem_filterMap.mpr ⟨e', List.mem_cons_of_mem e he', hstep⟩)
      exact (ih hrest hlater).trans ((proceeds_of_eq_ok hnext).index_eq he)

/-- What a file looks like was noted when a project was registered. -/
theorem seen_follow (h : s.follow events = .ok s') {q : Path} {look : Fingerprint}
    (hseen : s'.schedule.updater.tracking.seen[k]? = some (q, look)) :
    s.schedule.updater.tracking.seen[k]? = some (q, look) ∨
      ∃ registered p f rest, s.Meets events registered (.step (.register p)) rest ∧
        registered.Sees p f look ∧ f.place = k := by
  induction events generalizing s with
  | nil =>
      cases h
      exact .inl hseen
  | cons e events ih =>
      obtain ⟨next, hnext, hrest⟩ := follow_cons_eq_ok.mp h
      rcases ih hrest with hbefore | ⟨registered, p, f, rest, hmeets, hsees⟩
      · rcases (proceeds_of_eq_ok hnext).seen hbefore with hold | ⟨p, f, rfl, hsees⟩
        · exact .inl hold
        · exact .inr ⟨s, p, f, events, (meets_cons hnext).mpr (.inl ⟨rfl, rfl, rfl⟩), hsees⟩
      · exact .inr ⟨registered, p, f, rest, (meets_cons hnext).mpr (.inr hmeets), hsees⟩

/-- A change that has still to be forwarded comes from an edit that was taken notice of. -/
theorem notified_follow (h : s.follow events = .ok s') (k : Place) :
    s'.Notified k ↔ s.Notified k ∨ ∃ watching change rest,
      s.Meets events watching (.edit change) rest ∧ watching.Notices change k := by
  induction events generalizing s with
  | nil =>
      cases h
      simp [Meets]
  | cons e events ih =>
      obtain ⟨next, hnext, hrest⟩ := follow_cons_eq_ok.mp h
      rw [ih hrest, (proceeds_of_eq_ok hnext).notified_iff k]
      constructor
      · rintro ((hold | ⟨change, rfl, hnotices⟩) | ⟨watching, change, rest, hmeets, hnotices⟩)
        · exact .inl hold
        · exact .inr ⟨s, change, events, (meets_cons hnext).mpr (.inl ⟨rfl, rfl, rfl⟩), hnotices⟩
        · exact .inr ⟨watching, change, rest, (meets_cons hnext).mpr (.inr hmeets), hnotices⟩
      · rintro (hold | ⟨watching, change, rest, hmeets, hnotices⟩)
        · exact .inl (.inl hold)
        · rcases (meets_cons hnext).mp hmeets with ⟨rfl, rfl, rfl⟩ | hlater
          · exact .inl (.inr ⟨change, rfl, hnotices⟩)
          · exact .inr ⟨watching, change, rest, hlater, hnotices⟩

theorem watchers_follow (h : s.follow events = .ok s')
    (hevents : ∀ p, .watch p ∉ events.filterMap Event.step?) (hs : s.schedule.watchers = []) :
    s'.schedule.watchers = [] := by
  induction events generalizing s with
  | nil =>
      cases h
      exact hs
  | cons e events ih =>
      obtain ⟨next, hnext, hrest⟩ := follow_cons_eq_ok.mp h
      apply ih hrest
      · intro p hwatch
        obtain ⟨e', he', hstep⟩ := List.mem_filterMap.mp hwatch
        exact hevents p (List.mem_filterMap.mpr ⟨e', List.mem_cons_of_mem e he', hstep⟩)
      · apply (proceeds_of_eq_ok hnext).watchers_eq_nil _ hs
        rintro p rfl
        exact hevents p (List.mem_filterMap.mpr ⟨_, List.mem_cons_self, rfl⟩)

/-- All projects are registered before one is watched. -/
theorem not_watch_mem_of_register_mem {solution : Solution} {early late : List Step}
    (h : early ++ late = plan solution) {p q : Project} (hp : .register p ∈ late) :
    .watch q ∉ early := by
  unfold plan at h
  intro hq
  rcases List.append_eq_append_iff.mp h with ⟨between, hearly, -⟩ | ⟨between, -, hlate⟩
  · have hmem : Step.watch q ∈ [.load] ++ solution.projects.map .register := by
      rw [hearly]
      exact List.mem_append_left between hq
    simp at hmem
  · have hmem : Step.register p ∈ solution.projects.map .watch := by
      rw [hlate]
      exact List.mem_append_right between hp
    simp at hmem

/-- The symbols of a listed file that was not edited after its solution was collected are those that
it declares. -/
theorem collapse_collect_of_unedited {config : Config} {solution : Solution} {t u : FileTree}
    (ht : t.Proper) (hu : u.Proper) (hs : solution.Apart t) (hsettled : solution.Settled t)
    {p : Project} (hp : p ∈ solution.projects) {files : List Path}
    (hlist : (config.sources u).list p = .ok files) {f : Path} (hf : f ∈ files)
    (hlists : config.scanner.rules.Lists t p f.place) (htext : t.readText? f = u.readText? f) :
    collapse (((config.sources t).collect solution).symbols.filter
        fun v => v.file.place = f.place) =
      collapse ((config.sources u).declared p.name f) := by
  have hlist' : config.scanner.rules.list u p = .ok files := Config.list_sources.mp hlist
  obtain ⟨start, hresolve, -⟩ := SourceRules.exists_folder_of_list hlist'
  obtain ⟨names, hnames, rfl, -⟩ := hu.exists_names_of_mem_list hlist' hresolve hf
  have hindex := Solution.inFile_rebuild_of_lists ht hs hsettled hp hnames {} hlists
  rw [Snapshot.inFile_rebuild] at hindex
  rw [config.sources_eq, config.sources_eq, hindex, config.scanner.declared_congr htext]

/-- What has still to be forwarded after a start comes from an edit that was made when all projects
had been registered. -/
theorem notified_of_plan {config : Config} {environment : Environment} {solution : Solution}
    {tree : FileTree} {now : Nat} (hplan : events.filterMap Event.step? = plan solution)
    (hrun : (new config environment solution tree now).follow events = .ok s) (k : Place) :
    s.Notified k ↔ ∃ watching change later,
      (new config environment solution tree now).Meets events watching (.edit change) later ∧
      (∀ p, .register p ∉ later.filterMap Event.step?) ∧ watching.Notices change k := by
  rw [notified_follow hrun k]
  constructor
  · rintro (⟨w, hw, -⟩ | ⟨watching, change, later, ⟨before, hevents, hbefore⟩, hnotices⟩)
    · exact absurd hw List.not_mem_nil
    · refine ⟨watching, change, later, ⟨before, hevents, hbefore⟩, fun p hp => ?_, hnotices⟩
      have hsteps : before.filterMap Event.step? ++ later.filterMap Event.step? =
          plan solution := by
        rw [← hplan, hevents, List.filterMap_append, List.filterMap_cons_none rfl]
      have hnone := watchers_follow hbefore
        (fun q => not_watch_mem_of_register_mem hsteps hp) rfl
      obtain ⟨w, hw, -⟩ := hnotices
      rw [hnone] at hw
      exact absurd hw List.not_mem_nil
  · rintro ⟨watching, change, later, hmeets, -, hnotices⟩
    exact .inr ⟨watching, change, later, hmeets, hnotices⟩

/-- What a start leaves behind does not depend on what is edited between its steps, nor on what the
cache holds. The index has of every file what was loaded of it. The look of a tracked file was noted
when a project was registered. A change of the file has still to be forwarded if and only if an edit
of it was noticed, which is none that was made before the last project was registered. So a file
that was not taken from the cache is indexed as it was when its look was noted, unless it was edited
after it was loaded, and nothing is noticed of such an edit. -/
theorem startup {config : Config} {environment : Environment} {solution : Solution}
    {tree : FileTree} {now : Nat} {events : List Event} {s : Session}
    (hplan : events.filterMap Event.step? = plan solution)
    (hrun : (new config environment solution tree now).follow events = .ok s) :
    let first := new config environment solution tree now
    ∃ (atLoad : Session) (c : Collection) (after : List Event),
      first.Meets events atLoad (.step .load) after ∧
      (atLoad.cached = some c ∨
        atLoad.cached = none ∧ c = (config.sources atLoad.tree).collect solution) ∧
      (∀ f : Path, s.schedule.index.inFile f =
        collapse (c.symbols.filter fun u => u.file.place = f.place)) ∧
      ∀ (k : Place) (q : Path) (look : Fingerprint),
        s.schedule.updater.tracking.seen[k]? = some (q, look) →
        ∃ (registered : Session) (p : Project) (f : Path) (rest : List Event),
          first.Meets events registered (.step (.register p)) rest ∧
          registered.Sees p f look ∧ f.place = k ∧
          (s.Notified k ↔ ∃ (watching : Session) (change : Edit) (later : List Event),
            first.Meets events watching (.edit change) later ∧
            (∀ p, .register p ∉ later.filterMap Event.step?) ∧ watching.Notices change k) ∧
          (atLoad.cached = none → atLoad.tree.Proper → registered.tree.Proper →
            solution.Apart atLoad.tree → solution.Settled atLoad.tree →
            config.scanner.rules.Lists atLoad.tree p k →
            atLoad.tree.readText? f = registered.tree.readText? f →
            s.schedule.index.inFile f =
              collapse ((config.sources registered.tree).declared p.name f)) := by
  intro first
  obtain ⟨before, e, after, rfl, -, he, hafter⟩ := List.filterMap_eq_cons_iff.mp hplan
  obtain rfl : e = .step .load := by
    cases e with
    | step st => rw [Option.some.inj he]
    | edit change => cases he
  obtain ⟨atLoad, hbefore, hload⟩ := follow_append_eq_ok.mp hrun
  obtain ⟨loaded, hproceed, hlater⟩ := follow_cons_eq_ok.mp hload
  cases proceeds_of_eq_ok hproceed with
  | load c hc =>
    obtain ⟨⟨-, hschedule⟩, hsource⟩ := load_eq_ok hc
    obtain ⟨hconfig, hsolution⟩ := keeps_follow hbefore
    rw [hconfig, hsolution] at hsource
    have hindex : ∀ f : Path, s.schedule.index.inFile f =
        collapse (c.symbols.filter fun u => u.file.place = f.place) := by
      intro f
      have hnoload : .load ∉ after.filterMap Event.step? := by
        rw [hafter]
        simp
      rw [index_follow hlater hnoload, hschedule]
      exact Snapshot.inFile_rebuild _ c f
    refine ⟨atLoad, c, after, ⟨before, rfl, hbefore⟩, hsource, hindex, fun k q look hseen => ?_⟩
    rcases seen_follow hrun hseen with hnew | ⟨registered, p, f, rest, hmeets, hsees, rfl⟩
    · simp [new, Updater.new] at hnew
    · refine ⟨registered, p, f, rest, hmeets, hsees, rfl, ?_, ?_⟩
      · exact notified_of_plan hplan hrun f.place
      · intro huncached ht hu hs hsettled hlists htext
        obtain ⟨files, hlist, hf, -⟩ := hsees
        obtain ⟨early, hevents, hearly⟩ := hmeets
        rw [(keeps_follow hearly).1] at hlist
        have hp : p ∈ solution.projects := by
          have hmem : Step.register p ∈ plan solution := by
            rw [← hplan, hevents]
            exact List.mem_filterMap.mpr ⟨_, List.mem_append_right _ List.mem_cons_self, rfl⟩
          simpa [plan] using hmem
        rcases hsource with hcached | ⟨-, rfl⟩
        · rw [huncached] at hcached
          cases hcached
        · rw [hindex]
          exact collapse_collect_of_unedited ht hu hs hsettled hp hlist hf hlists htext

/-! ## An edit between loading and registering -/

/-- The text of a file that declares a class. -/
def classText (name : String) : String :=
  "[\x7b\"name\":\"" ++ name ++ "\",\"kind\":\"class\",\"file_path\":\"\",\"project_name\":\"\"\x7d]"

/-- A session about to start on one file. -/
def plainSession : Session :=
  new {} {} Upkeep.plainSolution (Upkeep.plainTree.write 0 ["r", "a.json"] (classText "Old") 0) 0

/-- A start during which the file is edited after it was loaded. -/
def disturbedStart : List Event :=
  [.step .load, .edit (.write ["r", "a.json"] (classText "New") 1),
    .step (.register Upkeep.plainProject), .step (.watch Upkeep.plainProject)]

/-- A file that was edited after it was loaded is indexed as it was before. It looks just as was
noted, and no change of it will ever be forwarded. -/
theorem startup_of_disturbance :
    ∃ s, plainSession.follow disturbedStart = .ok s ∧
      (s.schedule.index.inFile ⟨"/r/a.json"⟩).map Symbol.name = ["Old"] ∧
      ((s.config.sources s.tree).declared "P" ⟨"/r/a.json"⟩).map Symbol.name = ["New"] ∧
      (∃ q look, s.schedule.updater.tracking.seen[(⟨"/r/a.json"⟩ : Path).place]? = some (q, look) ∧
        s.tree.fingerprint q = .ok look) ∧
      ¬ s.Notified (⟨"/r/a.json"⟩ : Path).place := by
  have hfacts : (plainSession.follow disturbedStart).toOption.map (fun s =>
      ((s.schedule.index.inFile ⟨"/r/a.json"⟩).map Symbol.name,
        ((s.config.sources s.tree).declared "P" ⟨"/r/a.json"⟩).map Symbol.name,
        (s.schedule.updater.tracking.seen[(⟨"/r/a.json"⟩ : Path).place]?).map
          fun seen => decide (s.tree.fingerprint seen.1 = .ok seen.2))) =
      some (["Old"], ["New"], some true) := by
    decide +kernel
  cases hrun : plainSession.follow disturbedStart with
  | error fault =>
      rw [hrun] at hfacts
      cases hfacts
  | ok s =>
      rw [hrun] at hfacts
      obtain ⟨hindex, hfacts⟩ := Prod.mk.inj (Option.some.inj hfacts)
      obtain ⟨hdeclared, hlook⟩ := Prod.mk.inj hfacts
      obtain ⟨⟨q, look⟩, hseen, hsame⟩ := Option.map_eq_some_iff.mp hlook
      refine ⟨s, rfl, hindex, hdeclared, ⟨q, look, hseen, of_decide_eq_true hsame⟩, ?_⟩
      obtain ⟨atLoad, c, after, -, -, -, htracked⟩ := startup (by rfl) hrun
      obtain ⟨registered, p, f, rest, -, -, -, hnotified, -⟩ := htracked _ q look hseen
      rw [hnotified]
      rintro ⟨watching, change, later, ⟨before, hevents, -⟩, hnone, -⟩
      apply hnone Upkeep.plainProject
      -- The second event is the only edit.
      rcases before with _ | ⟨_, _ | ⟨_, _ | ⟨_, _ | ⟨_, before⟩⟩⟩⟩
      all_goals
        simp only [disturbedStart, List.nil_append, List.cons_append, List.cons.injEq] at hevents
      · exact absurd hevents.1 (by simp)
      · rw [← hevents.2.2]
        exact List.mem_cons_self
      · exact absurd hevents.2.2.1 (by simp)
      · exact absurd hevents.2.2.2.1 (by simp)
      · simp at hevents

end Session

end SymbolAtlas
