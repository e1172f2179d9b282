import SymbolAtlas.Proofs.Update.Ownership

/-!
# Whom a change is taken for

A change of a file is taken for one of its owner, or else of a project whose root is around it. So
it is taken for nobody if its path strays from all roots, and then nothing is ever indexed for it.
-/

namespace SymbolAtlas

/-- A path that is below the root of no project. -/
def Solution.Strays (s : Solution) (q : Path) : Prop :=
  ∀ p ∈ s.projects, ¬ p.root.place <+: q.place

namespace Tracking

variable {s : Solution} {u v : Tracking} {q : Path} {name : String} {src : Sources}

/-! ## The project of a file -/

theorem foldl_deeper_mem (first : Project) (rest : List Project) :
    rest.foldl deeper first ∈ first :: rest := by
  induction rest generalizing first with
  | nil => exact List.mem_cons_self
  | cons p rest ih =>
      rw [List.foldl_cons]
      rcases List.mem_cons.mp (ih (deeper first p)) with hfirst | hrest
      · rw [hfirst]
        unfold deeper
        split_ifs
        · exact List.mem_cons_self
        · exact List.mem_cons_of_mem _ List.mem_cons_self
      · exact List.mem_cons_of_mem _ (List.mem_cons_of_mem _ hrest)

theorem around?_eq_some {p : Project} (h : u.around? q = some p) :
    p ∈ u.projects.values ∧ p.root.place <+: q.place := by
  unfold around? at h
  split at h
  · cases h
  · next first rest hfilter =>
    have hmem := foldl_deeper_mem first rest
    rw [Option.some.inj h, ← hfilter] at hmem
    obtain ⟨hvalue, hstarts⟩ := List.mem_filter.mp hmem
    exact ⟨hvalue, List.isPrefixOf_iff_prefix.mp hstarts⟩

/-- A file is only taken for one of a project whose root is around it. -/
theorem Rooted.root_prefix_of_projectOf? (h : u.Rooted s) (hq : u.projectOf? q = some name) :
    ∃ p ∈ s.projects, p.name = name ∧ p.root.place <+: q.place := by
  unfold projectOf? at hq
  cases howner : u.owners[q.place]? with
  | some owner =>
      rw [howner] at hq
      cases hq
      exact h.owners q.place name howner
  | none =>
      rw [howner] at hq
      obtain ⟨p, haround, rfl⟩ := Option.map_eq_some_iff.mp hq
      obtain ⟨hvalue, hprefix⟩ := around?_eq_some haround
      obtain ⟨name', hget⟩ := (mem_values u.projects p).mp hvalue
      exact ⟨p, (h.projects name' p hget).1, rfl, hprefix⟩

theorem Rooted.projectOf?_of_strays (h : u.Rooted s) (hq : s.Strays q) :
    u.projectOf? q = none := by
  by_contra hsome
  obtain ⟨name, hname⟩ := Option.ne_none_iff_exists'.mp hsome
  obtain ⟨p, hp, -, hprefix⟩ := h.root_prefix_of_projectOf? hname
  exact hq p hp hprefix

theorem Rooted.see (h : u.Rooted s) (q : Path) (f : Fingerprint) : (u.see q f).Rooted s :=
  ⟨h.projects, h.owners⟩

theorem Rooted.notice (h : u.Rooted s) (src : Sources) (q : Path) (c : Change) :
    (u.notice src q c).2.Rooted s := by
  unfold Tracking.notice
  cases c with
  | deleted => exact h.untrack q
  | created | contentChanged =>
      dsimp only
      cases src.fingerprint q with
      | error e => exact h
      | ok f =>
          cases hproject : u.projectOf? q with
          | none => exact h.see q f
          | some name => exact h.track (h.root_prefix_of_projectOf? hproject) f

/-- A change of a file, when it is reported, is taken for one of a project, and all work that comes
of it is to index the file again for this project. -/
def TakesFor (u : Tracking) (q : Path) (name : String) : Prop :=
  ∀ (src : Sources) (c : Change), (u.notice src q c).1 = ⟨q, c, some name⟩ ∧
    ∀ (t : Tracking) (dependents : ProjectGraph) (events : List FileEvent),
      (u.notice src q c).1 ∈ events →
        ∃ r, (Work.ofChanges t dependents events).Names name r q.place

/-- A file that is owned is taken for one of its owner. -/
theorem takesFor_of_owner (howner : u.owners[q.place]? = some name) : u.TakesFor q name := by
  intro src c
  have hproject : u.projectOf? q = some name := by
    unfold projectOf?
    rw [howner]
  have hnotice : (u.notice src q c).1 = ⟨q, c, some name⟩ := by rw [← hproject]; rfl
  refine ⟨hnotice, fun t dependents events hmem => ?_⟩
  rw [hnotice] at hmem
  exact Work.exists_names_ofChanges (e := ⟨q, c, some name⟩) hmem (Work.owner?_of_project rfl)

theorem Rooted.notice_of_strays (h : u.Rooted s) (hq : s.Strays q) (src : Sources) (c : Change) :
    (u.notice src q c).1 = ⟨q, c, none⟩ := by
  unfold Tracking.notice
  rw [h.projectOf?_of_strays hq]

/-! ## Registering one project after the other -/

def registerAll (u : Tracking) (src : Sources) (projects : List Project) : Except String Tracking :=
  projects.foldlM (fun u p => (u.register src p).map Prod.snd) u

theorem registerAll_cons_eq_ok {p : Project} {rest : List Project} :
    u.registerAll src (p :: rest) = .ok v ↔
      ∃ n next, u.register src p = .ok (n, next) ∧ next.registerAll src rest = .ok v := by
  unfold registerAll
  rw [List.foldlM_cons]
  cases hregister : u.register src p with
  | error e => simp [Except.map, bind, Except.bind]
  | ok result =>
      obtain ⟨n, next⟩ := result
      simp [Except.map, bind, Except.bind]

theorem Rooted.trackAll (h : u.Rooted s) {found : List (Path × Fingerprint)}
    (hfound : ∀ e ∈ found, ∃ p ∈ s.projects, p.name = name ∧ p.root.place <+: e.1.place) :
    (u.trackAll name found).Rooted s := by
  induction found generalizing u with
  | nil => exact h
  | cons e rest ih =>
      exact ih (h.track (hfound e List.mem_cons_self) e.2) fun e' he' =>
        hfound e' (List.mem_cons_of_mem e he')

/-- All projects have listings whose files are below their roots. -/
theorem Rooted.registerAll {projects : List Project} (h : u.Rooted s)
    (hprojects : ∀ p ∈ projects, p ∈ s.projects)
    (hlist : ∀ p ∈ projects, ∀ files, src.list p = .ok files → ∀ f ∈ files,
      p.root.place <+: f.place)
    (hregister : u.registerAll src projects = .ok v) : v.Rooted s := by
  induction projects generalizing u with
  | nil =>
      cases hregister
      exact h
  | cons p rest ih =>
      obtain ⟨n, next, hnext, hrest⟩ := registerAll_cons_eq_ok.mp hregister
      refine ih ?_ (fun q hq => hprojects q (List.mem_cons_of_mem p hq))
        (fun q hq => hlist q (List.mem_cons_of_mem p hq)) hrest
      have hp := hprojects p List.mem_cons_self
      rcases u.register_cases src p with ⟨e, -, herror⟩ | ⟨files, found, hfiles, hok, hfound⟩
      · rw [herror] at hnext
        cases hnext
      · rw [hok] at hnext
        cases hnext
        refine (h.insert hp).trackAll fun e he => ⟨p, hp, rfl, ?_⟩
        exact hlist p List.mem_cons_self files hfiles e.1 ((hfound e).mp he).1

theorem exists_list_of_registerAll {projects : List Project}
    (h : u.registerAll src projects = .ok v) :
    ∀ p ∈ projects, ∃ files, src.list p = .ok files := by
  induction projects generalizing u with
  | nil => simp
  | cons p rest ih =>
      obtain ⟨n, next, hnext, hrest⟩ := registerAll_cons_eq_ok.mp h
      intro q hq
      rcases List.mem_cons.mp hq with rfl | hq
      · rcases u.register_cases src q with ⟨e, -, herror⟩ | ⟨files, -, hfiles, -⟩
        · rw [herror] at hnext
          cases hnext
        · exact ⟨files, hfiles⟩
      · exact ih hrest q hq

/-- Of the projects that find a file the last one owns it. -/
theorem owner_registerAll {projects : List Project} {k : Place}
    (h : u.registerAll src projects = .ok v) :
    (∃ p ∈ projects, src.Finds p k ∧ v.owners[k]? = some p.name) ∨
      (∀ p ∈ projects, ¬ src.Finds p k) ∧ v.owners[k]? = u.owners[k]? := by
  induction projects generalizing u with
  | nil =>
      cases h
      exact .inr ⟨by simp, rfl⟩
  | cons p rest ih =>
      obtain ⟨n, next, hnext, hrest⟩ := registerAll_cons_eq_ok.mp h
      rcases ih hrest with ⟨q, hq, hfinds, howner⟩ | ⟨hnone, howner⟩
      · exact .inl ⟨q, List.mem_cons_of_mem p hq, hfinds, howner⟩
      · rcases u.register_finds src p with ⟨e, herror, -⟩ | ⟨found, hok, hfound⟩
        · rw [herror] at hnext
          cases hnext
        · rw [hok] at hnext
          cases hnext
          rw [getElem?_owners_trackAll] at howner
          by_cases hfinds : src.Finds p k
          · rw [if_pos ((hfound k).mpr hfinds)] at howner
            exact .inl ⟨p, List.mem_cons_self, hfinds, howner⟩
          · rw [if_neg fun hin => hfinds ((hfound k).mp hin)] at howner
            exact .inr ⟨List.forall_mem_cons.mpr ⟨hfinds, hnone⟩, howner⟩

end Tracking

/-! ## Changes that are taken for nobody -/

theorem Work.ofChanges_eq_empty {t : Tracking} {events : List FileEvent}
    (h : ∀ e ∈ events, owner? t e = none) (dependents : ProjectGraph) :
    ofChanges t dependents events = {} := by
  have hevents : ofEvents t events = {} := by
    induction events using List.reverseRecOn with
    | nil => rfl
    | append_singleton events e ih =>
        rw [ofEvents_concat_of_none (h e (by simp))]
        exact ih fun e' he' => h e' (List.mem_append_left [e] he')
  unfold ofChanges
  rw [hevents]
  rfl

namespace Updater

/-- An updater that has been told of nothing but changes of paths that stray from all roots. -/
structure Idle (s : Solution) (u : Updater) : Prop where
  rooted : u.tracking.Rooted s
  batch : ∀ (k : Place) e, u.batch[k]? = some e → e.project = none ∧ s.Strays e.path
  tasks : u.tasks = []

variable {s : Solution} {u : Updater} {q : Path}

/-- There is nothing to do for changes that are taken for nobody. -/
theorem submit_of_strays (h : u.tracking.Rooted s) {events : List FileEvent}
    (hevents : ∀ e ∈ events, e.project = none ∧ s.Strays e.path) : u.submit events = u := by
  have hwork : Work.ofChanges u.tracking u.dependents events = {} := by
    apply Work.ofChanges_eq_empty
    intro e he
    obtain ⟨hproject, hstrays⟩ := hevents e he
    unfold Work.owner?
    rw [hproject, h.projectOf?_of_strays hstrays]
    rfl
  unfold submit start
  rw [hwork, if_pos (show ({} : Work).isEmpty = true from rfl)]
  split_ifs <;> rfl

theorem Idle.notify (h : u.Idle s) (hq : s.Strays q) (src : Sources) (c : Change) :
    (notify src (fun _ us => us) q c (u, ())).1.Idle s := by
  have hnoting : (u.noting src q c).Idle s := ⟨h.rooted.notice src q c, h.batch, h.tasks⟩
  rw [notify_eq, h.rooted.notice_of_strays hq]
  have hevent : (⟨q, c, none⟩ : FileEvent).project = none ∧ s.Strays q := ⟨rfl, hq⟩
  unfold enqueue
  split_ifs
  · exact hnoting
  · rw [submit_of_strays hnoting.rooted (by simpa using hevent)]
    exact hnoting
  · obtain ⟨-, -, htasks, htracking, -⟩ := hold_eq (u.noting src q c) ⟨q, c, none⟩
    refine ⟨htracking ▸ hnoting.rooted, fun k e he => ?_, htasks.trans hnoting.tasks⟩
    rw [getElem?_batch_hold] at he
    split_ifs at he with hk
    · cases hold : (u.noting src q c).batch[k]? with
      | none =>
          rw [hold] at he
          cases he
          exact hevent
      | some old =>
          rw [hold] at he
          cases he
          obtain ⟨hproject, hstrays⟩ := hnoting.batch k old hold
          exact ⟨by simp [mergeEvents, hproject], hstrays⟩
    · exact hnoting.batch k e he

theorem Idle.fire (h : u.Idle s) : u.fire.Idle s := by
  have hevents : ∀ e ∈ u.batch.values, e.project = none ∧ s.Strays e.path := by
    intro e he
    obtain ⟨k, hk⟩ := (mem_values u.batch e).mp he
    exact h.batch k e hk
  have hsubmit := submit_of_strays (u := { u with armed := false, batch := {} }) h.rooted hevents
  unfold Updater.fire
  dsimp only
  rw [hsubmit]
  exact ⟨h.rooted, by simp, h.tasks⟩

end Updater

end SymbolAtlas
