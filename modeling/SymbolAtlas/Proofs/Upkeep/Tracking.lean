import SymbolAtlas.Proofs.Update.Work
import SymbolAtlas.Proofs.Upkeep.Solution

/-!
# What is tracked of a solution

Only files that belong to a project are tracked for it, so a change of a file is always taken for
one of the project around it.
-/

namespace SymbolAtlas

namespace Solution

variable {s : Solution} {t : FileTree} {p : Project} {name : String} {q : Path}

/-- Whether a path is one of a file below the folder of a project. -/
def Owns (s : Solution) (name : String) (q : Path) : Prop :=
  ∃ p ∈ s.projects, p.name = name ∧ ∃ names, (∀ n ∈ names, Path.IsName n) ∧ q = p.root.down names

theorem Owns.prefix_place (h : s.Owns name q) :
    ∃ p ∈ s.projects, p.name = name ∧ p.root.place <+: q.place := by
  obtain ⟨p, hp, hname, names, hnames, rfl⟩ := h
  refine ⟨p, hp, hname, ?_⟩
  rw [Path.place_down hnames]
  exact List.prefix_append _ _

/-- Two paths of files are one if they lead to one place, and they belong to one project. -/
theorem Owns.eq_of_place_eq {name' : String} {q' : Path} (hs : s.Apart t) (h : s.Owns name q)
    (h' : s.Owns name' q') (hplace : q.place = q'.place) : name = name' ∧ q = q' := by
  obtain ⟨p', hp', hname', hbelow⟩ := h'.prefix_place
  obtain ⟨p, hp, rfl, names, hnames, rfl⟩ := h
  obtain ⟨p'', hp'', rfl, names', hnames', rfl⟩ := h'
  have hpp' := hs.eq_of_name_eq hp' hp'' hname'
  subst hpp'
  rw [← hplace] at hbelow
  have hpp := hs.eq_of_prefix hp hp' hnames hbelow
  subst hpp
  rw [Path.eq_of_place_down_eq hnames hnames' hplace]
  exact ⟨rfl, rfl⟩

end Solution

namespace Tracking

/-- Tracking that knows projects of a solution only, and gives no file to a project unless its
folder is around the file. -/
structure Rooted (s : Solution) (u : Tracking) : Prop where
  projects : ∀ (name : String) p, u.projects[name]? = some p → p ∈ s.projects ∧ p.name = name
  owners : ∀ (k : Place) name, u.owners[k]? = some name →
    ∃ p ∈ s.projects, p.name = name ∧ p.root.place <+: k

/-- Tracking that keeps to the files of a solution, among those that are known. -/
structure Sound (s : Solution) (known : Place → Prop) (u : Tracking) : Prop extends
    Rooted s u where
  files : ∀ name k q, (u.filesOf name).at? k = some q → s.Owns name q ∧ known q.place

/-- Tracking that knows of all projects. -/
def Complete (s : Solution) (u : Tracking) : Prop := ∀ p ∈ s.projects, u.projects[p.name]? = some p

variable {s : Solution} {t : FileTree} {known : Place → Prop} {u : Tracking} {p : Project}
  {name : String} {q : Path}

theorem rooted_empty (s : Solution) : Rooted s {} where
  projects := by simp
  owners := by simp

theorem Rooted.track (h : u.Rooted s)
    (hq : ∃ p ∈ s.projects, p.name = name ∧ p.root.place <+: q.place) (f : Fingerprint) :
    (u.track q name f).Rooted s := by
  refine ⟨h.projects, fun k project hk => ?_⟩
  change (u.owners.insert q.place name)[k]? = some project at hk
  rw [Std.TreeMap.getElem?_insert] at hk
  split_ifs at hk with heq
  · cases hk
    rw [← Std.LawfulEqCmp.compare_eq_iff_eq.mp heq]
    exact hq
  · exact h.owners k project hk

theorem Rooted.untrack (h : u.Rooted s) (q : Path) : (u.untrack q).Rooted s := by
  refine ⟨h.projects, fun k project hk => ?_⟩
  change (u.owners.erase q.place)[k]? = some project at hk
  rw [Std.TreeMap.getElem?_erase] at hk
  split_ifs at hk
  exact h.owners k project hk

theorem Rooted.insert (h : u.Rooted s) (hp : p ∈ s.projects) :
    ({ u with projects := u.projects.insert p.name p } : Tracking).Rooted s := by
  refine ⟨fun name p' hp' => ?_, h.owners⟩
  change (u.projects.insert p.name p)[name]? = some p' at hp'
  rw [Std.TreeMap.getElem?_insert] at hp'
  split_ifs at hp' with hname
  · cases hp'
    exact ⟨hp, Std.LawfulEqCmp.compare_eq_iff_eq.mp hname⟩
  · exact h.projects name p' hp'

theorem sound_empty (s : Solution) (known : Place → Prop) : Sound s known {} where
  toRooted := rooted_empty s
  files := by simp [filesOf, PathSet.at?]

theorem Sound.mono {known' : Place → Prop} (h : u.Sound s known) (hk : ∀ k, known k → known' k) :
    u.Sound s known' :=
  ⟨h.toRooted, fun name k q hq => (h.files name k q hq).imp_right (hk q.place)⟩

theorem getElem?_seen_see (u : Tracking) (q : Path) (f : Fingerprint) (k : Place) :
    (u.see q f).seen[k]? =
      if q.place = k then some (((u.seen[k]?).map Prod.fst).getD q, f) else u.seen[k]? := by
  change (u.seen.alter q.place _)[k]? = _
  rw [Std.TreeMap.getElem?_alter]
  simp only [Std.LawfulEqCmp.compare_eq_iff_eq]
  split_ifs with hk
  · rw [hk]
    cases u.seen[k]? <;> rfl
  · rfl

theorem seen_track (u : Tracking) (q : Path) (project : String) (f : Fingerprint) :
    (u.track q project f).seen = (u.see q f).seen := rfl

theorem filesOf_track (u : Tracking) (q : Path) (project name : String) (f : Fingerprint) :
    (u.track q project f).filesOf name =
      if project = name then (u.filesOf name).add q else u.filesOf name := by
  unfold filesOf track see
  dsimp only
  rw [Std.TreeMap.getElem?_alter]
  simp only [Std.LawfulEqCmp.compare_eq_iff_eq]
  split_ifs with hname
  · rw [hname]
    rfl
  · rfl

theorem Sound.track (h : u.Sound s known) (hq : s.Owns name q) (hknown : known q.place)
    (f : Fingerprint) : (u.track q name f).Sound s known := by
  refine ⟨h.toRooted.track hq.prefix_place f, fun project k q' hq' => ?_⟩
  rw [filesOf_track] at hq'
  split_ifs at hq' with hname
  · rw [PathSet.at?_add] at hq'
    split_ifs at hq' with hk
    · cases hold : (u.filesOf project).at? k with
      | none =>
          rw [hold] at hq'
          cases hq'
          rw [← hname]
          exact ⟨hq, hknown⟩
      | some old =>
          rw [hold] at hq'
          cases hq'
          exact h.files project k old hold
    · exact h.files project k q' hq'
  · exact h.files project k q' hq'

theorem Sound.untrack (h : u.Sound s known) (q : Path) : (u.untrack q).Sound s known := by
  refine ⟨h.toRooted.untrack q, fun project k q' hq' => ?_⟩
  apply h.files project k q'
  unfold filesOf Tracking.untrack at hq'
  dsimp only at hq'
  split at hq'
  · next owner howner =>
    rw [Std.TreeMap.getElem?_modify] at hq'
    split_ifs at hq' with hname
    · rw [← Std.LawfulEqCmp.compare_eq_iff_eq.mp hname]
      unfold filesOf
      cases hget : u.files[owner]? with
      | none =>
          rw [hget] at hq'
          simp [PathSet.at?] at hq'
      | some paths =>
          rw [hget] at hq'
          change (paths.erase q.place).at? k = some q' at hq'
          rw [PathSet.at?_erase] at hq'
          split_ifs at hq'
          exact hq'
    · exact hq'
  · exact hq'

theorem Rooted.nodup_values (h : u.Rooted s) : u.projects.values.Nodup := by
  apply List.Nodup.of_map Project.name
  have hkeys : u.projects.values.map Project.name = u.projects.keys := by
    rw [← map_snd_toList, ← Std.TreeMap.map_fst_toList_eq_keys, List.map_map]
    refine List.map_congr_left fun ⟨name, p⟩ hmem => ?_
    exact (h.projects name p (Std.TreeMap.mem_toList_iff_getElem?_eq_some.mp hmem)).2
  rw [hkeys]
  exact nodup_keys u.projects

theorem filter_eq_singleton {α : Type} {l : List α} (hl : l.Nodup) {a : α} (ha : a ∈ l)
    {f : α → Bool} (hf : ∀ b ∈ l, f b ↔ b = a) : l.filter f = [a] := by
  induction l with
  | nil => simp at ha
  | cons b rest ih =>
      obtain ⟨hb, hrest⟩ := List.nodup_cons.mp hl
      rw [List.filter_cons]
      rcases List.mem_cons.mp ha with rfl | hin
      · have hnone : rest.filter f = [] := by
          rw [List.filter_eq_nil_iff]
          intro c hc hfc
          rw [(hf c (List.mem_cons_of_mem a hc)).mp hfc] at hc
          exact hb hc
        rw [if_pos ((hf a (by simp)).mpr rfl), hnone]
      · rw [if_neg]
        · exact ih hrest hin fun c hc => hf c (List.mem_cons_of_mem b hc)
        · intro hfb
          rw [(hf b (by simp)).mp hfb] at hb
          exact hb hin

/-- A file below the folder of a project belongs to this project. -/
theorem Sound.projectOf?_eq (h : u.Sound s known) (hc : u.Complete s) (hs : s.Apart t)
    (hq : s.Owns name q) : u.projectOf? q = some name := by
  obtain ⟨p, hp, rfl, names, hnames, rfl⟩ := hq
  unfold projectOf?
  cases howner : u.owners[(p.root.down names).place]? with
  | some owner =>
      obtain ⟨p', hp', rfl, hbelow⟩ := h.owners _ owner howner
      rw [hs.eq_of_prefix hp hp' hnames hbelow]
  | none =>
      have haround : u.projects.values.filter (fun p' => (p.root.down names).startsWith p'.root) =
          [p] := by
        apply filter_eq_singleton h.nodup_values ((mem_values u.projects p).mpr ⟨p.name, hc p hp⟩)
        intro p' hp'
        obtain ⟨name, hname⟩ := (mem_values u.projects p').mp hp'
        unfold Path.startsWith
        rw [List.isPrefixOf_iff_prefix]
        constructor
        · intro hbelow
          exact (hs.eq_of_prefix hp (h.projects name p' hname).1 hnames hbelow).symm
        · rintro rfl
          rw [Path.place_down hnames]
          exact List.prefix_append _ _
      unfold around?
      rw [haround]
      rfl

/-- A change of a file that is reported is taken for one of the project of the file. -/
theorem Sound.notice (h : u.Sound s known) (hc : u.Complete s) (hs : s.Apart t)
    (hq : s.Owns name q) (hknown : known q.place) (src : Sources) (c : Change) :
    (u.notice src q c).1 = ⟨q, c, some name⟩ ∧ (u.notice src q c).2.Sound s known ∧
      (u.notice src q c).2.Complete s := by
  have hproject := h.projectOf?_eq hc hs hq
  unfold Tracking.notice
  dsimp only
  rw [hproject]
  refine ⟨rfl, ?_⟩
  cases c with
  | deleted => exact ⟨h.untrack q, hc⟩
  | created | contentChanged =>
      dsimp only
      cases src.fingerprint q with
      | ok f => exact ⟨h.track hq hknown f, hc⟩
      | error e => exact ⟨h, hc⟩

/-! ## Registering the projects -/

/-- Tracks files of a project. -/
def trackAll (u : Tracking) (project : String) (found : List (Path × Fingerprint)) : Tracking :=
  found.foldl (fun u (q, f) => u.track q project f) u

/-- Registering a project tracks those of its files that can be seen, unless they cannot be
listed. -/
theorem register_cases (u : Tracking) (src : Sources) (p : Project) :
    (∃ e, src.list p = .error e ∧ u.register src p = .error e) ∨
    ∃ files found, src.list p = .ok files ∧
      u.register src p = .ok (found.length,
        { u with projects := u.projects.insert p.name p }.trackAll p.name found) ∧
      ∀ e, e ∈ found ↔ e.1 ∈ files ∧ src.fingerprint e.1 = .ok e.2 := by
  unfold Tracking.register
  cases hfiles : src.list p with
  | error e => exact .inl ⟨e, rfl, rfl⟩
  | ok files =>
      refine .inr ⟨files, _, rfl, rfl, fun e => ?_⟩
      rw [List.mem_filterMap]
      constructor
      · rintro ⟨f, hf, hsome⟩
        split at hsome
        · next look hlook =>
          cases hsome
          exact ⟨hf, hlook⟩
        · cases hsome
      · rintro ⟨hf, hlook⟩
        exact ⟨e.1, hf, by rw [hlook]⟩

theorem Sound.trackAll (h : u.Sound s known) {found : List (Path × Fingerprint)}
    (hfound : ∀ e ∈ found, s.Owns name e.1 ∧ known e.1.place) :
    (u.trackAll name found).Sound s known ∧ (u.trackAll name found).projects = u.projects := by
  induction found generalizing u with
  | nil => exact ⟨h, rfl⟩
  | cons e rest ih =>
      obtain ⟨howns, hknown⟩ := hfound e (by simp)
      exact ih (h.track howns hknown e.2) fun e' he' => hfound e' (List.mem_cons_of_mem e he')

theorem Sound.register (h : u.Sound s known) (hp : p ∈ s.projects) {src : Sources} {n : Nat}
    {v : Tracking} (hregister : u.register src p = .ok (n, v))
    (hlist : ∀ files, src.list p = .ok files → ∀ f ∈ files, s.Owns p.name f ∧ known f.place) :
    v.Sound s known ∧ (∃ files, src.list p = .ok files) ∧
      ∀ name : String, v.projects[name]? = if p.name = name then some p else u.projects[name]? := by
  rcases u.register_cases src p with ⟨e, -, herror⟩ | ⟨files, found, hfiles, hok, hfound⟩
  · rw [herror] at hregister
    cases hregister
  · rw [hok] at hregister
    cases hregister
    have hinsert : ({ u with projects := u.projects.insert p.name p } : Tracking).Sound s known :=
      ⟨h.toRooted.insert hp, h.files⟩
    obtain ⟨hsound, hprojects⟩ := hinsert.trackAll fun e he =>
      hlist files hfiles e.1 ((hfound e).mp he).1
    refine ⟨hsound, ⟨files, hfiles⟩, fun name => ?_⟩
    refine (congrArg (·[name]?) hprojects).trans ?_
    change (u.projects.insert p.name p)[name]? = _
    rw [Std.TreeMap.getElem?_insert]
    simp only [Std.LawfulEqCmp.compare_eq_iff_eq]

end Tracking

end SymbolAtlas
