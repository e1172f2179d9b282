import Mathlib.Data.List.Infix
import SymbolAtlas.Proofs.Update.Steps
import SymbolAtlas.Proofs.Upkeep.Tracking

/-!
# Who owns what

Who owns a file is kept twice: under the file, and among the files of each project. An owner is
always listed and its file has been seen. A project stays among those that list a file when another
project is registered and finds the file too, and nothing else sets the two apart.
-/

namespace SymbolAtlas

namespace PathSet

theorem contains_add (s : PathSet) (p : Path) (k : Place) :
    (s.add p).contains k = (decide (p.place = k) || s.contains k) := by
  unfold contains add
  rw [Std.TreeMap.contains_insertIfNew, Bool.eq_iff_iff]
  simp

theorem contains_erase (s : PathSet) (k k' : Place) :
    (s.erase k).contains k' = (decide (k ≠ k') && s.contains k') := by
  unfold contains erase
  rw [Std.TreeMap.contains_erase, Bool.eq_iff_iff]
  simp

end PathSet

namespace Tracking

/-- Whether the files of a project have one at a place. -/
def Lists (t : Tracking) (project : String) (k : Place) : Prop :=
  (t.filesOf project).contains k = true

instance (t : Tracking) (project : String) (k : Place) : Decidable (t.Lists project k) :=
  inferInstanceAs (Decidable (_ = true))

variable {t : Tracking} {p : Path} {project name : String} {f : Fingerprint} {k : Place}

theorem lists_track :
    (t.track p project f).Lists name k ↔ t.Lists name k ∨ project = name ∧ p.place = k := by
  unfold Lists
  rw [filesOf_track]
  split_ifs with hname
  · rw [PathSet.contains_add, Bool.or_eq_true, decide_eq_true_eq, or_comm]
    simp [hname]
  · simp [hname]

theorem getElem?_owners_track :
    (t.track p project f).owners[k]? = if p.place = k then some project else t.owners[k]? := by
  change (t.owners.insert p.place project)[k]? = _
  rw [Std.TreeMap.getElem?_insert]
  simp only [Std.LawfulEqCmp.compare_eq_iff_eq]

theorem mem_seen_see : k ∈ (t.see p f).seen ↔ p.place = k ∨ k ∈ t.seen := by
  rw [Std.TreeMap.mem_iff_isSome_getElem?, Std.TreeMap.mem_iff_isSome_getElem?, getElem?_seen_see]
  split_ifs with hk
  · exact iff_of_true rfl (.inl hk)
  · simp [hk]

theorem contains_modify_erase (files : Std.TreeMap String PathSet) (owner name : String)
    (k' k : Place) :
    (((files.modify owner fun s => s.erase k')[name]?).getD {}).contains k = true ↔
      ((files[name]?).getD {}).contains k = true ∧ ¬ (owner = name ∧ k' = k) := by
  rw [Std.TreeMap.getElem?_modify]
  simp only [Std.LawfulEqCmp.compare_eq_iff_eq]
  split_ifs with hname
  · subst hname
    cases files[owner]? with
    | none => simp [PathSet.contains]
    | some s => simp [PathSet.contains_erase, and_comm]
  · simp [hname]

theorem lists_untrack :
    (t.untrack p).Lists name k ↔ t.Lists name k ∧ ¬ (t.owners[k]? = some name ∧ p.place = k) := by
  unfold Lists filesOf Tracking.untrack
  cases howner : t.owners[p.place]? with
  | none =>
      refine (and_iff_left ?_).symm
      rintro ⟨hk, rfl⟩
      rw [howner] at hk
      cases hk
  | some owner =>
      dsimp only
      rw [contains_modify_erase]
      refine and_congr_right fun _ => not_congr (and_congr_left ?_)
      rintro rfl
      rw [howner, Option.some.injEq]

theorem getElem?_owners_untrack :
    (t.untrack p).owners[k]? = if p.place = k then none else t.owners[k]? := by
  change (t.owners.erase p.place)[k]? = _
  rw [Std.TreeMap.getElem?_erase]
  simp only [Std.LawfulEqCmp.compare_eq_iff_eq]

theorem mem_seen_untrack : k ∈ (t.untrack p).seen ↔ p.place ≠ k ∧ k ∈ t.seen := by
  change k ∈ t.seen.erase p.place ↔ _
  rw [Std.TreeMap.mem_erase]
  simp

/-! ## Keeping the two in step -/

/-- Tracking in which owners are listed and seen, and projects that list a file own it, apart from
those that are left over. -/
structure InStep (leftOver : String → Place → Prop) (t : Tracking) : Prop where
  lists : ∀ (k : Place) name, t.owners[k]? = some name → t.Lists name k
  seen : ∀ (k : Place) name, t.owners[k]? = some name → k ∈ t.seen
  owns : ∀ (k : Place) name, t.Lists name k → t.owners[k]? = some name ∨ leftOver name k

variable {leftOver : String → Place → Prop}

theorem inStep_empty (leftOver : String → Place → Prop) : InStep leftOver {} where
  lists := by simp
  seen := by simp
  owns := by simp [Lists, filesOf, PathSet.contains]

theorem InStep.mono (h : t.InStep leftOver) {leftOver' : String → Place → Prop}
    (hmore : ∀ name k, leftOver name k → leftOver' name k) : t.InStep leftOver' :=
  ⟨h.lists, h.seen, fun k name hk => (h.owns k name hk).imp_right (hmore name k)⟩

theorem InStep.see (h : t.InStep leftOver) (p : Path) (f : Fingerprint) :
    (t.see p f).InStep leftOver :=
  ⟨h.lists, fun k name hk => mem_seen_see.mpr (.inr (h.seen k name hk)), h.owns⟩

/-- A project may take a file over from an owner that is then left over. -/
theorem InStep.track (h : t.InStep leftOver)
    (howner : ∀ owner, t.owners[p.place]? = some owner → owner = project ∨ leftOver owner p.place)
    (f : Fingerprint) : (t.track p project f).InStep leftOver := by
  refine ⟨fun k name hk => ?_, fun k name hk => ?_, fun k name hk => ?_⟩
  · rw [getElem?_owners_track] at hk
    rw [lists_track]
    split_ifs at hk with hplace
    · exact .inr ⟨Option.some.inj hk, hplace⟩
    · exact .inl (h.lists k name hk)
  · rw [getElem?_owners_track] at hk
    refine mem_seen_see.mpr ?_
    split_ifs at hk with hplace
    · exact .inl hplace
    · exact .inr (h.seen k name hk)
  · rw [getElem?_owners_track]
    split_ifs with hplace
    · subst hplace
      rcases lists_track.mp hk with hold | ⟨rfl, -⟩
      · rcases h.owns _ name hold with howns | hleft
        · exact (howner name howns).imp_left fun heq => congrArg some heq.symm
        · exact .inr hleft
      · exact .inl rfl
    · exact h.owns k name ((lists_track.mp hk).resolve_right fun hnew => hplace hnew.2)

theorem InStep.untrack (h : t.InStep leftOver) (p : Path) : (t.untrack p).InStep leftOver := by
  refine ⟨fun k name hk => ?_, fun k name hk => ?_, fun k name hk => ?_⟩
  · rw [getElem?_owners_untrack] at hk
    split_ifs at hk with hplace
    exact lists_untrack.mpr ⟨h.lists k name hk, fun hgone => hplace hgone.2⟩
  · rw [getElem?_owners_untrack] at hk
    split_ifs at hk with hplace
    exact mem_seen_untrack.mpr ⟨hplace, h.seen k name hk⟩
  · obtain ⟨hold, hkept⟩ := lists_untrack.mp hk
    rw [getElem?_owners_untrack]
    rcases h.owns k name hold with howns | hleft
    · rw [if_neg fun hplace => hkept ⟨howns, hplace⟩]
      exact .inl howns
    · exact .inr hleft

/-! ## Looking for changes and being told of them -/

theorem noteEach_nil {α : Type} (note : Tracking → α → Option FileEvent × Tracking)
    (t : Tracking) : noteEach note t [] = ([], t) := rfl

theorem noteEach_concat {α : Type} (note : Tracking → α → Option FileEvent × Tracking)
    (t : Tracking) (xs : List α) (x : α) :
    noteEach note t (xs ++ [x]) =
      ((noteEach note t xs).1 ++ (note (noteEach note t xs).2 x).1.toList,
        (note (noteEach note t xs).2 x).2) := by
  unfold noteEach
  dsimp only
  rw [List.foldl_append, List.foldl_cons, List.foldl_nil, List.reverse_append]
  cases (note (xs.foldl _ ([], t)).2 x).1 <;> rfl

theorem snd_noteEach {α : Type} (note : Tracking → α → Option FileEvent × Tracking)
    (t : Tracking) (xs : List α) :
    (noteEach note t xs).2 = xs.foldl (fun t x => (note t x).2) t := by
  induction xs using List.reverseRecOn with
  | nil => rfl
  | append_singleton xs x ih => rw [noteEach_concat, ih, List.foldl_append]; rfl

theorem noteEach_induction {α : Type} {motive : Tracking → Prop}
    {note : Tracking → α → Option FileEvent × Tracking}
    (hnote : ∀ t x, motive t → motive (note t x).2) (ht : motive t) (xs : List α) :
    motive (noteEach note t xs).2 := by
  unfold noteEach
  generalize ([] : List FileEvent) = events
  induction xs generalizing t events with
  | nil => exact ht
  | cons x rest ih => exact ih (hnote t x ht) _

/-- A survey forgets files, looks at files again and tracks files that were not tracked. -/
theorem survey_induction {motive : Tracking → Prop}
    (huntrack : ∀ t p, motive t → motive (t.untrack p))
    (hsee : ∀ t p f, motive t → motive (t.see p f))
    (htrack : ∀ t (p : Path) project f, p.place ∉ t.seen → motive t → motive (t.track p project f))
    (ht : motive t) (s : Sources) (scan : Bool) : motive (t.survey s scan).2 := by
  unfold Tracking.survey
  dsimp only
  apply noteEach_induction (motive := motive)
  · intro t e he
    unfold noteAppeared
    split_ifs with hseen
    · exact he
    · exact htrack t e.1 e.2.1 e.2.2 hseen he
  apply noteEach_induction (motive := motive)
  · exact fun t e he => hsee t e.1 e.2 he
  exact noteEach_induction huntrack ht _

theorem InStep.survey (h : t.InStep leftOver) (s : Sources) (scan : Bool) :
    (t.survey s scan).2.InStep leftOver := by
  refine survey_induction (fun t p ht => ht.untrack p) (fun t p f ht => ht.see p f)
    (fun t p project f hseen ht => ht.track (fun owner howner => ?_) f) h s scan
  exact absurd (ht.seen _ owner howner) hseen

theorem InStep.notice (h : t.InStep leftOver) (s : Sources) (p : Path) (c : Change) :
    (t.notice s p c).2.InStep leftOver := by
  have hproject : ∀ owner, t.owners[p.place]? = some owner → t.projectOf? p = some owner := by
    intro owner howner
    unfold projectOf?
    rw [howner]
  unfold Tracking.notice
  cases c with
  | deleted => exact h.untrack p
  | created | contentChanged =>
      dsimp only
      cases s.fingerprint p with
      | error e => exact h
      | ok f =>
          cases howner : t.projectOf? p with
          | none => exact h.see p f
          | some project =>
              refine h.track (fun owner ho => .inl ?_) f
              rw [hproject owner ho] at howner
              exact Option.some.inj howner

/-! ## Registering -/

variable {found : List (Path × Fingerprint)}

theorem InStep.trackAll (h : t.InStep leftOver)
    (howner : ∀ e ∈ found, ∀ owner, t.owners[e.1.place]? = some owner →
      owner = project ∨ leftOver owner e.1.place) :
    (t.trackAll project found).InStep leftOver := by
  induction found generalizing t with
  | nil => exact h
  | cons e rest ih =>
      refine ih (h.track (howner e List.mem_cons_self) e.2) fun e' he' owner ho => ?_
      rw [getElem?_owners_track] at ho
      split_ifs at ho
      · exact .inl (Option.some.inj ho).symm
      · exact howner e' (List.mem_cons_of_mem e he') owner ho

theorem lists_trackAll (h : t.Lists name k) : (t.trackAll project found).Lists name k := by
  induction found generalizing t with
  | nil => exact h
  | cons e rest ih => exact ih (lists_track.mpr (.inl h))

/-- A file that a project finds is owned by it from then on. -/
theorem getElem?_owners_trackAll :
    (t.trackAll project found).owners[k]? =
      if k ∈ found.map fun e => e.1.place then some project else t.owners[k]? := by
  induction found generalizing t with
  | nil => rfl
  | cons e rest ih =>
      unfold Tracking.trackAll at ih ⊢
      rw [List.foldl_cons, ih, getElem?_owners_track, List.map_cons]
      by_cases hrest : k ∈ rest.map fun e => e.1.place
      · rw [if_pos hrest, if_pos (List.mem_cons_of_mem _ hrest)]
      · rw [if_neg hrest]
        simp only [List.mem_cons, hrest, or_false, eq_comm]

end Tracking

/-- Whether a project has a source file at a place that can be seen. -/
def Sources.Finds (s : Sources) (p : Project) (k : Place) : Prop :=
  ∃ files, s.list p = .ok files ∧ ∃ f ∈ files, f.place = k ∧ ∃ look, s.fingerprint f = .ok look

/-- Whether a report is of a file that can be seen, and not of one that is gone. -/
def Sources.Sees (s : Sources) (p : Path) (c : Change) : Prop :=
  c ≠ .deleted ∧ ∃ look, s.fingerprint p = .ok look

/-- A project finds exactly the files that its registration tracks. -/
theorem Tracking.register_finds (t : Tracking) (s : Sources) (p : Project) :
    (∃ e, t.register s p = .error e ∧ ∀ k, ¬ s.Finds p k) ∨
    ∃ found : List (Path × Fingerprint),
      t.register s p = .ok (found.length,
        { t with projects := t.projects.insert p.name p }.trackAll p.name found) ∧
      ∀ k, k ∈ found.map (fun e => e.1.place) ↔ s.Finds p k := by
  rcases t.register_cases s p with ⟨e, hlist, herror⟩ | ⟨files, found, hlist, hok, hfound⟩
  · refine .inl ⟨e, herror, fun k => ?_⟩
    rintro ⟨files, hfiles, -⟩
    rw [hlist] at hfiles
    cases hfiles
  · refine .inr ⟨found, hok, fun k => ?_⟩
    rw [List.mem_map]
    constructor
    · rintro ⟨e, he, rfl⟩
      obtain ⟨hf, hlook⟩ := (hfound e).mp he
      exact ⟨files, hlist, e.1, hf, rfl, e.2, hlook⟩
    · rintro ⟨files', hfiles, f, hf, rfl, look, hlook⟩
      rw [hlist] at hfiles
      cases hfiles
      exact ⟨(f, look), (hfound _).mpr ⟨hf, hlook⟩, rfl⟩

namespace Updater

/-! ## Runs of an updater -/

/-- A move of an updater, with the sources and the index at the time. -/
inductive Move where
  | register (s : Sources) (p : Project)
  | detect (s : Sources)
  | notify (s : Sources) (p : Path) (c : Change)
  | fire
  | parse (s : Sources) (id : Nat)
  | apply (x : Snapshot) (id : Nat)

/-- A project that cannot be registered leaves the updater as it was. -/
def move (u : Updater) : Move → Updater
  | .register s p =>
    match u.register s p with
    | .ok (_, v) => v
    | .error _ => u
  | .detect s => (detect s (fun _ us => us) (u, ())).2.1
  | .notify s p c => (notify s (fun _ us => us) p c (u, ())).1
  | .fire => u.fire
  | .parse s id => u.parse s id
  | .apply x id => (u.apply x id).2.2

def run (u : Updater) (moves : List Move) : Updater := moves.foldl move u

theorem run_concat (u : Updater) (moves : List Move) (m : Move) :
    u.run (moves ++ [m]) = (u.run moves).move m := by
  unfold run
  rw [List.foldl_append]
  rfl

/-- Whether a move registers a project that finds a file of another owner. -/
def TakesOver (t : Tracking) : Move → String → Place → Prop
  | .register s p, owner, k => t.owners[k]? = some owner ∧ owner ≠ p.name ∧ s.Finds p k
  | _, _, _ => False

variable {u : Updater} {leftOver : String → Place → Prop}

theorem tracking_register {s : Sources} {p : Project} :
    (u.move (.register s p)).tracking =
      match u.tracking.register s p with
      | .ok (_, tracking) => tracking
      | .error _ => u.tracking := by
  unfold move register
  dsimp only
  cases u.tracking.register s p <;> rfl

theorem tracking_broadcast (events : List FileEvent) (u : Updater) :
    (broadcast (fun _ us => us) events (u, ())).1.tracking = u.tracking := by
  unfold broadcast
  rw [List.foldl_fixed]

theorem tracking_detect {s : Sources} :
    (u.move (.detect s)).tracking =
      if u.detecting then u.tracking else (u.tracking.survey s u.settings.scan).2 := by
  unfold move detect
  dsimp only
  by_cases hdetecting : u.detecting = true
  · rw [if_pos hdetecting, if_pos hdetecting]
  · rw [if_neg hdetecting, if_neg hdetecting]
    refine (submit_keeps _ _).2.trans ?_
    split_ifs
    · rfl
    · exact tracking_broadcast _ _

theorem tracking_notify {s : Sources} {p : Path} {c : Change} :
    (u.move (.notify s p c)).tracking = (u.tracking.notice s p c).2 := by
  unfold move
  dsimp only
  rw [notify_eq]
  unfold enqueue
  split_ifs
  · rfl
  · exact (submit_keeps _ _).2
  · obtain ⟨-, -, -, htracking, -⟩ := hold_eq (u.noting s p c) (u.tracking.notice s p c).1
    exact htracking

theorem tracking_fire : (u.move .fire).tracking = u.tracking := (submit_keeps _ _).2

theorem tracking_apply (x : Snapshot) (id : Nat) : (u.move (.apply x id)).tracking = u.tracking :=
  (apply_keeps u x id).2.2.1

/-- Every move keeps the two in step, apart from the files that it takes over. -/
theorem inStep_move (h : u.tracking.InStep leftOver) (m : Move) :
    (u.move m).tracking.InStep fun name k => leftOver name k ∨ TakesOver u.tracking m name k := by
  have hall : u.tracking.InStep fun name k => leftOver name k ∨ TakesOver u.tracking m name k :=
    h.mono fun name k => .inl
  cases m with
  | register s p =>
      rw [tracking_register]
      rcases u.tracking.register_finds s p with ⟨e, hregister, -⟩ | ⟨found, hregister, hfound⟩
      · rw [hregister]
        exact hall
      · rw [hregister]
        have hinsert : Tracking.InStep _
            { u.tracking with projects := u.tracking.projects.insert p.name p } :=
          ⟨hall.lists, hall.seen, hall.owns⟩
        refine hinsert.trackAll fun e he owner howner => ?_
        by_cases hname : owner = p.name
        · exact .inl hname
        · exact .inr (.inr ⟨howner, hname, (hfound _).mp (List.mem_map_of_mem he)⟩)
  | detect s =>
      rw [tracking_detect]
      split_ifs
      · exact hall
      · exact hall.survey s _
  | notify s p c =>
      rw [tracking_notify]
      exact hall.notice s p c
  | fire =>
      rw [tracking_fire]
      exact hall
  | parse s id => exact hall
  | apply x id =>
      rw [tracking_apply]
      exact hall

/-- A file that is taken over is owned by the new project, and is still listed by the old one. -/
theorem lists_of_takesOver (h : u.tracking.InStep leftOver) {m : Move} {name : String} {k : Place}
    (hover : TakesOver u.tracking m name k) :
    (u.move m).tracking.Lists name k ∧ (u.move m).tracking.owners[k]? ≠ some name := by
  cases m with
  | register s p =>
      obtain ⟨howner, hname, hfinds⟩ := hover
      rw [tracking_register]
      rcases u.tracking.register_finds s p with ⟨e, -, hnone⟩ | ⟨found, hregister, hfound⟩
      · exact absurd hfinds (hnone k)
      · rw [hregister]
        refine ⟨Tracking.lists_trackAll (h.lists k name howner), ?_⟩
        dsimp only
        rw [Tracking.getElem?_owners_trackAll, if_pos ((hfound k).mpr hfinds)]
        exact fun heq => hname (Option.some.inj heq).symm
  | detect _ | notify _ _ _ | fire | parse _ _ | apply _ _ => exact hover.elim

/-- What moves have taken over from a project on the way. -/
theorem inStep_run (settings : Settings) (dependencies : ProjectGraph) (moves : List Move) :
    ((new settings dependencies).run moves).tracking.InStep fun name k =>
      ∃ earlier m, earlier ++ [m] <+: moves ∧
        TakesOver ((new settings dependencies).run earlier).tracking m name k := by
  induction moves using List.reverseRecOn with
  | nil => exact Tracking.inStep_empty _
  | append_singleton moves m ih =>
      unfold run
      rw [List.foldl_append]
      refine (inStep_move ih m).mono fun name k => ?_
      rintro (⟨earlier, m', hpre, hover⟩ | hover)
      · exact ⟨earlier, m', hpre.trans (List.prefix_append _ _), hover⟩
      · exact ⟨moves, m, List.prefix_refl _, hover⟩

/-- Who owns what is kept in step, apart from what is taken over. After any moves of an updater, an
owner lists its file and the file has been seen. A project that lists a file owns it, unless the
registration of another project has found the file when it was owned by the first. Such a
registration always leaves the file with both. -/
theorem owners_run (settings : Settings) (dependencies : ProjectGraph) (moves : List Move) :
    let tracking (moves : List Move) := ((new settings dependencies).run moves).tracking
    (∀ (k : Place) name, (tracking moves).owners[k]? = some name →
      (tracking moves).Lists name k ∧ k ∈ (tracking moves).seen) ∧
    (∀ (k : Place) name, (tracking moves).Lists name k →
      (tracking moves).owners[k]? = some name ∨
      ∃ earlier m, earlier ++ [m] <+: moves ∧ TakesOver (tracking earlier) m name k) ∧
    ∀ (k : Place) name m, TakesOver (tracking moves) m name k →
      (tracking (moves ++ [m])).Lists name k ∧
      (tracking (moves ++ [m])).owners[k]? ≠ some name := by
  intro tracking
  have h := inStep_run settings dependencies moves
  refine ⟨fun k name hk => ⟨h.lists k name hk, h.seen k name hk⟩, h.owns, fun k name m hover => ?_⟩
  have hafter := lists_of_takesOver h hover
  have hmove : tracking (moves ++ [m]) =
      (((new settings dependencies).run moves).move m).tracking := by
    change ((moves ++ [m]).foldl move _).tracking = _
    rw [List.foldl_append]
    rfl
  rw [hmove]
  exact hafter

/-- Sources of a project whose folder holds that of another. -/
def nestedSources : Sources where
  list p := .ok (if p.name = "Inner" then [⟨"r/sub/b.sym"⟩] else [⟨"r/a.sym"⟩, ⟨"r/sub/b.sym"⟩])
  isSource _ := true
  fingerprint _ := .ok { modified := 0, size := 0 }
  isFile _ := true
  supports _ := true
  parse _ _ := .ok []

/-- The file of the inner project is still listed by the outer one. -/
theorem lists_of_nested_roots :
    let outer : Project := { name := "Outer", root := ⟨"r"⟩ }
    let inner : Project := { name := "Inner", root := ⟨"r/sub"⟩ }
    let k : Place := [.name "r", .name "sub", .name "b.sym"]
    let t := ((new {} {}).run
      [.register nestedSources outer, .register nestedSources inner]).tracking
    t.owners[k]? = some "Inner" ∧ t.Lists "Inner" k ∧ t.Lists "Outer" k ∧
      t.owners[k]? ≠ some "Outer" := by
  intro outer inner k t
  obtain ⟨-, -, htaken⟩ := owners_run {} {} [.register nestedSources outer]
  obtain ⟨hlists, -, -⟩ := owners_run {} {}
    [.register nestedSources outer, .register nestedSources inner]
  have howner : t.owners[k]? = some "Inner" := by decide +kernel
  refine ⟨howner, (hlists k "Inner" howner).1, htaken k "Outer" (.register nestedSources inner) ?_⟩
  refine ⟨by decide +kernel, by decide, [⟨"r/sub/b.sym"⟩], rfl, ⟨"r/sub/b.sym"⟩, by simp, ?_⟩
  exact ⟨by decide +kernel, { modified := 0, size := 0 }, rfl⟩

end Updater

end SymbolAtlas
