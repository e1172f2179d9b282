import SymbolAtlas.Proofs.Update.Diary

/-!
# Tasks that overlap

Nothing orders the tasks that index one file again. When all of them are done, the task that has
parsed a reported file last has seen it as it is now. But the index holds what was seen by the task
that has put it there last, and this may be another one, which parsed the file earlier.
-/

namespace SymbolAtlas

open Diary

/-! ## Readings in a diary -/

namespace Diary

variable {diary : List Happening} {g : Happening} {r : Reading} {id : Nat} {k : Place}

/-- What was parsed last with the file of a place in it. -/
def lastParsed? (diary : List Happening) (k : Place) : Option Reading :=
  parsedLast? (fun r => k ∈ r.slice.files.map Path.place) diary

/-- What was put into the index last with the file of a place in it. -/
def lastIndexed? (diary : List Happening) (k : Place) : Option Reading :=
  latest? (fun h => match h with
    | .indexed u r => if k ∈ u.files.map Path.place then r else none
    | _ => none) diary

section Wanted

variable {wanted : Reading → Prop} [DecidablePred wanted]

theorem parsedLast?_parsed (diary : List Happening) (r : Reading) :
    parsedLast? wanted (diary ++ [.parsed r]) =
      if wanted r then some r else parsedLast? wanted diary := by
  unfold parsedLast?
  rw [latest?_concat]
  dsimp only
  split_ifs <;> rfl

theorem parsedLast?_concat (diary : List Happening) (hg : ∀ r, g ≠ .parsed r) :
    parsedLast? wanted (diary ++ [g]) = parsedLast? wanted diary := by
  unfold parsedLast?
  rw [latest?_concat]
  cases g with
  | parsed r => exact absurd rfl (hg r)
  | edited | noticed | submitted | indexed => rfl

theorem mem_of_parsedLast? (h : parsedLast? wanted diary = some r) :
    .parsed r ∈ diary ∧ wanted r := by
  unfold parsedLast? latest? at h
  obtain ⟨g, hg, htells⟩ := List.exists_of_findSome?_eq_some h
  rw [List.mem_reverse] at hg
  cases g with
  | parsed r' =>
      dsimp only at htells
      split_ifs at htells with hwanted
      cases htells
      exact ⟨hg, hwanted⟩
  | edited | noticed | submitted | indexed => cases htells

end Wanted

theorem readingOf?_parsed (diary : List Happening) (r : Reading) (id : Nat) :
    readingOf? (diary ++ [.parsed r]) id = if r.task = id then some r else readingOf? diary id :=
  parsedLast?_parsed diary r

theorem readingOf?_concat (diary : List Happening) (hg : ∀ r, g ≠ .parsed r) (id : Nat) :
    readingOf? (diary ++ [g]) id = readingOf? diary id :=
  parsedLast?_concat diary hg

theorem lastParsed?_parsed (diary : List Happening) (r : Reading) (k : Place) :
    lastParsed? (diary ++ [.parsed r]) k =
      if k ∈ r.slice.files.map Path.place then some r else lastParsed? diary k :=
  parsedLast?_parsed diary r

theorem lastParsed?_concat (diary : List Happening) (hg : ∀ r, g ≠ .parsed r) (k : Place) :
    lastParsed? (diary ++ [g]) k = lastParsed? diary k :=
  parsedLast?_concat diary hg

theorem lastIndexed?_indexed (diary : List Happening) (u : IndexUpdate) (r : Reading) (k : Place) :
    lastIndexed? (diary ++ [.indexed u (some r)]) k =
      if k ∈ u.files.map Path.place then some r else lastIndexed? diary k := by
  unfold lastIndexed?
  rw [latest?_concat]
  dsimp only
  split_ifs <;> rfl

theorem lastIndexed?_concat (diary : List Happening) (hg : ∀ u r, g ≠ .indexed u r) (k : Place) :
    lastIndexed? (diary ++ [g]) k = lastIndexed? diary k := by
  unfold lastIndexed?
  rw [latest?_concat]
  cases g with
  | indexed u r => exact absurd rfl (hg u r)
  | edited | noticed | submitted | parsed => rfl

/-- A file that was put into the index was so at some time last. -/
theorem isSome_lastIndexed? {u : IndexUpdate} (h : .indexed u (some r) ∈ diary)
    (hk : k ∈ u.files.map Path.place) : (lastIndexed? diary k).isSome := by
  unfold lastIndexed? latest?
  rw [List.findSome?_isSome_iff]
  refine ⟨_, List.mem_reverse.mpr h, ?_⟩
  dsimp only
  rw [if_pos hk]
  rfl

end Diary

/-! ## What readings say -/

/-- Whether a file declares the same in two states of the sources. -/
def Sources.AgreesAt (s s' : Sources) (k : Place) : Prop :=
  ∀ project (p : Path), p.place = k → s.declared project p = s'.declared project p

/-- A reading that is told truly. -/
structure Reading.Genuine (r : Reading) : Prop where
  attributes : r.sources.Attributes
  nodup : (r.slice.files.map Path.place).Nodup
  symbols : r.slice.symbols = (r.sources.collectFiles r.slice.project r.slice.files).symbols

/-- Whether an index holds for a file what it declared when it was read. -/
def Reading.Shows (r : Reading) (x : Snapshot) (f : Path) : Prop :=
  ∃ p ∈ r.slice.files, p.place = f.place ∧
    x.inFile f = collapse (r.sources.declared r.slice.project p)

theorem Reading.Genuine.shows {r : Reading} (h : r.Genuine) {x : Snapshot} {l : List Symbol}
    (hx : x.Represents l) {f : Path} (hf : f.place ∈ r.slice.files.map Path.place) :
    r.Shows (x.replaceFiles r.slice.files r.slice.symbols).1 f := by
  obtain ⟨p, hp, hplace⟩ := List.mem_map.mp hf
  refine ⟨p, hp, hplace, ?_⟩
  rw [h.symbols]
  exact hx.inFile_reindexSlice_of_mem h.attributes r.slice.project h.nodup hp hplace

theorem Reading.Genuine.inFile_of_not_mem {r : Reading} (h : r.Genuine) {x : Snapshot}
    {l : List Symbol} (hx : x.Represents l) {f : Path}
    (hf : f.place ∉ r.slice.files.map Path.place) :
    (x.replaceFiles r.slice.files r.slice.symbols).1.inFile f = x.inFile f := by
  rw [h.symbols]
  exact hx.inFile_reindexSlice_of_not_mem h.attributes r.slice.project hf

/-! ## Files that have still to be parsed -/

namespace Updater

variable {u : Updater} {k : Place} {events : List FileEvent} {e : FileEvent}

/-- Whether a change of a file, known to be of some project, has still to be parsed. -/
def Owes (u : Updater) (k : Place) : Prop :=
  (∃ e, u.batch[k]? = some e ∧ e.project.isSome) ∨ u.Queued k

theorem Owes.submit (h : u.Owes k) (events : List FileEvent) : (u.submit events).Owes k := by
  rcases h with hheld | hqueued
  · left
    rw [(submit_keeps u events).1]
    exact hheld
  · exact .inr (hqueued.of_subset (tasks_subset_submit u events))

theorem queued_submit (hrunning : u.cancelled = false) (he : e ∈ events)
    (hproject : e.project.isSome) : (u.submit events).Queued e.path.place := by
  obtain ⟨project, hproject⟩ := Option.isSome_iff_exists.mp hproject
  rw [submit_eq_start hrunning (List.ne_nil_of_mem he)]
  apply queued_start (Work.covers_ofChanges he _)
  rw [Work.owner?_of_project hproject]
  rfl

theorem Owes.hold (h : u.Owes k) (e : FileEvent) : (u.hold e).Owes k := by
  obtain ⟨-, -, htasks, -, -⟩ := hold_eq u e
  rcases h with ⟨old, hold, hproject⟩ | hqueued
  · left
    rw [getElem?_batch_hold]
    split_ifs
    · refine ⟨_, rfl, ?_⟩
      obtain ⟨project, hproject⟩ := Option.isSome_iff_exists.mp hproject
      rw [hold]
      change (old.project.orElse fun _ => e.project).isSome
      rw [hproject]
      rfl
    · exact ⟨old, hold, hproject⟩
  · right
    apply hqueued.of_subset
    rw [htasks]
    exact List.Subset.refl _

theorem owes_hold (hproject : e.project.isSome) : (u.hold e).Owes e.path.place := by
  left
  rw [getElem?_batch_hold, if_pos rfl]
  refine ⟨_, rfl, ?_⟩
  cases u.batch[e.path.place]? with
  | none => exact hproject
  | some old =>
      change (old.project.orElse fun _ => e.project).isSome
      cases old.project with
      | none => exact hproject
      | some project => rfl

/-- A report whose file is of some project. -/
theorem owes_enqueue (hrunning : u.cancelled = false) (hproject : e.project.isSome) :
    (u.enqueue e).Owes e.path.place := by
  rw [enqueue_eq hrunning]
  split_ifs
  · exact .inr (queued_submit hrunning (List.mem_singleton_self e) hproject)
  · exact owes_hold hproject

/-- The timer hands over what was held back. -/
theorem Owes.fire (h : u.Owes k) (hu : u.Steady) (harmed : u.armed = true)
    (hplaced : ∀ (k : Place) e, u.batch[k]? = some e → e.path.place = k) : u.fire.Owes k := by
  rw [fire_eq (hu.inFlight_pos harmed)]
  right
  rcases h with ⟨e, he, hproject⟩ | hqueued
  · rw [← hplaced k e he]
    exact queued_submit hu.running ((mem_values u.batch e).mpr ⟨k, he⟩) hproject
  · exact hqueued.of_subset (tasks_subset_submit u.disarmed u.batch.values)

end Updater

/-! ## Runs -/

namespace UpdateDesk

variable {d : UpdateDesk} {k : Place}

/-- What holds all the time: the diary tells what tasks have parsed and what the index shows. -/
structure Recorded (d : UpdateDesk) : Prop where
  steady : d.updater.Steady
  placed : ∀ (k : Place) e, d.updater.batch[k]? = some e → e.path.place = k
  attributes : d.sources.Attributes
  represents : ∃ l, d.index.Represents l
  rest : ∀ t ∈ d.updater.tasks, ∀ slice ∈ t.rest, (slice.2.map Path.place).Nodup
  parsed : ∀ t ∈ d.updater.tasks, ∀ slice, t.parsed = some slice →
    ∃ r, readingOf? d.diary t.id = some r ∧ r.slice = slice ∧ r.Genuine
  shown : ∀ (f : Path) r, lastIndexed? d.diary f.place = some r → r.Shows d.index f
  indexed : ∀ r, .parsed r ∈ d.diary →
    (∃ u, .indexed u (some r) ∈ d.diary ∧ u.files = r.slice.files) ∨
      ∃ t ∈ d.updater.tasks, t.parsed = some r.slice ∧ readingOf? d.diary t.id = some r

theorem recorded_new {s : Sources} (hs : s.Attributes) (settings : Updater.Settings)
    (dependencies : ProjectGraph) (changes : List IndexChange) :
    (new s settings dependencies (Snapshot.after changes)).Recorded where
  steady := Updater.steady_new settings dependencies
  placed k e he := by
    change ({} : Std.TreeMap Place FileEvent)[k]? = some e at he
    simp at he
  attributes := hs
  represents := ⟨_, (Snapshot.represents_empty 0).foldl_change changes⟩
  rest t ht := by
    change t ∈ ([] : List UpdateTask) at ht
    simp at ht
  parsed t ht := by
    change t ∈ ([] : List UpdateTask) at ht
    simp at ht
  shown f r hr := by
    change none = some r at hr
    cases hr
  indexed r hr := by
    change .parsed r ∈ ([] : List Happening) at hr
    simp at hr

/-- Whether an updater has the tasks of another, and besides only some that have parsed nothing. -/
structure Grows (u v : Updater) : Prop where
  subset : u.tasks ⊆ v.tasks
  fresh : ∀ t ∈ v.tasks, t ∈ u.tasks ∨
    (t.parsed = none ∧ ∀ slice ∈ t.rest, (slice.2.map Path.place).Nodup)

theorem Grows.of_eq {u v : Updater} (h : v.tasks = u.tasks) : Grows u v where
  subset := by
    rw [h]
    exact List.Subset.refl _
  fresh t ht := by
    rw [h] at ht
    exact .inl ht

theorem grows_submit (u : Updater) (events : List FileEvent) : Grows u (u.submit events) where
  subset := u.tasks_subset_submit events
  fresh t ht := by
    unfold Updater.submit Updater.start at ht
    split_ifs at ht
    · exact .inl ht
    · exact .inl ht
    · rcases List.mem_append.mp ht with hin | hin
      · exact .inl hin
      · rw [List.mem_singleton.mp hin]
        exact .inr ⟨rfl, fun slice hslice => Work.nodup_of_mem_slices hslice⟩

/-- An entry of what is neither parsed nor indexed. -/
theorem Recorded.concat (h : d.Recorded) {v : Updater} {s : Sources} {g : Happening}
    (hsteady : v.Steady) (hplaced : ∀ (k : Place) e, v.batch[k]? = some e → e.path.place = k)
    (hs : s.Attributes) (htasks : Grows d.updater v) (hparsed : ∀ r, g ≠ .parsed r)
    (hindexed : ∀ u r, g ≠ .indexed u r) : Recorded ⟨s, v, d.index, d.diary ++ [g]⟩ where
  steady := hsteady
  placed := hplaced
  attributes := hs
  represents := h.represents
  rest t ht := by
    rcases htasks.fresh t ht with hold | ⟨-, hnodup⟩
    · exact h.rest t hold
    · exact hnodup
  parsed t ht slice hslice := by
    rcases htasks.fresh t ht with hold | ⟨hnone, -⟩
    · rw [readingOf?_concat _ hparsed]
      exact h.parsed t hold slice hslice
    · rw [hnone] at hslice
      cases hslice
  shown f r hr := by
    rw [lastIndexed?_concat _ hindexed] at hr
    exact h.shown f r hr
  indexed r hr := by
    rcases List.mem_append.mp hr with hin | hin
    · rcases h.indexed r hin with ⟨u, hu, hfiles⟩ | ⟨t, ht, hslice, hreading⟩
      · exact .inl ⟨u, List.mem_append_left _ hu, hfiles⟩
      · refine .inr ⟨t, htasks.subset ht, hslice, ?_⟩
        rw [readingOf?_concat _ hparsed]
        exact hreading
    · exact absurd (List.mem_singleton.mp hin).symm (hparsed r)

theorem placed_hold {u : Updater} (h : ∀ (k : Place) e, u.batch[k]? = some e → e.path.place = k)
    (e : FileEvent) (k : Place) (e' : FileEvent) (he : (u.hold e).batch[k]? = some e') :
    e'.path.place = k := by
  rw [Updater.getElem?_batch_hold] at he
  split_ifs at he with hk
  · cases hold : u.batch[k]? with
    | none =>
        rw [hold] at he
        cases he
        exact hk
    | some old =>
        rw [hold] at he
        cases he
        exact h k old hold
  · exact h k e' he

theorem Recorded.register (h : d.Recorded) (p : Project) : (d.register p).Recorded := by
  unfold UpdateDesk.register
  split
  · next hregister =>
      obtain ⟨tracking, rfl⟩ := Updater.register_eq hregister
      exact ⟨h.steady.of_tracking tracking _, h.placed, h.attributes, h.represents, h.rest,
        h.parsed, h.shown, h.indexed⟩
  · exact h

theorem Recorded.edit (h : d.Recorded) {s : Sources} (hs : s.Attributes) : (d.edit s).Recorded :=
  h.concat h.steady h.placed hs (.of_eq rfl) (by simp) (by simp)

theorem Recorded.noting (h : d.Recorded) (p : Path) (c : Change) :
    Recorded { d with
      updater := d.updater.noting d.sources p c
      diary := d.diary ++ [.noticed (d.updater.tracking.notice d.sources p c).1] } :=
  h.concat (h.steady.of_tracking _ _) h.placed h.attributes (.of_eq rfl) (by simp) (by simp)

theorem Recorded.notify (h : d.Recorded) (p : Path) (c : Change) : (d.notify p c).Recorded := by
  have hnoting := h.noting p c
  by_cases hdebounce : d.updater.settings.debounce = 0
  · rw [notify_of_prompt h.steady.running hdebounce]
    refine hnoting.concat (hnoting.steady.submit _) ?_ h.attributes (grows_submit _ _)
      (by simp [Updater.submission]) (by simp [Updater.submission])
    rw [(Updater.submit_keeps _ _).1]
    exact h.placed
  · rw [notify_of_debounce h.steady.running hdebounce]
    exact h.concat (hnoting.steady.hold hdebounce _) (placed_hold hnoting.placed _) h.attributes
      (.of_eq (Updater.hold_eq _ _).2.2.1) (by simp) (by simp)

theorem Recorded.fire (h : d.Recorded) : d.fire.Recorded := by
  by_cases harmed : d.updater.armed = true
  · rw [fire_of_armed h.steady harmed]
    have hgrows := grows_submit d.updater.disarmed d.updater.batch.values
    refine h.concat ((h.steady.disarm harmed).submit _) ?_ h.attributes
      ⟨hgrows.subset, hgrows.fresh⟩ (by simp [Updater.submission]) (by simp [Updater.submission])
    intro k e he
    rw [(Updater.submit_keeps _ _).1] at he
    change ({} : Std.TreeMap Place FileEvent)[k]? = some e at he
    simp at he
  · unfold UpdateDesk.fire
    rw [if_neg harmed]
    exact h

theorem Recorded.parse (h : d.Recorded) (id : Nat) : (d.parse id).Recorded := by
  rcases parse_cases h.steady.distinct id with
    hsame | ⟨before, behind, project, files, rest, hwaiting, hparse⟩
  · rw [hsame]
    exact h
  have hsteady := h.steady.parse d.sources id
  have hsplit := hwaiting.tasks
  have htasks := hwaiting.tasks_parse d.sources
  have hmem : ({ id, rest := (project, files) :: rest } : UpdateTask) ∈ d.updater.tasks := by
    rw [hsplit]
    exact Updater.mem_middle.mpr (.inl rfl)
  have hbeside : ∀ t ∈ before ++ behind, t ∈ d.updater.tasks := by
    intro t ht
    rw [hsplit]
    exact Updater.mem_middle.mpr (.inr ht)
  rw [hparse]
  refine ⟨hsteady, h.placed, h.attributes, h.represents, fun t ht slice hslice => ?_,
    fun t ht slice hslice => ?_, fun f r hr => ?_, fun r hr => ?_⟩
  · dsimp only at ht
    rw [htasks] at ht
    rcases Updater.mem_middle.mp ht with rfl | hin
    · exact h.rest _ hmem slice (List.mem_cons_of_mem _ hslice)
    · exact h.rest t (hbeside t hin) slice hslice
  · dsimp only at ht
    rw [htasks] at ht
    rw [readingOf?_parsed]
    rcases Updater.mem_middle.mp ht with rfl | hin
    · cases hslice
      rw [if_pos rfl]
      exact ⟨_, rfl, rfl, h.attributes, h.rest _ hmem (project, files) List.mem_cons_self, rfl⟩
    · rw [if_neg (Ne.symm (hwaiting.others t hin))]
      exact h.parsed t (hbeside t hin) slice hslice
  · rw [lastIndexed?_concat _ (by simp)] at hr
    exact h.shown f r hr
  · rcases List.mem_append.mp hr with hold | hnew
    · rcases h.indexed r hold with ⟨u, hu, hfiles⟩ | ⟨t, ht, hslice, hreading⟩
      · exact .inl ⟨u, List.mem_append_left _ hu, hfiles⟩
      · right
        rw [hsplit] at ht
        rcases Updater.mem_middle.mp ht with rfl | hin
        · cases hslice
        · refine ⟨t, ?_, hslice, ?_⟩
          · dsimp only
            rw [htasks]
            exact Updater.mem_middle.mpr (.inr hin)
          · rw [readingOf?_parsed, if_neg (Ne.symm (hwaiting.others t hin))]
            exact hreading
    · right
      cases List.mem_singleton.mp hnew
      refine ⟨{ id, rest, parsed := some ⟨project, files, _⟩ }, ?_, rfl, ?_⟩
      · dsimp only
        rw [htasks]
        exact Updater.mem_middle.mpr (.inl rfl)
      · rw [readingOf?_parsed, if_pos rfl]

theorem Recorded.apply (h : d.Recorded) (id : Nat) : (d.apply id).Recorded := by
  rcases apply_cases h.steady.distinct id with
    hsame | ⟨before, behind, slice, rest, hsplit, hothers, happly⟩
  · rw [hsame]
    exact h
  have hsteady := h.steady.apply d.index id
  obtain ⟨-, -, htasks⟩ := Updater.apply_parsed hsplit hothers d.index
  obtain ⟨-, -, -, hbatch⟩ := Updater.apply_keeps d.updater d.index id
  obtain ⟨l, hl⟩ := h.represents
  have hmem : ({ id, parsed := some slice, rest } : UpdateTask) ∈ d.updater.tasks := by
    rw [hsplit]
    exact Updater.mem_middle.mpr (.inl rfl)
  have hbeside : ∀ t ∈ before ++ behind, t ∈ d.updater.tasks := by
    intro t ht
    rw [hsplit]
    exact Updater.mem_middle.mpr (.inr ht)
  obtain ⟨r, hreading, rfl, hgenuine⟩ := h.parsed _ hmem slice rfl
  dsimp only at hreading
  -- The tasks of the new state are old ones, but for the one that went on.
  have hold : ∀ t ∈ (d.updater.apply d.index id).2.2.tasks,
      t = { id, rest } ∨ (t ∈ d.updater.tasks ∧ t.id ≠ id) := by
    intro t ht
    rw [htasks] at ht
    split_ifs at ht
    · exact .inr ⟨hbeside t ht, hothers t ht⟩
    · rcases Updater.mem_middle.mp ht with heq | hin
      · exact .inl heq
      · exact .inr ⟨hbeside t hin, hothers t hin⟩
  rw [happly, hreading]
  refine ⟨hsteady, ?_, h.attributes, ⟨_, hl.replaceFiles r.slice.files r.slice.symbols⟩,
    fun t ht slice hslice => ?_, fun t ht slice hslice => ?_, fun f r' hr' => ?_, fun r' hr' => ?_⟩
  · dsimp only
    rw [hbatch]
    exact h.placed
  · rcases hold t ht with rfl | ⟨hin, -⟩
    · exact h.rest _ hmem slice hslice
    · exact h.rest t hin slice hslice
  · rw [readingOf?_concat _ (by simp)]
    rcases hold t ht with rfl | ⟨hin, -⟩
    · cases hslice
    · exact h.parsed t hin slice hslice
  · rw [lastIndexed?_indexed] at hr'
    dsimp only at hr' ⊢
    split_ifs at hr' with hf
    · cases hr'
      exact hgenuine.shows hl hf
    · obtain ⟨p, hp, hplace, hfile⟩ := h.shown f r' hr'
      exact ⟨p, hp, hplace, (hgenuine.inFile_of_not_mem hl hf).trans hfile⟩
  · rcases List.mem_append.mp hr' with hearlier | hnew
    · rcases h.indexed r' hearlier with ⟨u, hu, hfiles⟩ | ⟨t, ht, hslice, hreading'⟩
      · exact .inl ⟨u, List.mem_append_left _ hu, hfiles⟩
      · rw [hsplit] at ht
        rcases Updater.mem_middle.mp ht with rfl | hin
        · left
          obtain rfl : r = r' := Option.some.inj (hreading.symm.trans hreading')
          exact ⟨_, List.mem_append_right _ (List.mem_singleton_self _), rfl⟩
        · refine .inr ⟨t, ?_, hslice, ?_⟩
          · dsimp only
            rw [htasks]
            split_ifs
            · exact hin
            · exact Updater.mem_middle.mpr (.inr hin)
          · rw [readingOf?_concat _ (by simp)]
            exact hreading'
    · cases List.mem_singleton.mp hnew

theorem Recorded.move (h : d.Recorded) {m : UpdateMove} (hm : ∀ s, m = .edit s → s.Attributes) :
    (d.move m).Recorded := by
  cases m with
  | register p => exact h.register p
  | edit s => exact h.edit (hm s rfl)
  | notify p c => exact h.notify p c
  | fire => exact h.fire
  | parse id => exact h.parse id
  | apply id => exact h.apply id

theorem Recorded.run (h : d.Recorded) {moves : List UpdateMove}
    (hmoves : ∀ s, .edit s ∈ moves → s.Attributes) : (d.run moves).Recorded := by
  induction moves generalizing d with
  | nil => exact h
  | cons m rest ih =>
      apply ih (h.move fun s hs => hmoves s (by rw [hs]; exact List.mem_cons_self))
      exact fun s hs => hmoves s (List.mem_cons_of_mem m hs)

/-! ## A file that was reported -/

/-- Whether a file has still to be parsed, or was parsed last as it is now. -/
def Current (d : UpdateDesk) (k : Place) : Prop :=
  d.updater.Owes k ∨ ∃ r, lastParsed? d.diary k = some r ∧ r.sources.AgreesAt d.sources k

theorem Current.concat (hc : d.Current k) {v : Updater} {s : Sources} {x : Snapshot} {g : Happening}
    (hv : d.updater.Owes k → v.Owes k) (hs : d.sources.AgreesAt s k)
    (hg : ∀ r, g ≠ .parsed r) : Current ⟨s, v, x, d.diary ++ [g]⟩ k := by
  rcases hc with howes | ⟨r, hr, hagrees⟩
  · exact .inl (hv howes)
  · right
    refine ⟨r, ?_, fun project p hp => (hagrees project p hp).trans (hs project p hp)⟩
    rw [lastParsed?_concat _ hg]
    exact hr

theorem Current.notify (hc : d.Current k) (hrunning : d.updater.cancelled = false) (p : Path)
    (c : Change) : (d.notify p c).Current k := by
  have hsame : d.sources.AgreesAt d.sources k := fun _ _ _ => rfl
  by_cases hdebounce : d.updater.settings.debounce = 0
  · rw [notify_of_prompt hrunning hdebounce]
    have hnoticed : Current { d with
        updater := d.updater.noting d.sources p c
        diary := d.diary ++ [.noticed (d.updater.tracking.notice d.sources p c).1] } k :=
      hc.concat (fun howes => howes) hsame (by simp)
    exact hnoticed.concat (fun howes => howes.submit _) hsame (by simp [Updater.submission])
  · rw [notify_of_debounce hrunning hdebounce]
    refine hc.concat (fun howes => ?_) hsame (by simp)
    have hnoting : (d.updater.noting d.sources p c).Owes k := howes
    exact hnoting.hold _

/-- A file that is of some project has to be parsed when a change of it is reported. -/
theorem current_notify (hrunning : d.updater.cancelled = false) {p : Path} (c : Change)
    (hproject : (d.updater.tracking.projectOf? p).isSome) : (d.notify p c).Current p.place := by
  left
  have hnoting : (d.updater.noting d.sources p c).cancelled = false := hrunning
  change ((Updater.notify d.sources (fun _ us => us) p c (d.updater, ())).1).Owes p.place
  rw [Updater.notify_eq]
  exact Updater.owes_enqueue hnoting hproject

theorem Current.parse (hc : d.Current k) (h : d.Recorded) (id : Nat) : (d.parse id).Current k := by
  rcases parse_cases h.steady.distinct id with
    hsame | ⟨before, behind, project, files, rest, hwaiting, hparse⟩
  · rw [hsame]
    exact hc
  rw [hparse]
  by_cases hk : k ∈ files.map Path.place
  · -- The file is read as it is now.
    right
    refine ⟨⟨id, ⟨project, files, (d.sources.collectFiles project files).symbols⟩, d.sources⟩, ?_,
      fun _ _ _ => rfl⟩
    rw [lastParsed?_parsed]
    exact if_pos hk
  · rcases hc with (hheld | hqueued) | ⟨r, hr, hagrees⟩
    · exact .inl (.inl hheld)
    · rcases hqueued.parsed hwaiting d.sources with hlater | hin
      · exact .inl (.inr hlater)
      · exact absurd hin hk
    · right
      refine ⟨r, ?_, hagrees⟩
      rw [lastParsed?_parsed]
      exact (if_neg hk).trans hr

theorem Current.apply (hc : d.Current k) (h : d.Recorded) (id : Nat) : (d.apply id).Current k := by
  rcases apply_cases h.steady.distinct id with
    hsame | ⟨before, behind, slice, rest, hsplit, hothers, happly⟩
  · rw [hsame]
    exact hc
  rw [happly]
  refine hc.concat (fun howes => ?_) (fun _ _ _ => rfl) (by simp)
  obtain ⟨-, -, -, hbatch⟩ := Updater.apply_keeps d.updater d.index id
  rcases howes with hheld | hqueued
  · left
    rw [hbatch]
    exact hheld
  · exact .inr (hqueued.applied hsplit hothers d.index)

theorem Current.move (hc : d.Current k) (h : d.Recorded) {m : UpdateMove}
    (hm : ∀ s, m = .edit s → d.sources.AgreesAt s k) : (d.move m).Current k := by
  cases m with
  | register p =>
      change (d.register p).Current k
      unfold UpdateDesk.register
      split
      · next hregister =>
          obtain ⟨tracking, rfl⟩ := Updater.register_eq hregister
          exact hc
      · exact hc
  | edit s => exact hc.concat (fun howes => howes) (hm s rfl) (by simp)
  | notify p c => exact hc.notify h.steady.running p c
  | fire =>
      change d.fire.Current k
      unfold UpdateDesk.fire
      split_ifs with harmed
      · exact hc.concat (fun howes => howes.fire h.steady harmed h.placed) (fun _ _ _ => rfl)
          (by simp [Updater.submission])
      · exact hc
  | parse id => exact hc.parse h id
  | apply id => exact hc.apply h id

theorem Current.run {s₀ : Sources} (hc : d.Current k) (h : d.Recorded)
    (hd : d.sources.AgreesAt s₀ k) {moves : List UpdateMove}
    (hmoves : ∀ s, .edit s ∈ moves → s.Attributes ∧ s.AgreesAt s₀ k) :
    (d.run moves).Current k := by
  induction moves generalizing d with
  | nil => exact hc
  | cons m rest ih =>
      have hm : ∀ s, m = .edit s → s.Attributes ∧ s.AgreesAt s₀ k := by
        rintro s rfl
        exact hmoves s List.mem_cons_self
      have hsources : (d.move m).sources.AgreesAt s₀ k := by
        cases m with
        | edit s => exact (hm s rfl).2
        | register p =>
            change (d.register p).sources.AgreesAt s₀ k
            unfold UpdateDesk.register
            split <;> exact hd
        | fire =>
            change d.fire.sources.AgreesAt s₀ k
            unfold UpdateDesk.fire
            split_ifs <;> exact hd
        | notify | parse | apply => exact hd
      refine ih (hc.move h fun s hs project p hp => ?_) (h.move fun s hs => (hm s hs).1) hsources
        fun s hs => hmoves s (List.mem_cons_of_mem m hs)
      exact (hd project p hp).trans ((hm s hs).2 project p hp).symm

/-- Let a file of some project be reported that is not edited any more, and let everything be done
that was under way. Then the task that has parsed the file last has seen it as it is now. But the
index holds what was seen by the task that has put the file there last; only if this is the same
reading, the index holds what the file declares now. -/
theorem shows_run {s : Sources} (hs : s.Attributes) (settings : Updater.Settings)
    (dependencies : ProjectGraph) (changes : List IndexChange) {front back : List UpdateMove}
    (hfront : ∀ s, .edit s ∈ front → s.Attributes) {p : Path} (c : Change) :
    let d₀ := (new s settings dependencies (Snapshot.after changes)).run front
    (d₀.updater.tracking.projectOf? p).isSome →
    (∀ s, .edit s ∈ back → s.Attributes ∧ s.AgreesAt d₀.sources p.place) →
    let d := (d₀.notify p c).run back
    d.updater.batch.isEmpty → d.updater.tasks = [] →
    ∃ shown last, lastIndexed? d.diary p.place = some shown ∧
      lastParsed? d.diary p.place = some last ∧
      shown.Shows d.index p ∧ last.sources.AgreesAt d.sources p.place ∧
      (shown = last → ∃ q ∈ last.slice.files, q.place = p.place ∧
        d.index.inFile p = collapse (d.sources.declared last.slice.project q)) := by
  intro d₀ hproject hback d hbatch htasks
  have h₀ : d₀.Recorded := (recorded_new hs settings dependencies changes).run hfront
  have hnotified : (d₀.notify p c).Recorded := h₀.notify p c
  have h : d.Recorded := hnotified.run fun s hs => (hback s hs).1
  have hcurrent : d.Current p.place :=
    (current_notify h₀.steady.running c hproject).run hnotified (fun _ _ _ => rfl) hback
  rcases hcurrent with (⟨e, he, -⟩ | ⟨t, ht, -⟩) | ⟨last, hlast, hagrees⟩
  · rw [Std.TreeMap.getElem?_of_isEmpty hbatch] at he
    cases he
  · rw [htasks] at ht
    simp at ht
  obtain ⟨hparsed, hfiles⟩ := mem_of_parsedLast? hlast
  -- What was parsed last has been put into the index, so something was put there last.
  have hindexed : (lastIndexed? d.diary p.place).isSome := by
    rcases h.indexed last hparsed with ⟨u, hu, hsame⟩ | ⟨t, ht, -⟩
    · rw [← hsame] at hfiles
      exact isSome_lastIndexed? hu hfiles
    · rw [htasks] at ht
      simp at ht
  obtain ⟨shown, hshown⟩ := Option.isSome_iff_exists.mp hindexed
  have hshows := h.shown p shown hshown
  refine ⟨shown, last, hshown, hlast, hshows, hagrees, ?_⟩
  rintro rfl
  obtain ⟨q, hq, hplace, hfile⟩ := hshows
  exact ⟨q, hq, hplace, by rw [hfile, hagrees _ q hplace]⟩

/-- Sources of which every file declares one class. -/
def uniformSources (name : String) : Sources where
  list _ := .ok []
  isSource _ := true
  fingerprint _ := .ok { modified := 0, size := 0 }
  isFile _ := true
  supports _ := true
  parse p project := .ok [{ name, kind := .classType, file := p, project := project }]

theorem attributes_uniformSources (name : String) : (uniformSources name).Attributes := by
  intro p project symbols hparse t ht
  cases hparse
  rw [List.mem_singleton.mp ht]

/-- A desk at which a task has parsed a file that was edited afterwards. -/
def outdated : UpdateDesk :=
  (new (uniformSources "Old") { debounce := 0 } {} (Snapshot.after [])).run
    [.register { name := "P", root := ⟨"/r"⟩ }, .edit (uniformSources "Mid"),
      .notify ⟨"/r/a.sym"⟩ .contentChanged, .parse 0, .edit (uniformSources "New")]

/-- The edit is reported, and the task for it is done before the other one. -/
def overtaken : UpdateDesk :=
  (outdated.notify ⟨"/r/a.sym"⟩ .contentChanged).run [.parse 1, .apply 1, .apply 0]

/-- A task that is overtaken by a later one leaves an old state of the file in the index. -/
theorem inFile_ne_of_overtaken :
    overtaken.updater.inFlight = 0 ∧
    overtaken.index.inFile ⟨"/r/a.sym"⟩ ≠
      collapse (overtaken.sources.declared "P" ⟨"/r/a.sym"⟩) ∧
    ∃ shown last, lastIndexed? overtaken.diary (⟨"/r/a.sym"⟩ : Path).place = some shown ∧
      lastParsed? overtaken.diary (⟨"/r/a.sym"⟩ : Path).place = some last ∧ shown ≠ last := by
  have hproject : (outdated.updater.tracking.projectOf? ⟨"/r/a.sym"⟩).isSome := by decide +kernel
  have hbatch : overtaken.updater.batch.isEmpty := by decide +kernel
  have htasks : overtaken.updater.tasks = [] := by decide +kernel
  have hne : overtaken.index.inFile ⟨"/r/a.sym"⟩ ≠
      collapse (overtaken.sources.declared "P" ⟨"/r/a.sym"⟩) := by decide +kernel
  have hnames : (overtaken.index.inFile ⟨"/r/a.sym"⟩).map Symbol.name = ["Mid"] := by
    decide +kernel
  have hfront : ∀ s, .edit s ∈ [UpdateMove.register { name := "P", root := ⟨"/r"⟩ },
      .edit (uniformSources "Mid"), .notify ⟨"/r/a.sym"⟩ .contentChanged, .parse 0,
      .edit (uniformSources "New")] → s.Attributes := by
    intro s hs
    simp only [List.mem_cons, UpdateMove.edit.injEq, reduceCtorEq, List.not_mem_nil,
      or_false, false_or] at hs
    rcases hs with rfl | rfl <;> exact attributes_uniformSources _
  have hfound := shows_run (attributes_uniformSources "Old") { debounce := 0 } {} [] hfront
    .contentChanged hproject (by simp) hbatch htasks
  obtain ⟨shown, last, hshown, hlast, -, -, hsame⟩ := hfound
  refine ⟨by decide +kernel, hne, shown, last, hshown, hlast, fun heq => ?_⟩
  obtain ⟨q, -, -, hfile⟩ := hsame heq
  change overtaken.index.inFile _ = collapse (overtaken.sources.declared _ q) at hfile
  have hsources : overtaken.sources = uniformSources "New" := rfl
  have hnow : (collapse ((uniformSources "New").declared last.slice.project q)).map Symbol.name =
      ["New"] := rfl
  rw [hfile, hsources, hnow] at hnames
  exact absurd hnames (by decide)

end UpdateDesk

end SymbolAtlas
