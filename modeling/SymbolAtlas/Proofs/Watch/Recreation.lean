import Mathlib.Data.List.DropRight
import SymbolAtlas.Proofs.Update.Debounce
import SymbolAtlas.Proofs.Watch.Forwarder

/-!
# Files that come back

What several changes of one file come to is decided by those since its last deletion. The first of
them says that the file is back, and so counts as a change of its contents. A creation after that
one still makes the file a new one.
-/

namespace SymbolAtlas

namespace Change

/-- What some changes of one file in a row come to. -/
def merge : List Change → Option Change
  | [] => none
  | first :: rest => some (rest.foldl andThen first)

theorem merge_concat (cs : List Change) (c : Change) :
    merge (cs ++ [c]) = some ((merge cs).elim c (·.andThen c)) := by
  cases cs with
  | nil => rfl
  | cons first rest =>
      rw [List.cons_append, merge, List.foldl_append]
      rfl

/-! ## Since the last deletion -/

/-- The changes after the last deletion. -/
def sinceDeletion (cs : List Change) : List Change := cs.rtakeWhile (· ≠ .deleted)

/-- Whether a file was created after it had come back from its last deletion. -/
def CreatedAgain (cs : List Change) : Prop := .created ∈ (sinceDeletion cs).tail

instance (cs : List Change) : Decidable (CreatedAgain cs) :=
  inferInstanceAs (Decidable (_ ∈ _))

/-- What changes come to that keep to what is known of a file that existed: it is gone if the last
of them is a deletion, and has changed if not. -/
def ofExisting (cs : List Change) : Change :=
  if cs.getLast? = some .deleted then .deleted else .contentChanged

theorem andThen_deleted (c : Change) : c.andThen .deleted = .deleted := by cases c <;> rfl

theorem andThen_of_present {a c : Change} (ha : a ≠ .deleted) (hc : c ≠ .deleted) :
    a.andThen c = if a = .created ∨ c = .created then .created else .contentChanged := by
  cases a <;> cases c <;> first | rfl | contradiction

/-- While a file is there, one creation among its changes is enough to make it a new file. -/
theorem foldl_andThen_of_present {first : Change} {rest : List Change} (hfirst : first ≠ .deleted)
    (hrest : .deleted ∉ rest) :
    rest.foldl andThen first =
      if first = .created ∨ .created ∈ rest then .created else .contentChanged := by
  induction rest generalizing first with
  | nil => cases first <;> first | rfl | contradiction
  | cons next rest ih =>
      rw [List.mem_cons, not_or] at hrest
      have hnext : next ≠ .deleted := Ne.symm hrest.1
      have hboth := andThen_of_present hfirst hnext
      have hpresent : first.andThen next ≠ .deleted := by
        rw [hboth]
        split_ifs <;> decide
      have hcreated : first.andThen next = .created ↔ first = .created ∨ next = .created := by
        rw [hboth]
        split_ifs with hone <;> simp [hone]
      rw [List.foldl_cons, ih hpresent hrest.2]
      simp only [hcreated, List.mem_cons, or_assoc, eq_comm (a := next)]

theorem exists_split_of_deleted {cs : List Change} (h : .deleted ∈ cs) :
    ∃ before, cs = before ++ .deleted :: sinceDeletion cs ∧ .deleted ∉ sinceDeletion cs := by
  induction cs using List.reverseRecOn with
  | nil => cases h
  | append_singleton cs c ih =>
      unfold sinceDeletion at ih ⊢
      by_cases hc : c = .deleted
      · refine ⟨cs, ?_, ?_⟩
        · rw [List.rtakeWhile_concat_neg _ _ _ (by simpa using hc), hc]
        · rw [List.rtakeWhile_concat_neg _ _ _ (by simpa using hc)]
          exact List.not_mem_nil
      · have hcs : .deleted ∈ cs := by
          rcases List.mem_append.mp h with hcs | hlast
          · exact hcs
          · exact absurd (List.mem_singleton.mp hlast).symm hc
        obtain ⟨before, hsplit, hsince⟩ := ih hcs
        rw [List.rtakeWhile_concat_pos _ _ _ (by simpa using hc)]
        refine ⟨before, ?_, ?_⟩
        · rw [← List.cons_append, ← List.append_assoc, ← hsplit]
        · rw [List.mem_append, List.mem_singleton, not_or]
          exact ⟨hsince, Ne.symm hc⟩

/-- Up to a deletion all that counts is that the file is gone. -/
theorem merge_append_deleted (before after : List Change) :
    merge (before ++ .deleted :: after) = some (after.foldl andThen .deleted) := by
  cases before with
  | nil => rfl
  | cons first rest =>
      rw [List.cons_append, merge, List.foldl_append, List.foldl_cons, andThen_deleted]

theorem foldl_andThen_deleted {after : List Change} (h : .deleted ∉ after) :
    after.foldl andThen .deleted =
      if after = [] then .deleted
      else if .created ∈ after.tail then .created else .contentChanged := by
  cases after with
  | nil => rfl
  | cons first rest =>
      rw [List.mem_cons, not_or] at h
      have hback : Change.deleted.andThen first = .contentChanged := by
        cases first <;> first | rfl | exact absurd rfl h.1
      have hpresent : Change.contentChanged ≠ .deleted := by decide
      have hkept := foldl_andThen_of_present hpresent h.2
      rw [List.foldl_cons, hback, hkept, if_neg (List.cons_ne_nil _ _), List.tail_cons]
      simp only [reduceCtorEq, false_or]

theorem sinceDeletion_eq_nil_iff {cs : List Change} (h : .deleted ∈ cs) :
    sinceDeletion cs = [] ↔ cs.getLast? = some .deleted := by
  obtain ⟨before, hsplit, hsince⟩ := exists_split_of_deleted h
  constructor
  · intro hnil
    rw [hsplit, hnil, List.getLast?_concat]
  · intro hlast
    by_contra hne
    have hmem : Change.deleted ∈ sinceDeletion cs := by
      rw [hsplit, List.getLast?_append_of_ne_nil _ (List.cons_ne_nil _ _),
        List.getLast?_cons_of_ne_nil hne] at hlast
      exact List.mem_of_getLast? hlast
    exact hsince hmem

theorem merge_eq_of_deleted {cs : List Change} (h : .deleted ∈ cs) :
    merge cs = some (if CreatedAgain cs then .created else ofExisting cs) := by
  obtain ⟨before, hsplit, hsince⟩ := exists_split_of_deleted h
  have hmerged : merge cs = some ((sinceDeletion cs).foldl andThen .deleted) := by
    rw [hsplit, merge_append_deleted, ← hsplit]
  have hlast := sinceDeletion_eq_nil_iff h
  rw [hmerged, foldl_andThen_deleted hsince]
  unfold ofExisting
  by_cases hnil : sinceDeletion cs = []
  · have hnone : ¬ CreatedAgain cs := by
      unfold CreatedAgain
      rw [hnil]
      exact List.not_mem_nil
    rw [if_pos hnil, if_neg hnone, if_pos (hlast.mp hnil)]
  · rw [if_neg hnil, if_neg (hlast.not.mp hnil)]
    rfl

end Change

/-! ## The buffers -/

namespace Forwarder

/-- What a forwarder holds back of a file is what came in of it, merged. -/
theorem held_foldl_hold {f : Forwarder} {k : Place} (hnew : f.held[k]? = none)
    {arrivals : List (Nat × FileChange)} (hplace : ∀ a ∈ arrivals, a.2.path.place = k) :
    ((arrivals.foldl (fun f a => f.hold a.1 a.2) f).held[k]?).map HeldChange.change =
      Change.merge (arrivals.map (·.2.change)) := by
  induction arrivals using List.reverseRecOn with
  | nil =>
      rw [List.foldl_nil, hnew]
      rfl
  | append_singleton arrivals a ih =>
      have hbefore := ih fun b hb => hplace b (List.mem_append_left _ hb)
      have hlast : a.2.path.place = k := hplace a (List.mem_append_right _ List.mem_cons_self)
      rw [List.foldl_append, List.foldl_cons, List.foldl_nil, getElem?_hold, if_pos hlast,
        List.map_append, List.map_singleton, Change.merge_concat, ← hbefore]
      cases (arrivals.foldl (fun f a => f.hold a.1 a.2) f).held[k]? <;> rfl

end Forwarder

namespace Updater

/-- What an updater holds back of a file is what it was told of it, merged. -/
theorem batch_foldl_hold {u : Updater} {k : Place} (hnew : u.batch[k]? = none)
    {events : List FileEvent} (hplace : ∀ e ∈ events, e.path.place = k) :
    ((events.foldl hold u).batch[k]?).map FileEvent.change =
      Change.merge (events.map FileEvent.change) := by
  induction events using List.reverseRecOn with
  | nil =>
      rw [List.foldl_nil, hnew]
      rfl
  | append_singleton events e ih =>
      have hbefore := ih fun b hb => hplace b (List.mem_append_left _ hb)
      have hlast : e.path.place = k := hplace e (List.mem_append_right _ List.mem_cons_self)
      rw [List.foldl_append, List.foldl_cons, List.foldl_nil, getElem?_batch_hold, if_pos hlast,
        List.map_append, List.map_singleton, Change.merge_concat, ← hbefore]
      cases (events.foldl hold u).batch[k]? <;> rfl

end Updater

/-! ## Paths that existed -/

namespace Change

/-- A path that existed is reported as created just when it is created again after its return.
Changes of one path with a deletion among them come to a creation if there is a creation after the
first change that follows the last deletion. Otherwise they come to a deletion if the last of them
is one, and to a change of contents if not. This is what both buffers hold back of a path of which
they held back nothing before, whatever comes in of it. -/
theorem merge_of_deleted (cs : List Change) (h : .deleted ∈ cs) :
    merge cs = some (if CreatedAgain cs then .created else ofExisting cs) ∧
    (merge cs = some (ofExisting cs) ↔ ¬ CreatedAgain cs) ∧
    (∀ (f : Forwarder) (k : Place) (arrivals : List (Nat × FileChange)), f.held[k]? = none →
      (∀ a ∈ arrivals, a.2.path.place = k) → arrivals.map (·.2.change) = cs →
      ((arrivals.foldl (fun f a => f.hold a.1 a.2) f).held[k]?).map HeldChange.change =
        some (if CreatedAgain cs then .created else ofExisting cs)) ∧
    (∀ (u : Updater) (k : Place) (events : List FileEvent), u.batch[k]? = none →
      (∀ e ∈ events, e.path.place = k) → events.map FileEvent.change = cs →
      ((events.foldl Updater.hold u).batch[k]?).map FileEvent.change =
        some (if CreatedAgain cs then .created else ofExisting cs)) := by
  have hmerged := merge_eq_of_deleted h
  refine ⟨hmerged, ?_, ?_, ?_⟩
  · rw [hmerged, Option.some.injEq]
    have hexisting : ofExisting cs ≠ .created := by
      unfold ofExisting
      split_ifs <;> decide
    by_cases hagain : CreatedAgain cs
    · rw [if_pos hagain]
      exact iff_of_false hexisting.symm (not_not_intro hagain)
    · rw [if_neg hagain]
      exact iff_of_true rfl hagain
  · intro f k arrivals hnew hplace hchanges
    rw [Forwarder.held_foldl_hold hnew hplace, hchanges, hmerged]
  · intro u k events hnew hplace hchanges
    rw [Updater.batch_foldl_hold hnew hplace, hchanges, hmerged]

/-- A file that is deleted, saved anew and replaced once more is held back as a new one, although it
was there before. -/
theorem merge_of_deleted_of_replaced_twice :
    let cs : List Change := [.contentChanged, .deleted, .created, .contentChanged, .created]
    let p : Path := ⟨"p/A.cs"⟩
    .deleted ∈ cs ∧ CreatedAgain cs ∧ merge cs = some .created ∧
    merge cs ≠ some .contentChanged ∧
    (((cs.map fun c => (0, FileChange.mk p c)).foldl (fun f a => f.hold a.1 a.2)
      ({ debounce := 200 } : Forwarder)).held[p.place]?).map HeldChange.change = some .created := by
  intro cs p
  have hdeleted : Change.deleted ∈ cs := by decide
  have hagain : CreatedAgain cs := by decide
  obtain ⟨hmerged, hexisting, hheld, -⟩ := merge_of_deleted cs hdeleted
  rw [if_pos hagain] at hmerged
  refine ⟨hdeleted, hagain, hmerged, fun hchanged => ?_, ?_⟩
  · exact hexisting.mp hchanged hagain
  · have hplace : ∀ a ∈ cs.map fun c => (0, FileChange.mk p c), a.2.path.place = p.place := by
      intro a ha
      obtain ⟨c, -, rfl⟩ := List.mem_map.mp ha
      rfl
    have hchanges : (cs.map fun c => (0, FileChange.mk p c)).map (·.2.change) = cs := by
      rw [List.map_map]
      exact List.map_id cs
    rw [hheld { debounce := 200 } p.place _ (by simp) hplace hchanges, if_pos hagain]

end Change

end SymbolAtlas
