import Mathlib.Data.List.Induction
import SymbolAtlas.Proofs.TreeMap
import SymbolAtlas.Watch.Forwarder

/-!
# Nothing is lost or invented

What a forwarder passes on of a file is what comes in of it, cut into blocks each of which is merged
into one change. The changes since the last block are held back, and are passed on together when no
more can come in.
-/

namespace SymbolAtlas

/-- What some changes of one file in a row come to, under the first spelling of its path. -/
def FileChange.merge : List FileChange → Option FileChange
  | [] => none
  | first :: rest =>
    some ⟨first.path, (rest.map FileChange.change).foldl Change.andThen first.change⟩

theorem FileChange.merge_concat (cs : List FileChange) (c : FileChange) :
    merge (cs ++ [c]) =
      some ((merge cs).elim c fun m => ⟨m.path, m.change.andThen c.change⟩) := by
  cases cs with
  | nil => rfl
  | cons first rest =>
      rw [List.cons_append, merge, List.map_append, List.foldl_append]
      rfl

def HeldChange.asChange (h : HeldChange) : FileChange := ⟨h.path, h.change⟩

/-! ## Runs -/

/-- What makes a forwarder look at its files. -/
inductive Cue where
  /-- A change comes in, and the files are looked at some time after. -/
  | change (arrived looked : Nat) (c : FileChange)
  | tick (looked : Nat)

namespace Cue

def looked : Cue → Nat
  | .change _ looked _ | .tick looked => looked

def moments : Cue → List Nat
  | .change arrived looked _ => [arrived, looked]
  | .tick looked => [looked]

def arrival? : Cue → Option (Nat × FileChange)
  | .change arrived _ c => some (arrived, c)
  | .tick _ => none

/-- Time does not go back. -/
def InOrder (cues : List Cue) : Prop := (cues.flatMap moments).Pairwise (· ≤ ·)

instance (cues : List Cue) : Decidable (InOrder cues) :=
  inferInstanceAs (Decidable (List.Pairwise _ _))

/-- All changes that come in, with the times at which they do. -/
def arrivals (cues : List Cue) : List (Nat × FileChange) := cues.filterMap arrival?

/-- When the last change of a place came in. -/
def lastArrival? (k : Place) (arrivals : List (Nat × FileChange)) : Option Nat :=
  (arrivals.filter fun a => a.2.path.place = k).getLast?.map Prod.fst

end Cue

open Cue

namespace Forwarder

variable {f : Forwarder} {k : Place} {now : Nat} {c : FileChange}

def follow (f : Forwarder) : Cue → List FileChange × Forwarder
  | .change arrived looked c => (f.hold arrived c).release looked
  | .tick looked => f.release looked

theorem follow_change (f : Forwarder) (now : Nat) (c : FileChange) :
    f.follow (.change now now c) = f.receive now c := rfl

/-- What is passed on by a forwarder that follows some cues, and the forwarder after them. -/
def run (f : Forwarder) (cues : List Cue) : List FileChange × Forwarder :=
  cues.foldl (fun r cue => (r.1 ++ (r.2.follow cue).1, (r.2.follow cue).2)) ([], f)

theorem run_concat (f : Forwarder) (cues : List Cue) (cue : Cue) :
    f.run (cues ++ [cue]) = ((f.run cues).1 ++ ((f.run cues).2.follow cue).1,
      ((f.run cues).2.follow cue).2) := by
  rw [run, List.foldl_append]
  rfl

theorem run_cons (f : Forwarder) (cue : Cue) (cues : List Cue) :
    f.run (cue :: cues) = ((f.follow cue).1 ++ ((f.follow cue).2.run cues).1,
      ((f.follow cue).2.run cues).2) := by
  induction cues using List.reverseRecOn with
  | nil =>
      show ([] ++ (f.follow cue).1, (f.follow cue).2) = ((f.follow cue).1 ++ [], (f.follow cue).2)
      rw [List.nil_append, List.append_nil]
  | append_singleton cues last ih =>
      rw [← List.cons_append, run_concat, ih, run_concat, List.append_assoc]

/-- Changes that come at one moment are taken in like changes that come one after the other. -/
theorem receiveAll_eq_run (f : Forwarder) (now : Nat) (cs : List FileChange) :
    f.receiveAll now cs = f.run (cs.map (.change now now)) := by
  induction cs generalizing f with
  | nil => rfl
  | cons c cs ih =>
      rw [List.map_cons, run_cons, follow_change, ← ih]
      rfl

/-! ## Single steps -/

/-- Changes are held back under the places to which their paths lead. -/
def Keyed (f : Forwarder) : Prop := ∀ (k : Place) h, f.held[k]? = some h → h.path.place = k

theorem getElem?_hold (f : Forwarder) (now : Nat) (c : FileChange) (k : Place) :
    (f.hold now c).held[k]? =
      if c.path.place = k then
        some (f.held[k]?.elim ⟨c.path, c.change, now⟩ fun h =>
          { h with change := h.change.andThen c.change, seen := now })
      else f.held[k]? := by
  unfold hold
  dsimp only
  rw [Std.TreeMap.getElem?_alter]
  simp only [Std.LawfulEqCmp.compare_eq_iff_eq]
  split_ifs with hk
  · subst hk
    cases f.held[c.path.place]? <;> rfl
  · rfl

theorem Keyed.hold (hf : f.Keyed) : (f.hold now c).Keyed := by
  intro k h hh
  rw [getElem?_hold] at hh
  split_ifs at hh with hk
  · rw [← Option.some.inj hh]
    cases hheld : f.held[k]? with
    | none => exact hk
    | some h' => exact hf k h' hheld
  · exact hf k h hh

theorem getElem?_foldl_erase (hs : List HeldChange) (m : Std.TreeMap Place HeldChange)
    (k : Place) :
    (hs.foldl (fun m h => m.erase h.path.place) m)[k]? =
      if k ∈ hs.map (fun h => h.path.place) then none else m[k]? := by
  induction hs generalizing m with
  | nil => simp
  | cons h hs ih =>
      rw [List.foldl_cons, ih, List.map_cons, Std.TreeMap.getElem?_erase]
      simp only [Std.LawfulEqCmp.compare_eq_iff_eq, List.mem_cons]
      by_cases hin : k ∈ hs.map fun h => h.path.place
      · rw [if_pos hin, if_pos (.inr hin)]
      · by_cases hk : h.path.place = k
        · rw [if_neg hin, if_pos hk, if_pos (.inl hk.symm)]
        · rw [if_neg hin, if_neg hk, if_neg]
          rintro (heq | hin')
          · exact hk heq.symm
          · exact hin hin'

/-- What is held back of a place and has been quiet for long enough. -/
def due? (f : Forwarder) (now : Nat) (k : Place) : Option HeldChange :=
  f.held[k]?.filter (HeldChange.isQuiet f.debounce now)

theorem Keyed.filter_release (hf : f.Keyed) (now : Nat) (k : Place) :
    (f.release now).1.filter (fun c => c.path.place = k) =
      (f.due? now k).toList.map HeldChange.asChange := by
  have hplace := filter_values f.held (fun h => h.path.place) hf k
  unfold release due?
  rw [List.filter_map, List.filter_filter]
  simp only [Function.comp_def]
  have hswap : (f.held.values.filter fun h =>
      decide (h.path.place = k) && HeldChange.isQuiet f.debounce now h) =
      (f.held.values.filter fun h => h.path.place = k).filter
        (HeldChange.isQuiet f.debounce now) := by
    rw [List.filter_filter]
    exact List.filter_congr fun h _ => Bool.and_comm _ _
  rw [hswap, hplace, Option.toList_filter]
  rfl

theorem Keyed.getElem?_release (hf : f.Keyed) (now : Nat) (k : Place) :
    (f.release now).2.held[k]? = if (f.due? now k).isSome then none else f.held[k]? := by
  unfold release due?
  dsimp only
  rw [getElem?_foldl_erase]
  congr 1
  rw [List.mem_map, eq_iff_iff]
  constructor
  · rintro ⟨h, hmem, hk⟩
    obtain ⟨hvalue, hquiet⟩ := List.mem_filter.mp hmem
    obtain ⟨k', hk'⟩ := (mem_values f.held h).mp hvalue
    obtain rfl := (hf k' h hk').symm.trans hk
    rw [hk', Option.filter_some, if_pos hquiet]
    rfl
  · intro hdue
    obtain ⟨h, hh⟩ := Option.isSome_iff_exists.mp hdue
    obtain ⟨hheld, hquiet⟩ := Option.filter_eq_some_iff.mp hh
    exact ⟨h, List.mem_filter.mpr ⟨(mem_values f.held h).mpr ⟨k, hheld⟩, hquiet⟩, hf k h hheld⟩

theorem Keyed.release (hf : f.Keyed) (now : Nat) : (f.release now).2.Keyed := by
  intro k h hh
  rw [hf.getElem?_release] at hh
  split_ifs at hh
  exact hf k h hh

theorem Keyed.filter_close (hf : f.Keyed) (k : Place) :
    f.close.filter (fun c => c.path.place = k) = f.held[k]?.toList.map HeldChange.asChange := by
  have hplace := filter_values f.held (fun h => h.path.place) hf k
  unfold close
  rw [List.filter_map]
  simp only [Function.comp_def]
  rw [hplace]
  rfl

end Forwarder

/-! ## What comes in and what is passed on -/

/-- The changes that came in are cut into blocks in a row, each of which was passed on as one
change, and those that are still pending. -/
def CutInto (received sent pending : List FileChange) : Prop :=
  ∃ blocks : List (List FileChange), (∀ b ∈ blocks, b ≠ []) ∧
    blocks.flatten ++ pending = received ∧ sent.map some = blocks.map FileChange.merge

namespace CutInto

variable {received sent pending : List FileChange} {c : FileChange}

theorem nil : CutInto [] [] [] := ⟨[], by simp, rfl, rfl⟩

theorem receive (h : CutInto received sent pending) (c : FileChange) :
    CutInto (received ++ [c]) sent (pending ++ [c]) := by
  obtain ⟨blocks, hne, hreceived, hsent⟩ := h
  refine ⟨blocks, hne, ?_, hsent⟩
  rw [← List.append_assoc, hreceived]

/-- What is pending becomes a block. -/
theorem pass (h : CutInto received sent pending) (hc : FileChange.merge pending = some c) :
    CutInto received (sent ++ [c]) [] := by
  obtain ⟨blocks, hne, hreceived, hsent⟩ := h
  refine ⟨blocks ++ [pending], ?_, ?_, ?_⟩
  · intro b hb
    rcases List.mem_append.mp hb with hb | hb
    · exact hne b hb
    · rw [List.mem_singleton.mp hb]
      rintro rfl
      cases hc
  · rw [List.flatten_append, List.flatten_singleton, List.append_nil, hreceived]
  · rw [List.map_append, List.map_append, hsent, List.map_singleton, List.map_singleton, hc]

end CutInto

namespace Forwarder

variable {f : Forwarder} {arrivals : List (Nat × FileChange)} {sent : List FileChange}

/-- What a forwarder holds back is what it did not pass on. -/
structure Accounts (f : Forwarder) (arrivals : List (Nat × FileChange))
    (sent : List FileChange) : Prop where
  keyed : f.Keyed
  cut : ∀ k : Place, ∃ pending,
    CutInto ((arrivals.map Prod.snd).filter fun c => c.path.place = k)
      (sent.filter fun c => c.path.place = k) pending ∧
    f.held[k]?.map HeldChange.asChange = FileChange.merge pending
  seen : ∀ (k : Place) h, f.held[k]? = some h → lastArrival? k arrivals = some h.seen

theorem accounts_new (debounce : Nat) : Accounts { debounce } [] [] where
  keyed k h hh := by simp at hh
  cut k := ⟨[], .nil, by simp [FileChange.merge]⟩
  seen k h hh := by simp at hh

theorem Accounts.hold (h : f.Accounts arrivals sent) (now : Nat) (c : FileChange) :
    (f.hold now c).Accounts (arrivals ++ [(now, c)]) sent where
  keyed := h.keyed.hold
  cut k := by
    obtain ⟨pending, hcut, hheld⟩ := h.cut k
    rw [getElem?_hold, List.map_append, List.filter_append, List.map_singleton,
      List.filter_cons, List.filter_nil]
    by_cases hk : c.path.place = k
    · refine ⟨pending ++ [c], ?_, ?_⟩
      · rw [if_pos (decide_eq_true hk)]
        exact hcut.receive c
      · rw [if_pos hk, FileChange.merge_concat, ← hheld]
        cases f.held[k]? <;> rfl
    · refine ⟨pending, ?_, ?_⟩
      · rw [if_neg (by simpa using hk), List.append_nil]
        exact hcut
      · rw [if_neg hk]
        exact hheld
  seen k held hheld := by
    rw [getElem?_hold] at hheld
    unfold lastArrival?
    rw [List.filter_append, List.filter_cons, List.filter_nil]
    by_cases hk : c.path.place = k
    · rw [if_pos hk] at hheld
      rw [if_pos (decide_eq_true hk), List.getLast?_concat, ← Option.some.inj hheld]
      cases f.held[k]? <;> rfl
    · rw [if_neg hk] at hheld
      rw [if_neg (by simpa using hk), List.append_nil]
      exact h.seen k held hheld

theorem Accounts.release (h : f.Accounts arrivals sent) (now : Nat) :
    (f.release now).2.Accounts arrivals (sent ++ (f.release now).1) where
  keyed := h.keyed.release now
  cut k := by
    obtain ⟨pending, hcut, hheld⟩ := h.cut k
    rw [List.filter_append, h.keyed.filter_release, h.keyed.getElem?_release]
    cases hdue : f.due? now k with
    | none => exact ⟨pending, by simpa using hcut, hheld⟩
    | some d =>
        have hd : f.held[k]? = some d := (Option.filter_eq_some_iff.mp hdue).1
        rw [hd] at hheld
        exact ⟨[], hcut.pass hheld.symm, rfl⟩
  seen k held hheld := by
    rw [h.keyed.getElem?_release] at hheld
    split_ifs at hheld
    exact h.seen k held hheld

theorem Accounts.follow (h : f.Accounts arrivals sent) (cue : Cue) :
    (f.follow cue).2.Accounts (arrivals ++ Cue.arrivals [cue]) (sent ++ (f.follow cue).1) := by
  cases cue with
  | change arrived looked c => exact (h.hold arrived c).release looked
  | tick looked =>
      rw [show Cue.arrivals [.tick looked] = [] from rfl, List.append_nil]
      exact h.release looked

theorem arrivals_append (cues others : List Cue) :
    Cue.arrivals (cues ++ others) = Cue.arrivals cues ++ Cue.arrivals others :=
  List.filterMap_append

theorem accounts_run (debounce : Nat) (cues : List Cue) :
    (run { debounce } cues).2.Accounts (Cue.arrivals cues) (run { debounce } cues).1 := by
  induction cues using List.reverseRecOn with
  | nil => exact accounts_new debounce
  | append_singleton cues cue ih =>
      rw [run_concat, arrivals_append]
      exact ih.follow cue

theorem debounce_follow (f : Forwarder) (cue : Cue) : (f.follow cue).2.debounce = f.debounce := by
  cases cue <;> rfl

theorem debounce_run (f : Forwarder) (cues : List Cue) : (f.run cues).2.debounce = f.debounce := by
  induction cues using List.reverseRecOn with
  | nil => rfl
  | append_singleton cues cue ih => rw [run_concat, debounce_follow, ih]

theorem Accounts.release_quiet (h : f.Accounts arrivals sent) {now : Nat} {c : FileChange}
    (hc : c ∈ (f.release now).1) :
    ∃ seen, lastArrival? c.path.place arrivals = some seen ∧ f.debounce ≤ now - seen := by
  have hin : c ∈ (f.release now).1.filter fun d => d.path.place = c.path.place :=
    List.mem_filter.mpr ⟨hc, decide_eq_true rfl⟩
  rw [h.keyed.filter_release] at hin
  obtain ⟨held, hheld, -⟩ := List.mem_map.mp hin
  obtain ⟨hk, hquiet⟩ := Option.filter_eq_some_iff.mp (Option.mem_toList.mp hheld)
  exact ⟨held.seen, h.seen _ held hk, of_decide_eq_true hquiet⟩

theorem Accounts.follow_quiet (h : f.Accounts arrivals sent) {cue : Cue} {c : FileChange}
    (hc : c ∈ (f.follow cue).1) :
    ∃ seen, lastArrival? c.path.place (arrivals ++ Cue.arrivals [cue]) = some seen ∧
      f.debounce ≤ cue.looked - seen := by
  cases cue with
  | change arrived looked d => exact (h.hold arrived d).release_quiet hc
  | tick looked =>
      rw [show Cue.arrivals [.tick looked] = [] from rfl, List.append_nil]
      exact h.release_quiet hc

end Forwarder

namespace Cue

theorem mem_moments_of_mem_arrivals {cues : List Cue} {a : Nat × FileChange}
    (ha : a ∈ arrivals cues) : a.1 ∈ cues.flatMap moments := by
  obtain ⟨cue, hcue, hcome⟩ := List.mem_filterMap.mp ha
  apply List.mem_flatMap.mpr
  refine ⟨cue, hcue, ?_⟩
  cases cue with
  | change arrived looked c =>
      rw [← Option.some.inj hcome]
      exact List.mem_cons_self
  | tick looked => cases hcome

theorem looked_mem_moments (cue : Cue) : cue.looked ∈ cue.moments := by
  cases cue with
  | change arrived looked c => exact List.mem_cons_of_mem _ List.mem_cons_self
  | tick looked => exact List.mem_cons_self

/-- What has come in did so before the files are looked at. -/
theorem InOrder.arrived_le {before after : List Cue} {cue : Cue}
    (h : InOrder (before ++ cue :: after)) {a : Nat × FileChange}
    (ha : a ∈ arrivals before ++ arrivals [cue]) : a.1 ≤ cue.looked := by
  unfold InOrder at h
  rw [List.flatMap_append, List.pairwise_append, List.flatMap_cons, List.pairwise_append] at h
  obtain ⟨-, ⟨hcue, -, -⟩, hbefore⟩ := h
  rcases List.mem_append.mp ha with ha | ha
  · exact hbefore _ (mem_moments_of_mem_arrivals ha) _
      (List.mem_append_left _ cue.looked_mem_moments)
  · cases cue with
    | change arrived looked c =>
        rw [List.mem_singleton.mp ha]
        exact (List.pairwise_cons.mp hcue).1 looked List.mem_cons_self
    | tick looked => cases ha

theorem exists_of_lastArrival? {k : Place} {cues : List (Nat × FileChange)} {seen : Nat}
    (h : lastArrival? k cues = some seen) : ∃ a ∈ cues, a.1 = seen := by
  obtain ⟨a, ha, rfl⟩ := Option.map_eq_some_iff.mp h
  exact ⟨a, List.mem_of_mem_filter (List.mem_of_getLast? ha), rfl⟩

end Cue

namespace Forwarder

variable {f : Forwarder}

/-! ## No debounce -/

/-- Without a debounce all that is held back is passed on. -/
theorem Keyed.release_of_zero (hf : f.Keyed) (hzero : f.debounce = 0) (now : Nat) :
    (f.release now).1 = f.close ∧ ∀ k : Place, (f.release now).2.held[k]? = none := by
  have hquiet : ∀ h, HeldChange.isQuiet f.debounce now h = true := by
    intro h
    rw [hzero]
    exact decide_eq_true (Nat.zero_le _)
  constructor
  · unfold Forwarder.release close
    rw [List.filter_eq_self.mpr fun h _ => hquiet h]
  · intro k
    rw [hf.getElem?_release]
    unfold due?
    cases f.held[k]? with
    | none => rfl
    | some h => rw [Option.filter_some, if_pos (hquiet h)]; rfl

theorem follow_of_zero (hzero : f.debounce = 0) (hempty : ∀ k : Place, f.held[k]? = none)
    (cue : Cue) :
    (f.follow cue).1 = (Cue.arrivals [cue]).map Prod.snd ∧
      ∀ k : Place, (f.follow cue).2.held[k]? = none := by
  have hf : f.Keyed := fun k h hh => by simp [hempty] at hh
  cases cue with
  | change arrived looked c =>
      have hone : ∀ (k : Place) h, (f.hold arrived c).held[k]? = some h ↔
          k = c.path.place ∧ h = ⟨c.path, c.change, arrived⟩ := by
        intro k h
        rw [getElem?_hold, hempty]
        split_ifs with hk
        · simp [hk, eq_comm]
        · simp [Ne.symm hk]
      have hheld := values_eq_singleton hone
      have hkeyed : (f.hold arrived c).Keyed := hf.hold
      obtain ⟨hsent, hnone⟩ := hkeyed.release_of_zero hzero looked
      refine ⟨?_, hnone⟩
      rw [follow, hsent, close, hheld]
      rfl
  | tick looked =>
      obtain ⟨hsent, hnone⟩ := hf.release_of_zero hzero looked
      refine ⟨?_, hnone⟩
      have hheld : f.held.values = [] := by
        apply List.eq_nil_iff_forall_not_mem.mpr
        intro h hh
        obtain ⟨k, hk⟩ := (mem_values f.held h).mp hh
        simp [hempty] at hk
      rw [follow, hsent, close, hheld]
      rfl

theorem run_of_zero (cues : List Cue) :
    (run { debounce := 0 } cues).1 = (Cue.arrivals cues).map Prod.snd ∧
      ∀ k : Place, (run { debounce := 0 } cues).2.held[k]? = none := by
  induction cues using List.reverseRecOn with
  | nil => exact ⟨rfl, fun k => by simp [run]⟩
  | append_singleton cues cue ih =>
      obtain ⟨hsent, hempty⟩ := ih
      obtain ⟨hnext, hnone⟩ := follow_of_zero (debounce_run _ cues) hempty cue
      rw [run_concat, arrivals_append, List.map_append, hsent, hnext]
      exact ⟨rfl, hnone⟩

/-! ## The run -/

/-- Whatever comes in and whenever the files are looked at, the changes of each file are passed on
in blocks in a row, each merged into one change, and those still pending are passed on as one when
no more can come in. Before that a file is only passed on when its last change is as old as the
debounce, and without a debounce every change is passed on as it came in. Changes that are taken in
at one moment are a case of this. -/
theorem run_forwards (debounce : Nat) (cues : List Cue) (h : InOrder cues) :
    (∀ k : Place, ∃ pending,
      CutInto (((Cue.arrivals cues).map Prod.snd).filter fun c => c.path.place = k)
        ((run { debounce } cues).1.filter fun c => c.path.place = k) pending ∧
      ((run { debounce } cues).2.close.filter fun c => c.path.place = k) =
        (FileChange.merge pending).toList) ∧
    (∀ before cue after, cues = before ++ cue :: after →
      ∀ c ∈ ((run { debounce } before).2.follow cue).1, ∃ seen,
        lastArrival? c.path.place (Cue.arrivals (before ++ [cue])) = some seen ∧
        seen + debounce ≤ cue.looked) ∧
    (run { debounce := 0 } cues).1 = (Cue.arrivals cues).map Prod.snd ∧
    (run { debounce := 0 } cues).2.close = [] ∧
    ∀ (f : Forwarder) (now : Nat) (cs : List FileChange),
      f.receiveAll now cs = f.run (cs.map (.change now now)) := by
  have hrun := accounts_run debounce cues
  refine ⟨fun k => ?_, ?_, (run_of_zero cues).1, ?_, receiveAll_eq_run⟩
  · obtain ⟨pending, hcut, hheld⟩ := hrun.cut k
    refine ⟨pending, hcut, ?_⟩
    rw [hrun.keyed.filter_close, ← hheld]
    cases (run { debounce } cues).2.held[k]? <;> rfl
  · rintro before cue after rfl c hc
    obtain ⟨seen, hlast, hquiet⟩ := (accounts_run debounce before).follow_quiet hc
    rw [debounce_run] at hquiet
    dsimp only at hquiet
    refine ⟨seen, by rw [arrivals_append]; exact hlast, ?_⟩
    obtain ⟨a, ha, hseen⟩ := exists_of_lastArrival? hlast
    have hle := h.arrived_le ha
    -- The age is cut off at zero, which only the order of the moments excludes.
    omega
  · apply List.map_eq_nil_iff.mpr
    apply List.eq_nil_iff_forall_not_mem.mpr
    intro held hheld
    obtain ⟨k, hk⟩ := (mem_values _ held).mp hheld
    rw [(run_of_zero cues).2 k] at hk
    cases hk

/-- A file that is saved by renaming under two spellings, and another one that is edited again just
when it has been quiet for long enough. -/
theorem run_forwards_of_saved :
    let a : Path := ⟨"p/A.cs"⟩
    let b : Path := ⟨"p/B.cs"⟩
    let cues : List Cue := [.change 0 0 ⟨a, .deleted⟩, .change 5 6 ⟨⟨"p//A.cs"⟩, .created⟩,
      .change 6 6 ⟨b, .created⟩, .tick 36, .change 36 66 ⟨b, .contentChanged⟩]
    InOrder cues ∧
    (∃ pending, CutInto [⟨b, .created⟩, ⟨b, .contentChanged⟩]
      ((run { debounce := 30 } cues).1.filter fun c => c.path.place = b.place) pending ∧
      ((run { debounce := 30 } cues).2.close.filter fun c => c.path.place = b.place) =
        (FileChange.merge pending).toList) ∧
    (∀ c ∈ ((run { debounce := 30 } (cues.take 3)).2.follow (.tick 36)).1, ∃ seen,
      lastArrival? c.path.place (Cue.arrivals (cues.take 4)) = some seen ∧ seen + 30 ≤ 36) ∧
    (run { debounce := 0 } cues).1 = [⟨a, .deleted⟩, ⟨⟨"p//A.cs"⟩, .created⟩, ⟨b, .created⟩,
      ⟨b, .contentChanged⟩] := by
  intro a b cues
  have horder : InOrder cues := by decide
  have hreceived : ((Cue.arrivals cues).map Prod.snd).filter (fun c => c.path.place = b.place) =
      [⟨b, .created⟩, ⟨b, .contentChanged⟩] := by decide +kernel
  obtain ⟨hcut, hquiet, hall, -⟩ := run_forwards 30 cues horder
  have hedited := hcut b.place
  rw [hreceived] at hedited
  exact ⟨horder, hedited, hquiet _ _ _ rfl, hall⟩

end Forwarder

end SymbolAtlas
