import SymbolAtlas.Proofs.Cache.Ledger

/-!
# What the memory tier owes its callers

The book of a cache has, for every key, what was stored last since the key was invalidated or
everything was removed, and what became of it. It also has what is not in memory any more, so
that every answer can be given from it: a value is found until its time is over, unless it was
evicted.
-/

namespace SymbolAtlas.Cache

variable {V α : Type}

/-! ## The book -/

/-- What became of a value after it was stored. -/
inductive Fate where
  | held
  /-- It had to make room for another one. -/
  | evicted
  /-- It was dropped when its time was over. -/
  | lapsed
deriving Repr, DecidableEq

structure Posting (V : Type) where
  key : String
  value : V
  stored : Nat
  ttl : Nat
  version : Option String
  fate : Fate := .held

namespace Posting

def isHeld (p : Posting V) : Bool := p.fate == .held

def isPast (p : Posting V) (now : Nat) : Bool := p.stored + p.ttl < now

/-- Whether the value is an answer to those who ask for a version. -/
def answers (p : Posting V) (now : Nat) (version : Option String) : Bool :=
  p.fate != .evicted && !p.isPast now && versionsAgree p.version version

def lapse (p : Posting V) (now : Nat) : Posting V :=
  if p.isHeld && p.isPast now then { p with fate := .lapsed } else p

def entry (p : Posting V) : Entry (Item V) where
  key := p.key
  value := .value p.value
  expires := p.stored + p.ttl
  version := p.version

theorem isPast_of_le {p : Posting V} {moment now : Nat} (hpast : p.isPast moment = true)
    (hle : moment ≤ now) : p.isPast now = true := by
  unfold isPast at hpast ⊢
  rw [decide_eq_true_eq] at hpast ⊢
  omega

end Posting

/-- The last postings of all keys, the oldest first. -/
structure Book (V : Type) where
  now : Nat
  cleanup : Cleanup
  postings : List (Posting V) := []

namespace Book

def last? (b : Book V) (key : String) : Option (Posting V) :=
  b.postings.find? fun p => p.key == key

def held (b : Book V) : List (Posting V) := b.postings.filter Posting.isHeld

def answer (b : Book V) (read : V → Option α) (key : String) (version : Option String) :
    Option α :=
  (b.last? key).bind fun p => if p.answers b.now version then read p.value else none

/-- Marks the first of the held postings as evicted. -/
def evict (count : Nat) : List (Posting V) → List (Posting V)
  | [] => []
  | p :: postings =>
    if p.isHeld ∧ 0 < count then { p with fate := .evicted } :: evict (count - 1) postings
    else p :: evict count postings

/-- The postings after room was made for a new key. -/
def room (b : Book V) (bound : Bound) (key : String) : List (Posting V) :=
  if b.held.all (fun p => p.key != key) ∧ bound.maxEntries ≤ b.held.length then
    evict (bound.victims b.held.length) b.postings
  else b.postings

def store (b : Book V) (bound : Bound) (key : String) (value : V) (ttl : Nat)
    (version : Option String) : Book V :=
  { b with
    postings := (b.room bound key).filter (fun p => p.key != key) ++
      [{ key, value, stored := b.now, ttl, version }] }

/-- What is held under some keys lapses if it is past at a moment. -/
def lapse (b : Book V) (which : String → Bool) (moment : Nat) : Book V :=
  { b with postings := b.postings.map fun p => if which p.key then p.lapse moment else p }

def retain (b : Book V) (keep : String → Bool) : Book V :=
  { b with postings := b.postings.filter fun p => keep p.key }

/-- Time passes for a cleanup that runs at whole intervals after it began. -/
def clean (b : Book V) (interval span began : Nat) : Book V :=
  let last := began + (b.now + span - 1 - began) / interval * interval
  { b.lapse (fun _ => true) last with now := b.now + span, cleanup := .since began }

def wait (b : Book V) (interval span : Nat) : Book V :=
  match b.cleanup with
  | .off => { b with now := b.now + span }
  | .waiting => b.clean interval span b.now
  | .since began => b.clean interval span began

/-- The book after an operation on the values of the callers. -/
def note (s : Settings) (b : Book V) : Op V → Book V
  | .insert key v ttl version => b.store s.bound key v (ttl.getD s.defaultTtl) version
  | .get _ key _ => b.lapse (· == key) b.now
  | .getOrTry read write key load ttl version =>
    match b.answer read key version with
    | some _ => b.lapse (· == key) b.now
    | none =>
      match load with
      | .error _ => b.lapse (· == key) b.now
      | .ok a =>
        (b.lapse (· == key) b.now).store s.bound key (write a) (ttl.getD s.defaultTtl) version
  | .getOrCompute read write key a ttl version =>
    match b.answer read key version with
    | some _ => b.lapse (· == key) b.now
    | none =>
      (b.lapse (· == key) b.now).store s.bound key (write a) (ttl.getD s.defaultTtl) version
  | .invalidate key => b.retain (· != key)
  | .clear => b.retain fun _ => false
  | .purge => b.lapse (fun _ => true) b.now
  | .wait span => b.wait s.cleanupInterval span
  | .putCollection _ _ _ | .getCollection _ _ | .reopen _ => b

def new (s : Settings) (start : Nat) : Book V where
  now := start
  cleanup := if s.cleanupInterval = 0 then .off else .waiting

def ofRun (s : Settings) (start : Nat) (ops : List (Op V)) : Book V :=
  ops.foldl (note s) (new s start)

end Book

/-- The operations on the values of the callers. -/
def Op.OnValues : Op V → Prop
  | .putCollection _ _ _ | .getCollection _ _ | .reopen _ => False
  | _ => True

def Op.span : Op V → Nat
  | .wait span => span
  | _ => 0

/-! ## What is held -/

namespace Book

theorem now_note (s : Settings) (b : Book V) (op : Op V) :
    (b.note s op).now = b.now + op.span := by
  cases op with
  | getOrTry read write key load ttl version =>
      simp only [note]
      split
      · rfl
      · cases load <;> rfl
  | getOrCompute read write key a ttl version =>
      simp only [note]
      split <;> rfl
  | wait span =>
      simp only [note, wait]
      split <;> rfl
  | _ => rfl

theorem now_le_foldl (s : Settings) (b : Book V) (ops : List (Op V)) :
    b.now ≤ (ops.foldl (note s) b).now := by
  induction ops generalizing b with
  | nil => exact Nat.le_refl _
  | cons op ops ih =>
      have hnote := now_note s b op
      have hlater := ih (b.note s op)
      rw [List.foldl_cons]
      omega

variable {postings : List (Posting V)} {b : Book V} {bound : Bound} {key : String}

theorem map_key_evict (count : Nat) (postings : List (Posting V)) :
    (evict count postings).map Posting.key = postings.map Posting.key := by
  induction postings generalizing count with
  | nil => rfl
  | cons p postings ih =>
      rw [evict]
      split <;> rw [List.map_cons, List.map_cons, ih]

theorem filter_isHeld_evict (count : Nat) (postings : List (Posting V)) :
    (evict count postings).filter Posting.isHeld =
      (postings.filter Posting.isHeld).drop count := by
  induction postings generalizing count with
  | nil => simp [evict]
  | cons p postings ih =>
      by_cases hheld : p.isHeld = true
      · cases count with
        | zero => simp [evict, hheld, ih]
        | succ count =>
            have hgone : { p with fate := Fate.evicted }.isHeld = false := rfl
            simp [evict, hheld, hgone, ih]
      · simp [evict, hheld, ih]

/-- Only evicted postings are changed. -/
theorem mem_of_mem_evict {count : Nat} {p : Posting V} (hp : p ∈ evict count postings)
    (hfate : p.fate ≠ .evicted) : p ∈ postings := by
  induction postings generalizing count with
  | nil => simp [evict] at hp
  | cons q postings ih =>
      rw [evict] at hp
      split at hp
      · obtain rfl | hp := List.mem_cons.1 hp
        · exact absurd rfl hfate
        · exact List.mem_cons_of_mem _ (ih hp)
      · obtain rfl | hp := List.mem_cons.1 hp
        · exact List.mem_cons_self
        · exact List.mem_cons_of_mem _ (ih hp)

theorem map_key_room (b : Book V) (bound : Bound) (key : String) :
    (b.room bound key).map Posting.key = b.postings.map Posting.key := by
  unfold room
  split
  · exact map_key_evict _ _
  · rfl

theorem mem_of_mem_room {p : Posting V} (hp : p ∈ b.room bound key) (hfate : p.fate ≠ .evicted) :
    p ∈ b.postings := by
  unfold room at hp
  split at hp
  · exact mem_of_mem_evict hp hfate
  · exact hp

theorem held_lapse (b : Book V) (which : String → Bool) (moment : Nat) :
    (b.lapse which moment).held =
      b.held.filter fun p => !(which p.key && p.isPast moment) := by
  unfold held lapse
  induction b.postings with
  | nil => rfl
  | cons p postings ih =>
      simp only [List.map_cons, List.filter_cons, ih]
      cases hwhich : which p.key <;> cases hheld : p.isHeld <;> cases hpast : p.isPast moment <;>
        simp [Posting.lapse, hwhich, hheld, hpast]
      all_goals rfl

theorem map_key_lapse (b : Book V) (which : String → Bool) (moment : Nat) :
    (b.lapse which moment).postings.map Posting.key = b.postings.map Posting.key := by
  unfold lapse
  rw [List.map_map]
  apply List.map_congr_left
  intro p _
  show (if which p.key then p.lapse moment else p).key = p.key
  unfold Posting.lapse
  split
  · split <;> rfl
  · rfl

/-- What lapses is past. -/
theorem isPast_of_mem_lapse {which : String → Bool} {moment : Nat} {p : Posting V}
    (hp : p ∈ (b.lapse which moment).postings) (hfate : p.fate = .lapsed) :
    p ∈ b.postings ∨ p.isPast moment = true := by
  obtain ⟨q, hq, rfl⟩ := List.mem_map.1 hp
  by_cases hwhich : which q.key = true
  · by_cases hlapse : (q.isHeld && q.isPast moment) = true
    · right
      simp only [hwhich, Posting.lapse, hlapse, if_true]
      exact (Bool.and_eq_true_iff.1 hlapse).2
    · left
      simpa [hwhich, Posting.lapse, hlapse] using hq
  · left
    simpa [hwhich] using hq

theorem held_store (b : Book V) (bound : Bound) (key : String) (value : V) (ttl : Nat)
    (version : Option String) :
    (b.store bound key value ttl version).held =
      (if b.held.all (fun p => p.key != key) ∧ bound.maxEntries ≤ b.held.length then
          b.held.drop (bound.victims b.held.length)
        else b.held).filter (fun p => p.key != key) ++
        [{ key, value, stored := b.now, ttl, version }] := by
  have hroom : (b.room bound key).filter Posting.isHeld =
      if b.held.all (fun p => p.key != key) ∧ bound.maxEntries ≤ b.held.length then
        b.held.drop (bound.victims b.held.length)
      else b.held := by
    unfold room
    split
    · exact filter_isHeld_evict _ _
    · rfl
  rw [← hroom]
  unfold store
  simp only [held, List.filter_append, List.filter_filter]
  congr 1
  apply List.filter_congr
  intro p _
  exact Bool.and_comm _ _

theorem nodup_store (h : (b.postings.map Posting.key).Nodup) (value : V) (ttl : Nat)
    (version : Option String) :
    ((b.store bound key value ttl version).postings.map Posting.key).Nodup := by
  have hroom : ((b.room bound key).map Posting.key).Nodup := by
    rw [map_key_room]
    exact h
  have hrest : (((b.room bound key).filter fun p => p.key != key).map Posting.key).Nodup :=
    hroom.sublist (List.filter_sublist.map _)
  have hnew : key ∉ ((b.room bound key).filter fun p => p.key != key).map Posting.key := by
    intro hmem
    obtain ⟨p, hp, hkey⟩ := List.mem_map.1 hmem
    exact bne_iff_ne.1 (List.mem_filter.1 hp).2 hkey
  unfold store
  rw [List.map_append]
  exact List.nodup_append_comm.1 (List.nodup_cons.2 ⟨hnew, hrest⟩)

/-- Where a value may be held, storing one never holds more values than there may be. -/
theorem length_held_store_le (hmax : bound.maxEntries ≠ 0) (h : b.held.length ≤ bound.maxEntries)
    (value : V) (ttl : Nat) (version : Option String) :
    (b.store bound key value ttl version).held.length ≤ bound.maxEntries := by
  rw [held_store, List.length_append, List.length_singleton]
  exact bound.length_room_lt hmax h fun p => p.key != key

theorem answer_eq_some {read : V → Option α} {version : Option String} {x : α} :
    b.answer read key version = some x ↔
      ∃ p, b.last? key = some p ∧ p.fate ≠ .evicted ∧ read p.value = some x ∧
        b.now ≤ p.stored + p.ttl ∧ ∀ s ∈ p.version, ∀ r ∈ version, s = r := by
  unfold answer
  rw [Option.bind_eq_some_iff]
  apply exists_congr
  intro p
  have hpast : p.isPast b.now = false ↔ b.now ≤ p.stored + p.ttl := by
    unfold Posting.isPast
    rw [decide_eq_false_iff_not, Nat.not_lt]
  rw [Option.ite_none_right_eq_some, Posting.answers, Bool.and_eq_true, Bool.and_eq_true,
    bne_iff_ne, Bool.not_eq_true', hpast, versionsAgree_iff]
  tauto

end Book

end SymbolAtlas.Cache
