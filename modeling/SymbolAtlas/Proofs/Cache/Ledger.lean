import SymbolAtlas.Cache.Basic
import SymbolAtlas.Proofs.Cache.Disk
import SymbolAtlas.Proofs.Cache.Memory
import SymbolAtlas.Proofs.Collection

/-!
# What a cache owes its callers

A cache is used in any way, now and then by a new cache on the same directory. The ledger of a
solution only remembers the collection that was stored for it last, and forgets it when it is
invalidated or everything is removed. It knows nothing of tiers, room, cleanup or restarts.
-/

namespace SymbolAtlas.Cache

variable {V : Type}

/-! ## Runs -/

/-- What can be done with a cache. A new cache on its directory may take its place at any time. -/
inductive Op (V : Type) : Type 1 where
  | insert (key : String) (v : V) (ttl : Option Nat) (version : Option String)
  | get {α : Type} (read : V → Option α) (key : String) (version : Option String)
  | getOrTry {α ε : Type} (read : V → Option α) (write : α → V) (key : String)
      (load : Except ε α) (ttl : Option Nat) (version : Option String)
  | getOrCompute {α : Type} (read : V → Option α) (write : α → V) (key : String) (a : α)
      (ttl : Option Nat) (version : Option String)
  | putCollection (solution : String) (collected : Collection) (version : Option String)
  | getCollection (solution : String) (version : Option String)
  | invalidate (key : String)
  | clear
  | purge
  | wait (span : Nat)
  | reopen (settings : Settings)

namespace Op

/-- What an operation makes of a cache, and the moment after it. -/
def perform (c : Cache V) (now : Nat) : Op V → Except ClockOverflow (Cache V × Nat)
  | .insert key v ttl version => (c.insert now key v ttl version).map (·, now)
  | .get read key version => .ok ((c.get read now key version).2, now)
  | .getOrTry read write key load ttl version =>
    (c.getOrTry read write now key load ttl version).map fun r => (r.2, now)
  | .getOrCompute read write key a ttl version =>
    (c.getOrCompute read write now key a ttl version).map fun r => (r.2, now)
  | .putCollection solution collected version =>
    (c.putCollection now solution collected version).map (·, now)
  | .getCollection solution version => .ok ((c.getCollection now solution version).2, now)
  | .invalidate key => .ok (c.invalidate key, now)
  | .clear => .ok (c.clear, now)
  | .purge => .ok ((c.purge now).2, now)
  | .wait span => .ok (c.elapse now (now + span), now + span)
  | .reopen settings => .ok (.new settings c.disk, now)

/-- The keys whose files an operation reads, writes or removes. -/
def fileKeys : Op V → List String
  | .putCollection solution _ _ | .getCollection solution _ => [collectionKey solution]
  | .invalidate key => [key]
  | _ => []

/-- How long the value of a caller is to count, if the caller tells. -/
def ownTtl? : Op V → Option Nat
  | .insert _ _ ttl _ | .getOrTry _ _ _ _ ttl _ | .getOrCompute _ _ _ _ ttl _ => ttl
  | _ => none

end Op

/-- The durable tier is configured, and values count for at most so many milliseconds by default
as 64 bits hold. -/
structure Settings.Durable (s : Settings) : Prop where
  directory : s.directory.isSome
  ttl : s.defaultTtl < 2 ^ 64

/-- A new cache makes use of the directory as well. -/
def Op.KeepsDirectory : Op V → Prop
  | .reopen settings => settings.Durable
  | _ => True

/-- Does one operation after the other. -/
def run : List (Op V) → Cache V → Nat → Except ClockOverflow (Cache V × Nat)
  | [], c, now => .ok (c, now)
  | op :: ops, c, now =>
    match op.perform c now with
    | .error e => .error e
    | .ok (c, now) => run ops c now

/-! ## The ledger -/

/-- A collection as it was stored, with the default time to live at that time. -/
structure Deposit where
  collected : Collection
  stored : Nat
  ttl : Nat
  version : Option String

namespace Deposit

/-- Whether a deposit counts no longer. -/
def isPast (d : Deposit) (now : Nat) : Bool := d.stored + d.ttl < now

/-- What is to be answered at some moment, if a version tag is asked for. Nothing is once its time
is over, nor where both tags are given and differ. -/
def answer (d : Deposit) (now : Nat) (version : Option String) : Option Collection :=
  if d.isPast now = true ∨ ∃ s ∈ d.version, ∃ r ∈ version, s ≠ r then none else some d.collected

theorem answer_eq (d : Deposit) (now : Nat) (version : Option String) :
    d.answer now version =
      if d.isPast now || !versionsAgree d.version version then none else some d.collected := by
  have hdiffer : (∃ s ∈ d.version, ∃ r ∈ version, s ≠ r) ↔
      (!versionsAgree d.version version) = true := by
    rw [Bool.not_eq_true', ← Bool.not_eq_true, versionsAgree_iff]
    push Not
    rfl
  unfold answer
  simp only [hdiffer, Bool.or_eq_true]

/-- The record that is written for a deposit. -/
def record (d : Deposit) (solution : String) : Record where
  key := collectionKey solution
  value := (d.collected.toJson.tidy?).getD .null
  inserted := d.stored
  expires := Record.expiry d.stored d.ttl
  version := d.version

end Deposit

/-- What is remembered about one solution. -/
structure Ledger where
  now : Nat
  /-- The default time to live that is in force. -/
  ttl : Nat
  deposit : Option Deposit := none

namespace Ledger

/-- The ledger of a solution after an operation. -/
def note (solution : String) (l : Ledger) : Op V → Ledger
  | .putCollection other collected version =>
    if other = solution then { l with deposit := some ⟨collected, l.now, l.ttl, version⟩ } else l
  | .invalidate key => if key = collectionKey solution then { l with deposit := none } else l
  | .clear => { l with deposit := none }
  | .wait span => { l with now := l.now + span }
  | .reopen settings => { l with ttl := settings.defaultTtl }
  | _ => l

/-- The ledger of a solution after a run that begins with a new cache. -/
def ofRun (solution : String) (settings : Settings) (start : Nat) (ops : List (Op V)) : Ledger :=
  ops.foldl (note solution) { now := start, ttl := settings.defaultTtl }

def answer (l : Ledger) (version : Option String) : Option Collection :=
  l.deposit.bind fun d => d.answer l.now version

theorem now_le_note (solution : String) (l : Ledger) (op : Op V) :
    l.now ≤ (l.note solution op).now := by
  cases op with
  | putCollection other collected version =>
      rw [note]
      split <;> exact Nat.le_refl _
  | invalidate key =>
      rw [note]
      split <;> exact Nat.le_refl _
  | wait span => exact Nat.le_add_right _ _
  | _ => exact Nat.le_refl _

theorem now_le_foldl (solution : String) (l : Ledger) (ops : List (Op V)) :
    l.now ≤ (ops.foldl (note solution) l).now := by
  induction ops generalizing l with
  | nil => exact Nat.le_refl _
  | cons op ops ih => exact Nat.le_trans (now_le_note solution l op) (ih _)

end Ledger

theorem collectionKey_inj {a b : String} : collectionKey a = collectionKey b ↔ a = b := by
  unfold collectionKey
  constructor
  · intro h
    have hlists := congrArg String.toList h
    rw [String.toList_append, String.toList_append] at hlists
    exact String.toList_inj.1 (List.append_cancel_left hlists)
  · rintro rfl
    rfl

end SymbolAtlas.Cache
