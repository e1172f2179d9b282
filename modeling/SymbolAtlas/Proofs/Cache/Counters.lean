import Mathlib.Data.Bool.Count
import SymbolAtlas.Proofs.Cache.Eviction

/-!
# The counters of a cache

A lookup is a hit if its caller is answered from a tier, and a miss if not. An entry comes into
memory when one is stored under a key that has none there. It goes when it makes room, when it is
found to count no longer, or when it is removed. So the number of entries and the counters of those
that are gone add up to what came, at any moment of any run.
-/

namespace SymbolAtlas.Cache

variable {V : Type}

/-! ## What comes into memory and what goes -/

namespace Move

/-- How many entries a move adds: one, if it stores an entry under a key that has none. -/
def adds (b : Bound) (m : Memory V) : Move V → Nat
  | .store e => if b.maxEntries ≠ 0 ∧ (m.find? e.key).isNone then 1 else 0
  | _ => 0

/-- How many entries a move removes, whether they still count or not. -/
def removes (m : Memory V) : Move V → Nat
  | .erase key => (m.find? key).isSome.toNat
  | .clear => m.size
  | _ => 0

end Move

namespace Memory

/-- How many entries were added in the course of a history. -/
def added (b : Bound) : List (Move V) → Nat
  | [] => 0
  | move :: earlier => added b earlier + move.adds b (after b earlier)

/-- How many entries were removed in the course of a history. -/
def removed (b : Bound) : List (Move V) → Nat
  | [] => 0
  | move :: earlier => removed b earlier + move.removes (after b earlier)

/-- How many entries are there or are counted as gone. -/
def told (m : Memory V) : Nat := m.size + m.evictions + m.expirations

variable {b : Bound} {m : Memory V} {past : List (Move V)}

/-- Where keys are not repeated, at most one element is dropped with a key. -/
theorem length_filter_key_ne {α : Type} {f : α → String} {l : List α} (hnodup : (l.map f).Nodup)
    (key : String) :
    (l.filter fun a => f a != key).length + (l.find? fun a => f a == key).isSome.toNat =
      l.length := by
  induction l with
  | nil => rfl
  | cons a l ih =>
      rw [List.map_cons, List.nodup_cons] at hnodup
      by_cases ha : f a = key
      · have hothers : (l.filter fun a => f a != key) = l := by
          rw [List.filter_eq_self]
          intro b hb
          exact bne_iff_ne.2 fun heq => hnodup.1 (ha ▸ heq ▸ List.mem_map_of_mem hb)
        rw [List.filter_cons_of_neg (by simp [ha]), List.find?_cons_of_pos (by simp [ha]), hothers]
        rfl
      · have hrest := ih hnodup.2
        rw [List.filter_cons_of_pos (by simp [ha]), List.find?_cons_of_neg (by simp [ha]),
          List.length_cons, List.length_cons]
        omega

theorem Aged.size_erase (h : m.Aged b past) (key : String) :
    (m.erase key).size + (m.find? key).isSome.toNat = m.size :=
  length_filter_key_ne h.nodup key

theorem expirations_store (b : Bound) (m : Memory V) (e : Entry V) :
    (m.store b e).expirations = m.expirations := by
  unfold store
  split
  · rfl
  · unfold makeRoom
    split <;> rfl

theorem size_store (hmax : b.maxEntries ≠ 0) (e : Entry V) :
    (m.store b e).size =
      ((m.entries.drop (m.makesWay b e)).filter fun f => f.key != e.key).length + 1 := by
  rw [Memory.size, entries_store_eq hmax, List.length_append, List.length_singleton]

/-- Where the key is new, whatever made way is gone and nothing else. -/
theorem size_store_of_new (hmax : b.maxEntries ≠ 0) {e : Entry V} (hnew : m.find? e.key = none) :
    (m.store b e).size = m.size - m.makesWay b e + 1 := by
  have hothers : ((m.entries.drop (m.makesWay b e)).filter fun f => f.key != e.key) =
      m.entries.drop (m.makesWay b e) := by
    have hall := isNone_find? m e.key
    rw [hnew, Option.isNone_none, eq_comm, List.all_eq_true] at hall
    rw [List.filter_eq_self]
    exact fun f hf => hall f (List.mem_of_mem_drop hf)
  rw [size_store hmax, hothers, List.length_drop, Memory.size]

/-- Where the key has an entry, nothing makes way and the old entry is gone. -/
theorem Aged.size_store_of_known (h : m.Aged b past) (hmax : b.maxEntries ≠ 0) {e : Entry V}
    (hknown : (m.find? e.key).isSome = true) : (m.store b e).size = m.size := by
  have herase := h.size_erase e.key
  rw [hknown, Bool.toNat_true] at herase
  rw [size_store hmax, makesWay_eq_zero hknown, List.drop_zero]
  exact herase

theorem Aged.told_store (h : m.Aged b past) (e : Entry V) :
    (m.store b e).told = m.told + (Move.store e).adds b m := by
  by_cases hmax : b.maxEntries = 0
  · have hsame : m.store b e = m := if_pos hmax
    rw [hsame, Move.adds, if_neg fun hnew => hnew.1 hmax, Nat.add_zero]
  · have hevictions : (m.store b e).evictions = m.evictions + min (m.makesWay b e) m.size := by
      rw [h.evictions_store, h.evicted_eq_take, List.length_take]
      rfl
    unfold told
    rw [hevictions, expirations_store, Move.adds]
    cases hfind : m.find? e.key with
    | none =>
        rw [size_store_of_new hmax hfind, if_pos ⟨hmax, rfl⟩]
        omega
    | some old =>
        have hknown : (m.find? e.key).isSome = true := by rw [hfind]; rfl
        rw [h.size_store_of_known hmax hknown, makesWay_eq_zero hknown,
          if_neg fun hnew => by simp at hnew]
        omega

theorem Aged.told_lookup (h : m.Aged b past) (now : Nat) (key : String)
    (version : Option String) : (m.lookup now key version).2.told = m.told := by
  unfold lookup
  cases hfind : m.find? key with
  | none => rfl
  | some e =>
      have herase := h.size_erase key
      rw [hfind, Option.isSome_some, Bool.toNat_true] at herase
      dsimp only
      split
      · change (m.erase key).size + m.evictions + (m.expirations + 1) = m.told
        unfold told
        omega
      · split <;> rfl

theorem told_purge (m : Memory V) (now : Nat) : (m.purge now).2.told = m.told := by
  have hle : (m.purge now).2.size ≤ m.size := List.length_filter_le _ _
  have hcount : (m.purge now).2.expirations = m.expirations + (m.size - (m.purge now).2.size) :=
    rfl
  have hevictions : (m.purge now).2.evictions = m.evictions := rfl
  unfold told
  omega

/-- What one move does to the number of entries is told by the counters, unless it adds or removes
some. -/
theorem Aged.told_perform (h : m.Aged b past) (move : Move V) :
    (move.perform b m).told + move.removes m = m.told + move.adds b m := by
  cases move with
  | store e => exact h.told_store e
  | lookup now key version => exact h.told_lookup now key version
  | erase key =>
      have herase := h.size_erase key
      change (m.erase key).size + m.evictions + m.expirations + _ =
        m.size + m.evictions + m.expirations
      rw [Move.removes]
      omega
  | clear =>
      change 0 + m.evictions + m.expirations + m.size = m.size + m.evictions + m.expirations
      omega
  | purge now => exact told_purge m now

/-- Whatever was added is there, or is counted as gone, or was removed. -/
theorem told_after (b : Bound) (past : List (Move V)) :
    (after b past).told + removed b past = added b past := by
  induction past with
  | nil => rfl
  | cons move earlier ih =>
      have hstep := (Aged.after b earlier).told_perform move
      rw [after, removed, added]
      omega

end Memory

/-! ## What an operation counts -/

/-- Whether an operation was answered from a tier, if it asks for something. A caller whose value
was loaded or computed was not. -/
def Op.outcome? (c : Cache V) (now : Nat) : Op V → Option Bool
  | .get read key version => some (c.get read now key version).1.isSome
  | .getOrTry read write key load ttl version =>
    match c.getOrTry read write now key load ttl version with
    | .ok ((_, loaded), _) => some !loaded
    | .error _ => some false
  | .getOrCompute read write key a ttl version =>
    match c.getOrCompute read write now key a ttl version with
    | .ok ((_, computed), _) => some !computed
    | .error _ => some false
  | .getCollection solution version => some (c.getCollection now solution version).1.isSome
  | _ => none

/-- The hits and the misses of a cache grow by those among some outcomes. -/
structure Counts (c : Cache V) (outcomes : List Bool) (c' : Cache V) : Prop where
  hits : c'.hits = c.hits + outcomes.count true
  misses : c'.misses = c.misses + outcomes.count false

section Counting

variable {α : Type} {c c' c'' : Cache V} {now now' : Nat} {key : String} {version : Option String}

theorem counts_count (c : Cache V) (found : Option α) :
    c.Counts [found.isSome] (c.count found) := by
  cases found <;> exact ⟨rfl, rfl⟩

theorem counts_memory (c : Cache V) (memory : Memory (Item V)) : c.Counts [] { c with memory } :=
  ⟨rfl, rfl⟩

theorem Counts.trans {first second : List Bool} (h : c.Counts first c')
    (h' : c'.Counts second c'') : c.Counts (first ++ second) c'' where
  hits := by
    rw [h'.hits, h.hits, List.count_append]
    omega
  misses := by
    rw [h'.misses, h.misses, List.count_append]
    omega

theorem counts_get {read : V → Option α} {found : Option α}
    (hget : (c.get read now key version).1 = found) :
    c.Counts [found.isSome] (c.get read now key version).2 := by
  subst hget
  exact (counts_memory c _).trans (counts_count _ _)

theorem counts_keep {item : Item V} {ttl : Nat}
    (h : c.keep now key item ttl version = .ok c') : c.Counts [] c' := by
  rw [keep_eq_store h]
  exact ⟨rfl, rfl⟩

theorem counts_onDisk (c : Cache V) (f : Disk → Disk) : c.Counts [] (c.onDisk f) := by
  unfold onDisk
  split <;> exact ⟨rfl, rfl⟩

theorem counts_promote (c : Cache V) (now : Nat) (solution : String) (version : Option String) :
    c.Counts [] (c.promote now solution version).2 := by
  unfold promote
  split
  · exact ⟨rfl, rfl⟩
  · dsimp only
    split
    · exact ⟨rfl, rfl⟩
    · split <;> exact ⟨rfl, rfl⟩

theorem counts_elapse (c : Cache V) (start stop : Nat) : c.Counts [] (c.elapse start stop) := by
  unfold elapse
  cases c.cleanup <;> exact ⟨rfl, rfl⟩

theorem counts_getCollection (c : Cache V) (now : Nat) (solution : String)
    (version : Option String) :
    c.Counts [(c.getCollection now solution version).1.isSome]
      (c.getCollection now solution version).2 := by
  rcases getCollection_cases c now solution version with ⟨found, -, heq⟩ | ⟨c', rfl, heq⟩
  · rw [heq]
    exact ⟨rfl, rfl⟩
  · rw [heq]
    exact ((counts_memory c _).trans (counts_promote _ now solution version)).trans
      (counts_count _ _)

/-- A lookup is counted once, as a hit if it was answered from a tier and as a miss if not, and
nothing else is counted. -/
theorem counts_perform {op : Op V} (hop : ∀ settings, op ≠ .reopen settings)
    (h : op.perform c now = .ok (c', now')) : c.Counts (op.outcome? c now).toList c' := by
  cases (performs_of_eq_ok h).2 with
  | insert hinsert => exact counts_keep hinsert
  | get read key version => exact counts_get rfl
  | tryFound _ _ _ hget =>
      simp only [Op.outcome?, getOrTry_of_some hget]
      exact counts_get hget
  | tryFailed _ _ _ hget =>
      simp only [Op.outcome?, getOrTry_of_none hget]
      exact counts_get hget
  | tryLoaded hget hinsert =>
      simp only [Op.outcome?, getOrTry_of_none hget, hinsert]
      exact (counts_get hget).trans (counts_keep hinsert)
  | computeFound _ _ _ hget =>
      simp only [Op.outcome?, getOrCompute_of_some hget]
      exact counts_get hget
  | computeStored hget hinsert =>
      simp only [Op.outcome?, getOrCompute_of_none hget, hinsert]
      exact (counts_get hget).trans (counts_keep hinsert)
  | putCollection hput =>
      obtain ⟨kept, hkept, rfl⟩ := of_map_eq_ok hput
      exact (counts_keep hkept).trans (counts_onDisk _ _)
  | getCollection solution version => exact counts_getCollection c now solution version
  | invalidate | clear => exact (counts_memory c _).trans (counts_onDisk _ _)
  | purge => exact ⟨rfl, rfl⟩
  | wait span => exact counts_elapse c now (now + span)
  | reopen settings => exact absurd rfl (hop settings)

end Counting

/-! ## Runs -/

/-- What can happen to a cache. -/
inductive Use (V : Type) : Type 1 where
  | step (op : Op V)
  | close
  /-- Someone else changes the directory. -/
  | disturb (disk : Disk)

namespace Use

def perform (c : Cache V) (now : Nat) : Use V → Except ClockOverflow (Cache V × Nat)
  | .step op => op.perform c now
  | .close => .ok (c.close, now)
  | .disturb disk => .ok ({ c with disk }, now)

/-- Does one after the other. -/
def run : List (Use V) → Cache V → Nat → Except ClockOverflow (Cache V × Nat)
  | [], c, now => .ok (c, now)
  | use :: uses, c, now =>
    match use.perform c now with
    | .error e => .error e
    | .ok (c, now) => run uses c now

end Use

/-- What is written down about a cache by someone who sees its answers and its stores. -/
structure Account (V : Type) where
  /-- Whether each lookup was answered from a tier, the last one first. -/
  outcomes : List Bool := []
  /-- What was done to the memory tier, the last move first. -/
  moves : List (Move (Item V)) := []

namespace Account

/-- The account after a use. A new cache has an account of its own. -/
def note (a : Account V) (c : Cache V) (now : Nat) : Use V → Account V
  | .step (.reopen _) => {}
  | .step op =>
    { outcomes := (op.outcome? c now).toList ++ a.outcomes, moves := op.extend c now a.moves }
  | _ => a

/-- The account after a run, as far as the run goes. -/
def notes (a : Account V) : List (Use V) → Cache V → Nat → Account V
  | [], _, _ => a
  | use :: uses, c, now =>
    match use.perform c now with
    | .error _ => a
    | .ok (c', now') => (a.note c now use).notes uses c' now'

end Account

/-- What a cache counted, and what its memory tier is, is what was written down. -/
structure Agrees (a : Account V) (c : Cache V) : Prop where
  hits : c.hits = a.outcomes.count true
  misses : c.misses = a.outcomes.count false
  memory : c.Recounts a.moves

namespace Agrees

variable {a : Account V} {c c' : Cache V} {now now' : Nat}

theorem new (settings : Settings) (disk : Disk) :
    Agrees {} (Cache.new settings disk : Cache V) where
  hits := by
    unfold Cache.new
    cases settings.directory <;> cases disk.create? <;> rfl
  misses := by
    unfold Cache.new
    cases settings.directory <;> cases disk.create? <;> rfl
  memory := new_memory settings disk

theorem note (h : Agrees a c) {use : Use V} (huse : use.perform c now = .ok (c', now')) :
    Agrees (a.note c now use) c' := by
  cases use with
  | close | disturb disk =>
      cases huse
      exact ⟨h.hits, h.misses, h.memory⟩
  | step op =>
      by_cases hnew : ∃ settings, op = .reopen settings
      · obtain ⟨settings, rfl⟩ := hnew
        cases huse
        exact .new settings c.disk
      · have hsame : ∀ settings, op ≠ .reopen settings := fun settings heq => hnew ⟨settings, heq⟩
        have hop : op.perform c now = .ok (c', now') := huse
        have hcounts := counts_perform hsame hop
        have hnote : a.note c now (.step op) =
            { outcomes := (op.outcome? c now).toList ++ a.outcomes
              moves := op.extend c now a.moves } := by
          cases op with
          | reopen settings => exact absurd rfl (hsame settings)
          | _ => rfl
        rw [hnote]
        constructor
        · rw [hcounts.hits, h.hits, List.count_append, Nat.add_comm]
        · rw [hcounts.misses, h.misses, List.count_append, Nat.add_comm]
        · exact h.memory.perform hop

theorem notes (h : Agrees a c) {uses : List (Use V)}
    (hrun : Use.run uses c now = .ok (c', now')) : Agrees (a.notes uses c now) c' := by
  induction uses generalizing a c now with
  | nil =>
      obtain ⟨rfl, rfl⟩ := Prod.mk.inj (Except.ok.inj hrun)
      exact h
  | cons use uses ih =>
      cases hperform : use.perform c now with
      | error e =>
          rw [Use.run, hperform] at hrun
          cases hrun
      | ok r =>
          rw [Use.run, hperform] at hrun
          rw [Account.notes, hperform]
          exact ih (h.note hperform) hrun

end Agrees

/-- Counters are conserved. After any run the hits are the lookups that were answered from a tier
and the misses are all others. The entries in memory, those that were evicted, those that expired
and those that were removed are together as many as were stored under keys that had none. No
operation counts more than the one lookup it may be. -/
theorem stats_run (settings : Settings) (disk : Disk) (start : Nat) (uses : List (Use V))
    {c : Cache V} {now : Nat} (hrun : Use.run uses (.new settings disk) start = .ok (c, now)) :
    let account := Account.notes {} uses (.new settings disk) start
    c.stats.hits = account.outcomes.count true ∧
    c.stats.misses = account.outcomes.count false ∧
    c.stats.hits + c.stats.misses = account.outcomes.length ∧
    c.memory = Memory.after c.settings.bound account.moves ∧
    c.stats.entries + c.stats.evictions + c.stats.expirations +
      Memory.removed c.settings.bound account.moves =
        Memory.added c.settings.bound account.moves ∧
    ∀ (op : Op V) (c' : Cache V) (now' : Nat), (∀ settings, op ≠ .reopen settings) →
      op.perform c now = .ok (c', now') →
      c'.stats.hits = c.stats.hits + (op.outcome? c now).toList.count true ∧
      c'.stats.misses = c.stats.misses + (op.outcome? c now).toList.count false := by
  intro account
  have hagrees : Agrees account c := (Agrees.new settings disk).notes hrun
  have htold := Memory.told_after c.settings.bound account.moves
  have hmemory : c.memory = Memory.after c.settings.bound account.moves := hagrees.memory
  rw [← hmemory] at htold
  refine ⟨hagrees.hits, hagrees.misses, ?_, hmemory, htold, ?_⟩
  · have hsum : c.hits + c.misses = account.outcomes.length := by
      rw [hagrees.hits, hagrees.misses, List.count_true_add_count_false]
    exact hsum
  · intro op c' now' hop hperform
    have hcounts := counts_perform hop hperform
    exact ⟨hcounts.hits, hcounts.misses⟩

/-- A value that expired, one that took the place of another, one of another type than the one
asked for and one that was removed are all counted, and only where they are to be. -/
theorem stats_run_of_mixed :
    let settings : Settings := { maxEntries := 5, cleanupInterval := 0 }
    let small (n : Nat) : Option Nat := if n < 3 then some n else none
    let uses : List (Use Nat) :=
      [.step (.insert "x" 1 (some 5) none), .step (.insert "y" 2 none none),
        .step (.insert "y" 3 none none), .step (.get small "y" none), .step (.wait 9),
        .step (.getOrCompute some id "x" 4 none none), .close, .step (.get some "x" none),
        .step (.invalidate "y")]
    ∃ (c : Cache Nat) (now : Nat), Use.run uses (.new settings {}) 0 = .ok (c, now) ∧
      c.stats.hits = 1 ∧ c.stats.misses = 2 ∧
      c.stats.entries + c.stats.evictions + c.stats.expirations + 1 = 3 := by
  intro settings small uses
  let account := Account.notes {} uses (.new settings {}) 0
  have houtcomes : account.outcomes = [true, false, false] := by decide +kernel
  have hmoves : (Use.run uses (.new settings {}) 0).toOption.map
      (fun r => (Memory.added r.1.settings.bound account.moves,
        Memory.removed r.1.settings.bound account.moves)) = some (3, 1) := by
    decide +kernel
  cases hrun : Use.run uses (.new settings {}) 0 with
  | error e =>
      rw [hrun] at hmoves
      cases hmoves
  | ok r =>
      obtain ⟨c, now⟩ := r
      rw [hrun] at hmoves
      obtain ⟨hadded, hremoved⟩ := Prod.mk.inj (Option.some.inj hmoves)
      obtain ⟨hhits, hmisses, -, -, hentries, -⟩ := stats_run settings {} 0 uses hrun
      refine ⟨c, now, rfl, ?_, ?_, ?_⟩
      · rw [hhits]
        exact congrArg (List.count true) houtcomes
      · rw [hmisses]
        exact congrArg (List.count false) houtcomes
      · rw [← hadded, ← hentries, hremoved]

end SymbolAtlas.Cache
