import SymbolAtlas.Proofs.Cache.Transparency

/-!
# Which entries make room

The memory tier never holds more entries than there may be, and the entries that make room for a
new one are those that were stored the longest ago. The moment of a store is its number in the
history of the memory tier, which is told without a look at the order in which entries are kept.
-/

namespace SymbolAtlas.Cache

variable {V : Type}

/-! ## Histories -/

/-- What can be done with the memory tier. -/
inductive Move (V : Type) where
  | store (e : Entry V)
  | lookup (now : Nat) (key : String) (version : Option String)
  | erase (key : String)
  | clear
  | purge (now : Nat)

namespace Move

def perform (b : Bound) (m : Memory V) : Move V → Memory V
  | .store e => m.store b e
  | .lookup now key version => (m.lookup now key version).2
  | .erase key => m.erase key
  | .clear => m.clear
  | .purge now => (m.purge now).2

/-- Whether an entry of a key is stored. -/
def stores (key : String) : Move V → Bool
  | .store e => e.key == key
  | _ => false

end Move

/-- When a key was last stored: how many moves there had been by then, this one included. The latest
move stands first in a history. -/
def lastStore (key : String) : List (Move V) → Nat
  | [] => 0
  | move :: earlier => if move.stores key then earlier.length + 1 else lastStore key earlier

theorem lastStore_le (key : String) (history : List (Move V)) :
    lastStore key history ≤ history.length := by
  induction history with
  | nil => exact Nat.le_refl _
  | cons move earlier ih =>
      rw [lastStore, List.length_cons]
      split <;> omega

theorem lastStore_store (e : Entry V) (history : List (Move V)) :
    lastStore e.key (.store e :: history) = history.length + 1 := by
  simp [lastStore, Move.stores]

theorem lastStore_store_ne {e : Entry V} {key : String} (hkey : key ≠ e.key)
    (history : List (Move V)) : lastStore key (.store e :: history) = lastStore key history := by
  simp [lastStore, Move.stores, hkey.symm]

namespace Memory

/-- The memory tier after a history. -/
def after (b : Bound) : List (Move V) → Memory V
  | [] => {}
  | move :: earlier => move.perform b (after b earlier)

/-- The entries of other keys that are gone after an entry was stored. -/
def evicted (b : Bound) (m : Memory V) (e : Entry V) : List (Entry V) :=
  m.entries.filter fun f => f.key != e.key && ((m.store b e).find? f.key).isNone

variable {b : Bound} {m : Memory V} {e : Entry V} {history : List (Move V)}

/-! ## The order of the entries -/

/-- There are not too many entries, and they stand in the order in which they were stored. -/
structure Aged (b : Bound) (history : List (Move V)) (m : Memory V) : Prop where
  size : m.size ≤ b.maxEntries
  sorted : m.entries.Pairwise fun f g => lastStore f.key history < lastStore g.key history

/-- Whatever is not a store only drops entries, and none of them to make room. -/
theorem perform_of_ne_store {move : Move V} (h : ∀ e, move ≠ .store e) :
    (move.perform b m).entries.Sublist m.entries ∧
      (move.perform b m).evictions = m.evictions := by
  cases move with
  | store e => exact absurd rfl (h e)
  | lookup now key version =>
      rw [Move.perform]
      rcases m.lookup_cases now key version with heq | heq
      · rw [heq]
        exact ⟨.refl _, rfl⟩
      · rw [heq]
        exact ⟨List.filter_sublist, rfl⟩
  | erase key => exact ⟨List.filter_sublist, rfl⟩
  | clear => exact ⟨List.nil_sublist _, rfl⟩
  | purge now => exact ⟨List.filter_sublist, rfl⟩

namespace Aged

theorem other (h : m.Aged b history) {move : Move V} (hmove : ∀ e, move ≠ .store e) :
    (move.perform b m).Aged b (move :: history) where
  size := Nat.le_trans (perform_of_ne_store hmove).1.length_le h.size
  sorted := by
    have hsame : ∀ key, lastStore key (move :: history) = lastStore key history := by
      intro key
      cases move with
      | store e => exact absurd rfl (hmove e)
      | _ => rfl
    simp only [hsame]
    exact h.sorted.sublist (perform_of_ne_store hmove).1

theorem store (h : m.Aged b history) (e : Entry V) :
    (m.store b e).Aged b (.store e :: history) := by
  by_cases hmax : b.maxEntries = 0
  · have hnone : m.entries = [] :=
      List.eq_nil_of_length_eq_zero (Nat.le_zero.1 (hmax ▸ h.size))
    have hstored := entries_store_of_zero (m := m) (e := e) hmax
    rw [hnone] at hstored
    constructor
    · unfold Memory.size
      rw [hstored]
      exact Nat.zero_le _
    · rw [hstored]
      exact .nil
  · have hroom := b.length_room_lt hmax h.size fun f => f.key != e.key
    constructor
    · unfold Memory.size
      rw [entries_store hmax, isNone_find?, List.length_append, List.length_singleton]
      exact hroom
    · have hrest : List.Sublist ((if (m.find? e.key).isNone ∧ b.maxEntries ≤ m.size then
          m.entries.drop (b.victims m.size) else m.entries).filter fun f => f.key != e.key)
            m.entries := by
        refine List.filter_sublist.trans ?_
        split
        · exact List.drop_sublist _ _
        · exact List.Sublist.refl _
      rw [entries_store hmax, List.pairwise_append]
      refine ⟨?_, List.pairwise_singleton _ _, ?_⟩
      · refine (h.sorted.sublist hrest).imp_of_mem fun {f g} hf hg hlt => ?_
        have hfkey : f.key ≠ e.key := bne_iff_ne.1 (List.mem_filter.1 hf).2
        have hgkey : g.key ≠ e.key := bne_iff_ne.1 (List.mem_filter.1 hg).2
        rw [lastStore_store_ne hfkey, lastStore_store_ne hgkey]
        exact hlt
      · intro f hf g hg
        have hfkey : f.key ≠ e.key := bne_iff_ne.1 (List.mem_filter.1 hf).2
        have hle := lastStore_le f.key history
        rw [List.mem_singleton.1 hg, lastStore_store, lastStore_store_ne hfkey]
        omega

theorem after (b : Bound) (history : List (Move V)) : (Memory.after b history).Aged b history := by
  induction history with
  | nil => exact ⟨Nat.zero_le _, .nil⟩
  | cons move earlier ih =>
      cases move with
      | store e => exact ih.store e
      | _ => exact ih.other fun e heq => by cases heq

theorem nodup (h : m.Aged b history) : (m.entries.map Entry.key).Nodup := by
  rw [List.Nodup, List.pairwise_map]
  refine h.sorted.imp fun hlt heq => ?_
  rw [heq] at hlt
  exact Nat.lt_irrefl _ hlt

end Aged

/-! ## What is evicted -/

/-- How many of the oldest entries go when an entry is stored. -/
def makesWay (b : Bound) (m : Memory V) (e : Entry V) : Nat :=
  if (m.find? e.key).isNone ∧ b.maxEntries ≤ m.size then b.victims m.size else 0

theorem entries_store_eq (hmax : b.maxEntries ≠ 0) : (m.store b e).entries =
    (m.entries.drop (m.makesWay b e)).filter (fun f => f.key != e.key) ++ [e] := by
  rw [entries_store hmax, makesWay]
  split <;> rfl

theorem find?_store (hmax : b.maxEntries ≠ 0) : (m.store b e).find? e.key = some e := by
  have hnone : ((m.entries.drop (m.makesWay b e)).filter fun f => f.key != e.key).find?
      (fun f => f.key == e.key) = none := by
    rw [List.find?_eq_none]
    intro f hf heq
    exact bne_iff_ne.1 (List.mem_filter.1 hf).2 (eq_of_beq heq)
  unfold find?
  rw [entries_store_eq hmax, List.find?_append, hnone]
  simp

/-- An entry is still there unless it made way or had the key. -/
theorem isSome_find?_store (hmax : b.maxEntries ≠ 0) {f : Entry V}
    (hf : f ∈ m.entries.drop (m.makesWay b e)) (hkey : f.key ≠ e.key) :
    ((m.store b e).find? f.key).isSome := by
  unfold find?
  rw [List.find?_isSome, entries_store_eq hmax]
  exact ⟨f, List.mem_append_left _ (List.mem_filter.2 ⟨hf, bne_iff_ne.2 hkey⟩), by simp⟩

/-- An entry that made way had another key, and nothing is found under it. -/
theorem Aged.find?_store_of_mem_take (h : m.Aged b history) (hmax : b.maxEntries ≠ 0)
    {f : Entry V} (hf : f ∈ m.entries.take (m.makesWay b e)) :
    f.key ≠ e.key ∧ (m.store b e).find? f.key = none := by
  have hfull : (m.find? e.key).isNone := by
    by_contra hfound
    rw [makesWay, if_neg fun hroom => hfound hroom.1] at hf
    simp at hf
  have hkey : f.key ≠ e.key := by
    rw [isNone_find?, List.all_eq_true] at hfull
    exact bne_iff_ne.1 (hfull f (List.mem_of_mem_take hf))
  refine ⟨hkey, ?_⟩
  have hdisjoint := h.nodup
  rw [← List.take_append_drop (m.makesWay b e) m.entries, List.map_append,
    List.nodup_append] at hdisjoint
  unfold find?
  rw [List.find?_eq_none, entries_store_eq hmax]
  intro g hg heq
  rcases List.mem_append.1 hg with hg | hg
  · exact hdisjoint.2.2 f.key (List.mem_map_of_mem hf) g.key
      (List.mem_map_of_mem (List.mem_filter.1 hg).1) (eq_of_beq heq).symm
  · rw [List.mem_singleton.1 hg] at heq
    exact hkey (eq_of_beq heq).symm

/-- The entries that go are the oldest ones. -/
theorem Aged.evicted_eq_take (h : m.Aged b history) (e : Entry V) :
    m.evicted b e = m.entries.take (m.makesWay b e) := by
  by_cases hmax : b.maxEntries = 0
  · have hnone : m.entries = [] :=
      List.eq_nil_of_length_eq_zero (Nat.le_zero.1 (hmax ▸ h.size))
    simp [evicted, hnone]
  · unfold evicted
    conv_lhs => rw [← List.take_append_drop (m.makesWay b e) m.entries]
    rw [List.filter_append, List.filter_eq_self.2, List.filter_eq_nil_iff.2, List.append_nil]
    · intro f hf hgone
      rw [Bool.and_eq_true, bne_iff_ne, Option.isNone_iff_eq_none] at hgone
      have hkept := isSome_find?_store hmax hf hgone.1
      rw [hgone.2] at hkept
      exact absurd hkept (by simp)
    · intro f hf
      obtain ⟨hkey, hgone⟩ := h.find?_store_of_mem_take hmax hf
      simp [hkey, hgone]

theorem makesWay_eq_zero (h : (m.find? e.key).isSome) : m.makesWay b e = 0 := by
  unfold makesWay
  rw [if_neg]
  rintro ⟨hnone, -⟩
  rw [Option.isNone_iff_eq_none.1 hnone] at h
  exact absurd h (by simp)

theorem makesWay_le (b : Bound) (m : Memory V) (e : Entry V) :
    m.makesWay b e ≤ max (max b.batch 1) (m.size + 1 - b.maxEntries) := by
  unfold makesWay Bound.victims
  split <;> omega

/-- An entry that goes was last stored before any that stays. -/
theorem Aged.lastStore_lt (h : m.Aged b history) {f g : Entry V} (hf : f ∈ m.evicted b e)
    (hg : g ∈ m.entries) (hkept : ((m.store b e).find? g.key).isSome) :
    lastStore f.key history < lastStore g.key history := by
  have hmax : b.maxEntries ≠ 0 := by
    intro hzero
    have hsize : m.entries.length ≤ b.maxEntries := h.size
    have hlength := List.length_pos_of_mem hg
    omega
  have hsorted := h.sorted
  rw [h.evicted_eq_take e] at hf
  rw [← List.take_append_drop (m.makesWay b e) m.entries] at hsorted hg
  rw [List.pairwise_append] at hsorted
  rcases List.mem_append.1 hg with hg | hg
  · rw [(h.find?_store_of_mem_take hmax hg).2] at hkept
    exact absurd hkept (by simp)
  · exact hsorted.2.2 f hf g hg

theorem Aged.evictions_store (h : m.Aged b history) (e : Entry V) :
    (m.store b e).evictions = m.evictions + (m.evicted b e).length := by
  rw [h.evicted_eq_take e, List.length_take]
  unfold Memory.store makesWay
  split
  · rename_i hzero
    have hnone : m.entries.length = 0 := Nat.le_zero.1 (hzero ▸ h.size)
    rw [hnone, Nat.min_zero, Nat.add_zero]
  · unfold makeRoom
    split
    · rfl
    · rw [Nat.zero_min]
      rfl

/-- What storing an entry does after some history. -/
structure EvictsOldest (b : Bound) (history : List (Move V)) (e : Entry V) : Prop where
  bounded : (after b history).size ≤ b.maxEntries
  /-- The entry is there afterwards. -/
  stored : 0 < b.maxEntries → ((after b history).store b e).find? e.key = some e
  /-- A new value of a key takes the place of the old one. -/
  replaced : ((after b history).find? e.key).isSome → (after b history).evicted b e = []
  /-- What goes was last stored before anything that stays. -/
  oldest : ∀ f ∈ (after b history).evicted b e, ∀ g ∈ (after b history).entries,
    (((after b history).store b e).find? g.key).isSome →
      lastStore f.key history < lastStore g.key history
  /-- No more entries go than a batch, or one, or as many as it takes for the new one to fit. -/
  few : ((after b history).evicted b e).length ≤
    max (max b.batch 1) ((after b history).size + 1 - b.maxEntries)
  counted : ((after b history).store b e).evictions =
    (after b history).evictions + ((after b history).evicted b e).length

theorem evictsOldest (b : Bound) (history : List (Move V)) (e : Entry V) :
    EvictsOldest b history e where
  bounded := (Aged.after b history).size
  stored := fun hpos => find?_store (Nat.ne_of_gt hpos)
  replaced := by
    intro hfound
    rw [(Aged.after b history).evicted_eq_take e, makesWay_eq_zero hfound, List.take_zero]
  oldest := fun _ hf _ hg hkept => (Aged.after b history).lastStore_lt hf hg hkept
  few := by
    rw [(Aged.after b history).evicted_eq_take e]
    exact Nat.le_trans (List.length_take_le _ _) (makesWay_le _ _ _)
  counted := (Aged.after b history).evictions_store e

end Memory

/-! ## Caches -/

/-- The last moment of a span at which the cleanup runs. -/
def cleanedAt? (c : Cache V) (start stop : Nat) : Option Nat :=
  let last (began : Nat) : Nat :=
    began + (stop - 1 - began) / c.settings.cleanupInterval * c.settings.cleanupInterval
  match c.cleanup with
  | .off => none
  | .waiting => some (last start)
  | .since began => some (last began)

/-- The entry of a value that is stored for a while. -/
def valueEntry (c : Cache V) (now : Nat) (key : String) (v : V) (ttl : Option Nat)
    (version : Option String) : Entry (Item V) where
  key
  value := .value v
  expires := now + ttl.getD c.settings.defaultTtl
  version

/-- The entry that is made of a record on disk when a collection is asked for. -/
def promoted? (c : Cache V) (now : Nat) (solution : String) (version : Option String) :
    Option (Entry (Item V)) :=
  if c.durable then
    (c.disk.record? (collectionKey solution)).1.bind fun r =>
      (r.collection? now version).map fun collected =>
        { key := collectionKey solution, value := .collection collected
          expires := r.expires, version := r.version }
  else none

namespace Op

/-- What an operation does to the memory tier, the last move first. -/
def moves (c : Cache V) (now : Nat) : Op V → List (Move (Item V))
  | .insert key v ttl version => [.store (valueEntry c now key v ttl version)]
  | .get _ key version => [.lookup now key version]
  | .getOrTry read write key load ttl version =>
    match (c.get read now key version).1 with
    | some _ => [.lookup now key version]
    | none =>
      match load with
      | .error _ => [.lookup now key version]
      | .ok a => [.store (valueEntry c now key (write a) ttl version), .lookup now key version]
  | .getOrCompute read write key a ttl version =>
    match (c.get read now key version).1 with
    | some _ => [.lookup now key version]
    | none => [.store (valueEntry c now key (write a) ttl version), .lookup now key version]
  | .putCollection solution collected version =>
    [.store { key := collectionKey solution, value := .collection collected
              expires := now + c.settings.defaultTtl, version }]
  | .getCollection solution version =>
    match (c.memory.lookup now (collectionKey solution) version).1 with
    | some (.collection _) => [.lookup now (collectionKey solution) version]
    | _ =>
      ((promoted? c now solution version).map Move.store).toList ++
        [.lookup now (collectionKey solution) version]
  | .invalidate key => [.erase key]
  | .clear => [.clear]
  | .purge => [.purge now]
  | .wait span => ((c.cleanedAt? now (now + span)).map Move.purge).toList
  | .reopen _ => []

/-- The history of the memory tier after an operation. A new cache has a memory tier of its own. -/
def extend (c : Cache V) (now : Nat) (history : List (Move (Item V))) :
    Op V → List (Move (Item V))
  | .reopen _ => []
  | op => op.moves c now ++ history

end Op

/-- The history of the memory tier after a run. -/
def history : List (Op V) → Cache V → Nat → List (Move (Item V)) → List (Move (Item V))
  | [], _, _, past => past
  | op :: ops, c, now, past =>
    match op.perform c now with
    | .error _ => past
    | .ok (c', now') => history ops c' now' (op.extend c now past)

namespace Memory

theorem after_append (b : Bound) (moves past : List (Move V)) :
    after b (moves ++ past) =
      moves.foldr (fun move m => move.perform b m) (after b past) := by
  induction moves with
  | nil => rfl
  | cons move moves ih => rw [List.cons_append, after, ih, List.foldr_cons]

end Memory

section Moves

variable {α ε : Type} {c c' : Cache V} {now : Nat} {key : String} {version : Option String}

theorem get_memory (c : Cache V) (read : V → Option α) (now : Nat) (key : String)
    (version : Option String) :
    (c.get read now key version).2.memory = (c.memory.lookup now key version).2 :=
  count_memory _ _

/-- What storing a value after a lookup does. -/
theorem insert_get_memory {read : V → Option α} {v : V} {ttl : Option Nat}
    (h : (c.get read now key version).2.insert now key v ttl version = .ok c') :
    c'.memory = (c.memory.lookup now key version).2.store c.settings.bound
      (valueEntry c now key v ttl version) := by
  have hsettings : (c.get read now key version).2.settings = c.settings := count_settings _ _
  rw [keep_eq_store h, get_memory, hsettings]
  rfl

theorem onDisk_memory (c : Cache V) (f : Disk → Disk) : (c.onDisk f).memory = c.memory := by
  unfold onDisk
  split <;> rfl

theorem promote_memory (c : Cache V) (now : Nat) (solution : String) (version : Option String) :
    (c.promote now solution version).2.memory =
      match promoted? c now solution version with
      | some e => c.memory.store c.settings.bound e
      | none => c.memory := by
  unfold promote promoted?
  cases c.durable with
  | false => rfl
  | true =>
      simp only [Bool.not_true, Bool.false_eq_true, reduceIte]
      cases hrecord : c.disk.record? (collectionKey solution) with
      | mk found disk =>
          cases found with
          | none => rfl
          | some r =>
              simp only [Option.bind_some]
              cases r.collection? now version <;> rfl

theorem getCollection_memory (c : Cache V) (now : Nat) (solution : String)
    (version : Option String) :
    (c.getCollection now solution version).2.memory =
      ((Op.getCollection solution version).moves c now).foldr
        (fun move m => move.perform c.settings.bound m) c.memory := by
  have hpromoted : ∀ memory : Memory (Item V),
      promoted? { c with memory } now solution version = promoted? c now solution version :=
    fun _ => rfl
  have hlookup : ∀ memory : Memory (Item V),
      (Cache.promote { c with memory } now solution version).2.memory =
        (((promoted? c now solution version).map Move.store).toList).foldr
          (fun move m => move.perform c.settings.bound m) memory := by
    intro memory
    rw [promote_memory, hpromoted]
    cases promoted? c now solution version <;> rfl
  rw [Op.moves]
  unfold Cache.getCollection
  rcases hfound : c.memory.lookup now (collectionKey solution) version with ⟨item, memory⟩
  have hmemory : memory = (Move.lookup now (collectionKey solution) version).perform
      c.settings.bound c.memory := by
    rw [Move.perform, hfound]
  cases item with
  | none =>
      rw [List.foldr_append, List.foldr_cons, List.foldr_nil, ← hmemory, ← hlookup]
      exact count_memory _ _
  | some item =>
      cases item with
      | collection found => exact hmemory
      | value v =>
          rw [List.foldr_append, List.foldr_cons, List.foldr_nil, ← hmemory, ← hlookup]
          exact count_memory _ _

theorem elapse_memory (c : Cache V) (start stop : Nat) :
    (c.elapse start stop).memory =
      match c.cleanedAt? start stop with
      | some moment => (c.memory.purge moment).2
      | none => c.memory := by
  unfold elapse cleanedAt?
  cases c.cleanup <;> rfl

/-- An operation does its moves, and nothing else, to the memory tier. -/
theorem memory_perform {op : Op V} (hop : ∀ settings, op ≠ .reopen settings) {now' : Nat}
    (h : op.perform c now = .ok (c', now')) :
    c'.memory =
      (op.moves c now).foldr (fun move m => move.perform c.settings.bound m) c.memory := by
  cases (performs_of_eq_ok h).2 with
  | insert hinsert =>
      rw [keep_eq_store hinsert]
      rfl
  | get read key version => exact get_memory c read now key version
  | tryFound _ _ _ hget | tryFailed _ _ _ hget | computeFound _ _ _ hget =>
      simp only [Op.moves, hget]
      exact get_memory c _ now _ _
  | tryLoaded hget hinsert | computeStored hget hinsert =>
      simp only [Op.moves, hget]
      exact insert_get_memory hinsert
  | putCollection hput =>
      obtain ⟨kept, hkept, rfl⟩ := of_map_eq_ok hput
      rw [onDisk_memory, keep_eq_store hkept]
      rfl
  | getCollection solution version => exact getCollection_memory c now solution version
  | invalidate | clear => exact onDisk_memory _ _
  | purge => rfl
  | wait span =>
      rw [elapse_memory, Op.moves]
      cases c.cleanedAt? now (now + span) <;> rfl
  | reopen settings => exact absurd rfl (hop settings)

/-- Two caches have the same settings, and both make use of the durable tier or neither does. -/
def SameUse (c' c : Cache V) : Prop := c'.settings = c.settings ∧ c'.durable = c.durable

theorem SameUse.trans {c'' : Cache V} (h : c''.SameUse c') (h' : c'.SameUse c) : c''.SameUse c :=
  ⟨h.1.trans h'.1, h.2.trans h'.2⟩

theorem sameUse_count (c : Cache V) (found : Option α) : (c.count found).SameUse c :=
  ⟨count_settings c found, count_durable c found⟩

theorem sameUse_keep {item : Item V} {ttl : Nat} (h : c.keep now key item ttl version = .ok c') :
    c'.SameUse c := by
  rw [keep_eq_store h]
  exact ⟨rfl, rfl⟩

theorem sameUse_onDisk (c : Cache V) (f : Disk → Disk) : (c.onDisk f).SameUse c := by
  unfold onDisk
  split <;> exact ⟨rfl, rfl⟩

theorem sameUse_get (c : Cache V) (read : V → Option α) (now : Nat) (key : String)
    (version : Option String) : (c.get read now key version).2.SameUse c :=
  sameUse_count _ _

theorem sameUse_promote (c : Cache V) (now : Nat) (solution : String) (version : Option String) :
    (c.promote now solution version).2.SameUse c := by
  unfold promote
  split
  · exact ⟨rfl, rfl⟩
  · dsimp only
    split
    · exact ⟨rfl, rfl⟩
    · split <;> exact ⟨rfl, rfl⟩

theorem sameUse_perform {op : Op V} (hop : ∀ settings, op ≠ .reopen settings) {now' : Nat}
    (h : op.perform c now = .ok (c', now')) : c'.SameUse c := by
  cases (performs_of_eq_ok h).2 with
  | insert hinsert => exact sameUse_keep hinsert
  | get | tryFound | tryFailed | computeFound => exact sameUse_get c _ now _ _
  | tryLoaded _ hinsert | computeStored _ hinsert =>
      exact (sameUse_keep hinsert).trans (sameUse_get c _ now _ _)
  | putCollection hput =>
      obtain ⟨kept, hkept, rfl⟩ := of_map_eq_ok hput
      exact (sameUse_onDisk _ _).trans (sameUse_keep hkept)
  | getCollection solution version =>
      rcases getCollection_cases c now solution version with ⟨found, -, heq⟩ | ⟨c', rfl, heq⟩
      · rw [heq]
        exact ⟨rfl, rfl⟩
      · rw [heq]
        exact (sameUse_count _ _).trans (sameUse_promote _ now solution version)
  | invalidate | clear => exact sameUse_onDisk _ _
  | purge => exact ⟨rfl, rfl⟩
  | wait span =>
      unfold Cache.elapse
      split <;> exact ⟨rfl, rfl⟩
  | reopen settings => exact absurd rfl (hop settings)

end Moves

/-! ## Runs -/

theorem new_memory (settings : Settings) (disk : Disk) :
    (Cache.new settings disk : Cache V).memory = {} := by
  unfold Cache.new
  cases settings.directory <;> cases disk.create? <;> rfl

/-- The memory tier of a cache is what its history tells. -/
def Recounts (past : List (Move (Item V))) (c : Cache V) : Prop :=
  c.memory = Memory.after c.settings.bound past

theorem Recounts.perform {past : List (Move (Item V))} {c c' : Cache V} {now now' : Nat}
    {op : Op V} (h : c.Recounts past) (hop : op.perform c now = .ok (c', now')) :
    c'.Recounts (op.extend c now past) := by
  by_cases hnew : ∃ settings, op = .reopen settings
  · obtain ⟨settings, rfl⟩ := hnew
    obtain ⟨rfl, rfl⟩ := Prod.mk.inj (Except.ok.inj hop)
    exact new_memory settings c.disk
  · have hsame : ∀ settings, op ≠ .reopen settings := fun settings heq => hnew ⟨settings, heq⟩
    have hextend : op.extend c now past = op.moves c now ++ past := by
      cases op with
      | reopen settings => exact absurd rfl (hsame settings)
      | _ => rfl
    unfold Recounts at h ⊢
    rw [memory_perform hsame hop, (sameUse_perform hsame hop).1, hextend, Memory.after_append, h]

theorem Recounts.run {ops : List (Op V)} {past : List (Move (Item V))} {c c' : Cache V}
    {now now' : Nat} (h : c.Recounts past) (hrun : Cache.run ops c now = .ok (c', now')) :
    c'.Recounts (history ops c now past) := by
  induction ops generalizing c now past with
  | nil =>
      obtain ⟨rfl, rfl⟩ := Prod.mk.inj (Except.ok.inj hrun)
      exact h
  | cons op ops ih =>
      cases hperform : op.perform c now with
      | error e =>
          rw [Cache.run, hperform] at hrun
          cases hrun
      | ok r =>
          rw [Cache.run, hperform] at hrun
          rw [history, hperform]
          exact ih (h.perform hperform) hrun

/-- Whatever the batch is, the memory tier holds no more entries than there may be, a stored entry
is there, a new value of a key drives out nothing, and what makes room was last stored before
anything that stays. The memory tier of a cache is at any time what such a history leaves, its
stores being those of values, of collections and of what is found on disk. -/
theorem evictsOldest_run (b : Bound) (past : List (Move (Item V))) (e : Entry (Item V))
    (settings : Settings) (disk : Disk) (start : Nat) (ops : List (Op V)) :
    Memory.EvictsOldest b past e ∧
    (∀ move : Move (Item V), (∀ f, move ≠ .store f) →
      (move.perform b (Memory.after b past)).evictions = (Memory.after b past).evictions) ∧
    ∀ (c : Cache V) (now : Nat), run ops (.new settings disk) start = .ok (c, now) →
      c.memory = Memory.after c.settings.bound (history ops (.new settings disk) start []) ∧
      c.size ≤ c.settings.maxEntries := by
  refine ⟨Memory.evictsOldest b past e, fun _ hmove => (Memory.perform_of_ne_store hmove).2, ?_⟩
  intro c now hrun
  have hnew : (Cache.new settings disk : Cache V).Recounts [] := new_memory settings disk
  have hmemory := hnew.run hrun
  refine ⟨hmemory, ?_⟩
  have haged := Memory.Aged.after c.settings.bound (history ops (.new settings disk) start [])
  rw [← hmemory] at haged
  exact haged.size

/-- Of two entries the one that was stored anew stays, though it was the first to come. -/
theorem evictsOldest_run_of_refreshed :
    let b : Bound := { maxEntries := 2, batch := 0 }
    let entry (key : String) (n : Nat) : Entry (Item Nat) :=
      { key, value := .value n, expires := 9 }
    let past : List (Move (Item Nat)) :=
      [.store (entry "x" 3), .store (entry "y" 2), .store (entry "x" 1)]
    let ops : List (Op Nat) := [.insert "x" 1 none none, .clear]
    lastStore "y" past < lastStore "x" past ∧
      ((Memory.after b past).evicted b (entry "z" 4)).length ≤ 1 ∧
      (Memory.after b past).evicted b (entry "x" 4) = [] ∧
      ∃ (c : Cache Nat) (now : Nat), run ops (.new { maxEntries := 1 } {}) 0 = .ok (c, now) ∧
        c.size ≤ c.settings.maxEntries := by
  intro b entry past ops
  have hnew := evictsOldest_run b past (entry "z" 4) { maxEntries := 1 } {} 0 ops
  have hold := evictsOldest_run b past (entry "x" 4) { maxEntries := 1 } {} 0 ops
  have hfound : ((Memory.after b past).find? "x").isSome := by decide +kernel
  refine ⟨?_, hnew.1.few, hold.1.replaced hfound, ?_⟩
  · have hgone : ((Memory.after b past).evicted b (entry "z" 4)).map Entry.key = ["y"] := by
      decide +kernel
    have hheld : (Memory.after b past).entries.map Entry.key = ["y", "x"] := by decide +kernel
    obtain ⟨y, hy, hykey⟩ := List.mem_map.1 (hgone ▸ List.mem_cons_self :
      "y" ∈ ((Memory.after b past).evicted b (entry "z" 4)).map Entry.key)
    obtain ⟨x, hx, hxkey⟩ := List.mem_map.1 (hheld ▸ by simp :
      "x" ∈ (Memory.after b past).entries.map Entry.key)
    have hkept : (((Memory.after b past).store b (entry "z" 4)).find? x.key).isSome := by
      rw [hxkey]
      decide +kernel
    have hlt := hnew.1.oldest y hy x hx hkept
    rw [hykey, hxkey] at hlt
    exact hlt
  · have hclock : 0 + (Cache.new { maxEntries := 1 } {} : Cache Nat).settings.defaultTtl <
        clockLimit := by
      decide
    have hok : ∃ r, (Op.insert "x" 1 none none).perform (Cache.new { maxEntries := 1 } {}) 0 =
        .ok r := perform_isOk hclock (by simp [Op.ownTtl?])
    obtain ⟨⟨c, now⟩, hinsert⟩ := hok
    have hrun : run ops (.new { maxEntries := 1 } {} : Cache Nat) 0 = .ok (c.clear, now) := by
      simp only [ops, run, hinsert]
      rfl
    exact ⟨c.clear, now, hrun, (hnew.2.2 c.clear now hrun).2⟩

end SymbolAtlas.Cache
