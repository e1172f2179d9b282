import SymbolAtlas.Proofs.Cache.Faults
import SymbolAtlas.Proofs.Cache.Steps

/-!
# Why a cache agrees with its ledger

The invariant relates each collection in memory and the record on disk to the deposit in the
ledger. It survives when entries are dropped from memory, since the record is still there, and
when the record is removed, since this only happens after its time.
-/

namespace SymbolAtlas.Cache

variable {V : Type} {solution : String} {l : Ledger} {c : Cache V}

/-! ## Deposits and their records -/

namespace Deposit

variable {d : Deposit}

theorem tidied (d : Deposit) (solution : String) :
    ∃ found, d.collected.toJson.tidy? = some (d.record solution).value ∧
      Collection.ofJson? (d.record solution).value = some found ∧ found.Equiv d.collected := by
  obtain ⟨t, found, ht, hdecode, hequiv⟩ := d.collected.decodes .tidied
  rw [Json.along] at ht
  have hvalue : (d.record solution).value = t := by
    unfold record
    rw [ht]
    rfl
  rw [hvalue]
  exact ⟨found, ht, hdecode, hequiv⟩

theorem tidy?_record_value (d : Deposit) (solution : String) :
    (d.record solution).value.tidy? = some (d.record solution).value := by
  obtain ⟨-, ht, -, -⟩ := d.tidied solution
  exact Json.tidy?_of_tidied ht

theorem fits_record_value (d : Deposit) (solution : String) :
    Json.Fits 126 (d.record solution).value := by
  obtain ⟨-, ht, -, -⟩ := d.tidied solution
  exact Json.fits_of_tidied (d.collected.fits 119) ht

/-- At the moments of the clock a record counts as long as its deposit, although it cannot name
every moment until which the deposit counts. -/
theorem expiry_lt_iff {stored ttl now : Nat} (httl : ttl < 2 ^ 64) (hnow : now < 2 ^ 64) :
    Record.expiry stored ttl < now ↔ stored + ttl < now := by
  have hmod : ttl % UInt64.size = ttl := Nat.mod_eq_of_lt httl
  unfold Record.expiry Record.latest
  rw [hmod]
  unfold UInt64.size
  omega

theorem expiry_lt (stored ttl : Nat) : Record.expiry stored ttl < 2 ^ 64 := by
  unfold Record.expiry Record.latest UInt64.size
  omega

theorem isExpired_record (solution : String) (httl : d.ttl < 2 ^ 64) {now : Nat}
    (hnow : now < 2 ^ 64) :
    (d.record solution).isExpired now = d.isPast now := by
  have hiff : (Record.expiry d.stored d.ttl < now) = (d.stored + d.ttl < now) :=
    propext (expiry_lt_iff httl hnow)
  unfold Record.isExpired isPast record
  simp only [hiff]

/-- A collection that is read from the record is the one that was stored. -/
theorem equiv_of_collection? {now : Nat} {version : Option String} {found : Collection}
    (h : (d.record solution).collection? now version = some found) :
    found.Equiv d.collected := by
  obtain ⟨read, -, hdecode, hequiv⟩ := d.tidied solution
  unfold Record.collection? at h
  rw [hdecode] at h
  split at h
  · exact absurd h (by simp)
  · obtain rfl := Option.some.inj h
    exact hequiv

/-- What is read from the record is what is to be answered. -/
theorem collection?_record (httl : d.ttl < 2 ^ 64) {now : Nat} (hnow : now < 2 ^ 64)
    (version : Option String) :
    Option.Rel Collection.Equiv ((d.record solution).collection? now version)
      (d.answer now version) := by
  obtain ⟨found, -, hdecode, hequiv⟩ := d.tidied solution
  unfold Record.collection?
  rw [answer_eq, isExpired_record solution httl hnow, hdecode]
  show Option.Rel Collection.Equiv
    (if d.isPast now || !versionsAgree d.version version then none else some found) _
  split
  · exact .none
  · exact .some hequiv

end Deposit

/-! ## The invariant -/

/-- A collection in memory is the one of the deposit and counts as long. -/
structure Backed (d : Deposit) (e : Entry (Item V)) (found : Collection) : Prop where
  collected : found.Equiv d.collected
  version : e.version = d.version
  expires : ∀ now < 2 ^ 64, e.isExpired now = d.isPast now

/-- The file of the solution holds the record of the deposit. It may be gone once the deposit
counts no longer. -/
def OnDisk (solution : String) (l : Ledger) (d : Disk) : Prop :=
  match l.deposit with
  | none => d.held? (collectionKey solution) = none
  | some deposit => d.held? (collectionKey solution) = some (deposit.record solution) ∨
      d.held? (collectionKey solution) = none ∧ deposit.isPast l.now = true

/-- Every collection in memory under the key of the solution is backed by the deposit. -/
def InMemory (solution : String) (l : Ledger) (entries : List (Entry (Item V))) : Prop :=
  ∀ e ∈ entries, e.key = collectionKey solution → ∀ found, e.value = .collection found →
    ∃ d, l.deposit = some d ∧ Backed d e found

/-- A cache answers as its ledger says. -/
structure Coherent (solution : String) (l : Ledger) (c : Cache V) : Prop where
  durable : c.durable = true
  usable : c.disk.Usable
  defaultTtl : c.settings.defaultTtl = l.ttl
  ttl : l.ttl < 2 ^ 64
  depositTtl : ∀ d, l.deposit = some d → d.ttl < 2 ^ 64
  disk : OnDisk solution l c.disk
  memory : InMemory solution l c.memory.entries
  /-- Where no entry may be held there is none that a stored one could fail to replace. -/
  bound : c.settings.maxEntries = 0 → c.memory.entries = []

namespace Coherent

/-- Entries may be dropped from memory at any time. -/
theorem shrink (h : Coherent solution l c) {c' : Cache V} (hsettings : c'.settings = c.settings)
    (hdurable : c'.durable = c.durable) (hdisk : c'.disk = c.disk)
    (hmemory : ∀ e ∈ c'.memory.entries, e ∈ c.memory.entries) : Coherent solution l c' where
  durable := hdurable ▸ h.durable
  usable := hdisk ▸ h.usable
  defaultTtl := hsettings ▸ h.defaultTtl
  ttl := h.ttl
  depositTtl := h.depositTtl
  disk := hdisk ▸ h.disk
  memory := fun e he => h.memory e (hmemory e he)
  bound := by
    intro hzero
    rw [hsettings] at hzero
    have hempty := h.bound hzero
    apply List.eq_nil_iff_forall_not_mem.2
    intro e he
    have hin := hmemory e he
    rw [hempty] at hin
    exact List.not_mem_nil hin

/-- An entry may be stored that is none of the solution's or is backed. -/
theorem store (h : Coherent solution l c) {e : Entry (Item V)}
    (he : e.key = collectionKey solution → ∀ found, e.value = .collection found →
      ∃ d, l.deposit = some d ∧ Backed d e found) :
    Coherent solution l { c with memory := c.memory.store c.settings.bound e } where
  durable := h.durable
  usable := h.usable
  defaultTtl := h.defaultTtl
  ttl := h.ttl
  depositTtl := h.depositTtl
  disk := h.disk
  memory := by
    intro f hf
    rcases Memory.mem_of_mem_store hf with rfl | ⟨hf, -⟩
    · exact he
    · exact h.memory f hf
  bound := by
    intro hzero
    rw [show _ = _ from Memory.entries_store_of_zero hzero]
    exact h.bound hzero

end Coherent

/-! ## Values of the callers -/

section Values

variable {α ε : Type} {now : Nat} {key : String}

namespace Coherent

theorem count (h : Coherent solution l c) (found : Option α) :
    Coherent solution l (c.count found) :=
  h.shrink (count_settings c found) (count_durable c found) (count_disk c found)
    (by rw [count_memory]; exact fun _ he => he)

/-- Looking up may drop an entry that counts no longer. -/
theorem lookup (h : Coherent solution l c) (now : Nat) (key : String) (version : Option String) :
    Coherent solution l { c with memory := (c.memory.lookup now key version).2 } :=
  h.shrink rfl rfl rfl fun _ he => Memory.mem_of_mem_lookup he

theorem insert (h : Coherent solution l c) {v : V} {ttl : Option Nat} {version : Option String}
    {c' : Cache V} (hc : c.insert now key v ttl version = .ok c') : Coherent solution l c' := by
  rcases keep_cases hc with ⟨-, rfl⟩ | ⟨-, rfl⟩
  · exact h
  · apply h.store
    intro _ found hfound
    exact absurd hfound (by simp)

theorem get (h : Coherent solution l c) (read : V → Option α) (now : Nat) (key : String)
    (version : Option String) : Coherent solution l (c.get read now key version).2 :=
  (h.lookup now key version).count _

end Coherent

end Values

/-! ## Collections -/

section Collections

variable {d d' : Disk}

theorem onDisk_eq (h : c.durable = true) (f : Disk → Disk) :
    c.onDisk f = { c with disk := f c.disk } := by
  unfold onDisk
  rw [if_pos h]

theorem withMemory_onDisk (h : c.durable = true) (memory : Memory (Item V)) (f : Disk → Disk) :
    Cache.onDisk { c with memory } f = { c with memory, disk := f c.disk } := by
  unfold onDisk
  exact if_pos h

theorem OnDisk.congr (h : OnDisk solution l d)
    (heq : d'.held? (collectionKey solution) = d.held? (collectionKey solution)) :
    OnDisk solution l d' := by
  unfold OnDisk at h ⊢
  rw [heq]
  exact h

/-- What is past stays past. -/
theorem OnDisk.later (h : OnDisk solution l d) (span : Nat) :
    OnDisk solution { l with now := l.now + span } d := by
  unfold OnDisk at h ⊢
  cases hdeposit : l.deposit with
  | none =>
      simp only [hdeposit] at h ⊢
      exact h
  | some deposit =>
      simp only [hdeposit] at h ⊢
      rcases h with h | ⟨hnone, hpast⟩
      · exact Or.inl h
      · refine Or.inr ⟨hnone, ?_⟩
        unfold Deposit.isPast at hpast ⊢
        rw [decide_eq_true_eq] at hpast ⊢
        omega

/-- A deposit backs what is stored for it and what is taken from its record into memory. -/
theorem backed_of_record {deposit : Deposit} (httl : deposit.ttl < 2 ^ 64) {found : Collection}
    (hfound : found.Equiv deposit.collected) :
    Backed (V := V) deposit
      { key := collectionKey solution, value := .collection found
        expires := (deposit.record solution).expires
        version := (deposit.record solution).version } found where
  collected := hfound
  version := rfl
  expires := fun _ hnow => deposit.isExpired_record solution httl hnow

namespace Coherent

theorem withDisk (h : Coherent solution l c) (husable : d.Usable) (hdisk : OnDisk solution l d) :
    Coherent solution l { c with disk := d } :=
  { h with usable := husable, disk := hdisk }

/-- A deposit takes the place of what was stored for the solution before. -/
theorem deposit (h : Coherent solution l c) (hnow : l.now < 2 ^ 64) {collected : Collection}
    {version : Option String} {memory : Memory (Item V)}
    (hmemory : InMemory solution { l with deposit := some ⟨collected, l.now, l.ttl, version⟩ }
      memory.entries)
    (hbound : c.settings.maxEntries = 0 → memory.entries = []) :
    Coherent solution { l with deposit := some ⟨collected, l.now, l.ttl, version⟩ }
      { c with
        memory
        disk := c.disk.writeRecord
          (Deposit.record ⟨collected, l.now, l.ttl, version⟩ solution) } where
  durable := h.durable
  usable := Disk.usable_writeRecord h.usable _
  defaultTtl := h.defaultTtl
  ttl := h.ttl
  depositTtl := by
    rintro d hd
    obtain rfl := Option.some.inj hd
    exact h.ttl
  disk := Or.inl (Disk.held?_writeRecord h.usable (Deposit.tidy?_record_value _ solution)
    (Deposit.fits_record_value _ solution) hnow (Deposit.expiry_lt _ _))
  memory := hmemory
  bound := hbound

theorem putCollection (h : Coherent solution l c) (hnow : l.now < 2 ^ 64)
    {collected : Collection} {version : Option String} {c' : Cache V}
    (hc : c.putCollection l.now solution collected version = .ok c') :
    Coherent solution { l with deposit := some ⟨collected, l.now, l.ttl, version⟩ } c' := by
  obtain ⟨kept, hkept, rfl⟩ := of_map_eq_ok hc
  rcases keep_cases hkept with ⟨hzero, rfl⟩ | ⟨hne, rfl⟩
  · have hempty := h.bound hzero
    rw [onDisk_eq h.durable, h.defaultTtl]
    apply h.deposit hnow _ h.bound
    rw [hempty]
    exact fun _ he => absurd he List.not_mem_nil
  · rw [withMemory_onDisk h.durable, h.defaultTtl]
    apply h.deposit hnow
    · intro e he hkey found hfound
      rcases Memory.mem_of_mem_store he with rfl | ⟨-, hother⟩
      · refine ⟨_, rfl, ?_, rfl, fun _ _ => rfl⟩
        obtain rfl := Item.collection.inj hfound
        exact .refl _
      · exact absurd hkey (hother hne)
    · exact fun hzero => absurd hzero hne

/-- What is stored for another solution is written to another file. -/
theorem putCollection_ne (h : Coherent solution l c) {other : String} {now : Nat}
    (hother : Record.fileName (collectionKey other) ≠ Record.fileName (collectionKey solution))
    {collected : Collection} {version : Option String} {c' : Cache V}
    (hc : c.putCollection now other collected version = .ok c') : Coherent solution l c' := by
  obtain ⟨kept, hkept, rfl⟩ := of_map_eq_ok hc
  have hkeep : Coherent solution l kept := by
    rcases keep_cases hkept with ⟨-, rfl⟩ | ⟨-, rfl⟩
    · exact h
    · apply h.store
      intro hkey
      exact absurd (congrArg Record.fileName hkey) hother
  rw [onDisk_eq hkeep.durable]
  apply hkeep.withDisk (Disk.usable_writeRecord hkeep.usable _)
  exact hkeep.disk.congr (Disk.held?_writeRecord_ne hkeep.usable hother)

/-- Without a deposit there is neither a record nor a collection in memory. -/
theorem forget (h : Coherent solution l c) {memory : Memory (Item V)} (husable : d.Usable)
    (hdisk : d.held? (collectionKey solution) = none)
    (hmemory : ∀ e ∈ memory.entries, e ∈ c.memory.entries ∧ e.key ≠ collectionKey solution) :
    Coherent solution { l with deposit := none } { c with memory, disk := d } where
  durable := h.durable
  usable := husable
  defaultTtl := h.defaultTtl
  ttl := h.ttl
  depositTtl := fun d hd => absurd hd (by simp)
  disk := hdisk
  memory := fun e he hkey => absurd hkey (hmemory e he).2
  bound := by
    intro hzero
    have hempty := h.bound hzero
    apply List.eq_nil_iff_forall_not_mem.2
    intro e he
    have hin := (hmemory e he).1
    rw [hempty] at hin
    exact List.not_mem_nil hin

theorem invalidate (h : Coherent solution l c) :
    Coherent solution { l with deposit := none } (c.invalidate (collectionKey solution)) := by
  unfold Cache.invalidate
  rw [withMemory_onDisk h.durable]
  apply h.forget (Disk.usable_removeRecord h.usable _) (Disk.held?_removeRecord h.usable _)
  exact fun e he => Memory.mem_erase.1 he

theorem invalidate_ne (h : Coherent solution l c) {key : String}
    (hother : Record.fileName key ≠ Record.fileName (collectionKey solution)) :
    Coherent solution l (c.invalidate key) := by
  unfold Cache.invalidate
  rw [withMemory_onDisk h.durable]
  have herase : Coherent solution l { c with memory := c.memory.erase key } :=
    h.shrink rfl rfl rfl fun e he => (Memory.mem_erase.1 he).1
  apply herase.withDisk (Disk.usable_removeRecord h.usable _)
  exact h.disk.congr (Disk.held?_removeRecord_ne h.usable hother)

theorem clear (h : Coherent solution l c) :
    Coherent solution { l with deposit := none } c.clear := by
  unfold Cache.clear
  rw [withMemory_onDisk h.durable]
  apply h.forget (Disk.usable_clear h.usable) (Disk.held?_clear h.usable _)
  exact fun e he => absurd he List.not_mem_nil

/-! ## Upkeep -/

theorem purge (h : Coherent solution l c) (now : Nat) : Coherent solution l (c.purge now).2 :=
  h.shrink rfl rfl rfl fun _ he => Memory.mem_of_mem_purge he

/-- Whenever the cleanup runs, it only drops entries. -/
theorem elapse (h : Coherent solution l c) (start stop : Nat) :
    Coherent solution l (c.elapse start stop) := by
  unfold Cache.elapse
  split
  · exact h
  · exact (h.purge _).shrink rfl rfl rfl fun _ he => he
  · exact (h.purge _).shrink rfl rfl rfl fun _ he => he

theorem wait (h : Coherent solution l c) (span : Nat) :
    Coherent solution { l with now := l.now + span } (c.elapse l.now (l.now + span)) := by
  have helapse := h.elapse l.now (l.now + span)
  exact { helapse with disk := helapse.disk.later span }

theorem create?_of_usable (h : d.Usable) : d.create? = some d := by
  obtain ⟨nodes, hsite⟩ := h.directory
  unfold Disk.create?
  rw [hsite]

/-- A new cache begins with what its directory holds. -/
theorem new {settings : Settings} (hsettings : settings.Durable) {opened : Disk}
    (hopen : d.create? = some opened) (husable : opened.Usable)
    (hdisk : OnDisk solution { l with ttl := settings.defaultTtl } opened)
    (hdeposit : ∀ d, l.deposit = some d → d.ttl < 2 ^ 64) :
    Coherent solution { l with ttl := settings.defaultTtl } (Cache.new settings d : Cache V) := by
  obtain ⟨directory, hdirectory⟩ := Option.isSome_iff_exists.1 hsettings.directory
  have hnew : (Cache.new settings d : Cache V) =
      { settings, disk := opened, durable := true
        cleanup := if settings.cleanupInterval = 0 then .off else .waiting } := by
    unfold Cache.new
    rw [hdirectory, hopen]
  rw [hnew]
  exact {
    durable := rfl
    usable := husable
    defaultTtl := rfl
    ttl := hsettings.ttl
    depositTtl := hdeposit
    disk := hdisk
    memory := fun e he => absurd he List.not_mem_nil
    bound := fun _ => rfl }

theorem reopen (h : Coherent solution l c) {settings : Settings} (hsettings : settings.Durable) :
    Coherent solution { l with ttl := settings.defaultTtl } (Cache.new settings c.disk : Cache V) :=
  new hsettings (create?_of_usable h.usable) h.usable h.disk h.depositTtl

end Coherent

end Collections

/-! ## Looking up collections -/

section Lookup

variable {other : String} {now : Nat} {version : Option String}

/-- What is found on disk is what the record holds, unless the access fails. -/
theorem promote_found (c : Cache V) (now : Nat) (solution : String) (version : Option String) :
    (c.promote now solution version).1 =
      if c.durable = true ∧ c.disk.access.1 = false then
        (c.disk.held? (collectionKey solution)).bind fun r => r.collection? now version
      else none := by
  unfold promote
  cases c.durable with
  | false => simp
  | true =>
      simp only [Bool.not_true, Bool.false_eq_true, reduceIte, Disk.record?_eq_of_access]
      cases c.disk.access.1 with
      | true => simp
      | false =>
          simp only [Bool.false_eq_true, reduceIte]
          cases c.disk.held? (collectionKey solution) with
          | none => rfl
          | some r =>
              simp only [Option.bind_some]
              cases r.collection? now version <;> rfl

/-- What is found on disk is what the record holds, if it holds anything. -/
theorem promote_fst (hdurable : c.durable = true) (husable : c.disk.Usable) :
    (c.promote now solution version).1 =
      (c.disk.held? (collectionKey solution)).bind fun r => r.collection? now version := by
  rw [promote_found, if_pos ⟨hdurable, by rw [Disk.access_of_faultless husable.faultless]⟩]

/-- Looking on disk removes a record whose time is over, or takes one into memory, or changes
nothing. -/
theorem promote_cases (hdurable : c.durable = true) (husable : c.disk.Usable) :
    (c.promote now solution version).2 = c ∨
    ∃ r, c.disk.held? (collectionKey solution) = some r ∧
      (r.isExpired now = true ∧ (c.promote now solution version).2 =
          { c with disk := c.disk.removeRecord (collectionKey solution) } ∨
        ∃ found, r.collection? now version = some found ∧
          (c.promote now solution version).2 = { c with
            memory := c.memory.store c.settings.bound
              { key := collectionKey solution, value := .collection found
                expires := r.expires, version := r.version } }) := by
  have hused : ¬ (!c.durable) = true := by simp [hdurable]
  unfold promote
  rw [if_neg hused]
  simp only [Disk.record?_eq husable]
  cases c.disk.held? (collectionKey solution) with
  | none => exact Or.inl rfl
  | some r =>
      simp only
      cases hexpired : r.isExpired now with
      | true =>
          have hnone : r.collection? now version = none := by
            unfold Record.collection?
            rw [hexpired]
            rfl
          rw [hnone]
          exact Or.inr ⟨r, rfl, Or.inl ⟨hexpired, rfl⟩⟩
      | false =>
          cases hfound : r.collection? now version with
          | none => exact Or.inl rfl
          | some found => exact Or.inr ⟨r, rfl, Or.inr ⟨found, hfound, rfl⟩⟩

theorem getCollection_cases (c : Cache V) (now : Nat) (solution : String)
    (version : Option String) :
    (∃ found, (c.memory.lookup now (collectionKey solution) version).1 =
        some (.collection found) ∧
      c.getCollection now solution version = (some found, { c with
        memory := (c.memory.lookup now (collectionKey solution) version).2
        hits := c.hits + 1 })) ∨
    ∃ c' : Cache V, c' = { c with
        memory := (c.memory.lookup now (collectionKey solution) version).2 } ∧
      c.getCollection now solution version = ((c'.promote now solution version).1,
        (c'.promote now solution version).2.count (c'.promote now solution version).1) := by
  unfold getCollection
  generalize c.memory.lookup now (collectionKey solution) version = r
  obtain ⟨item, memory⟩ := r
  cases item with
  | none => exact Or.inr ⟨_, rfl, rfl⟩
  | some item =>
      cases item with
      | collection found => exact Or.inl ⟨found, rfl, rfl⟩
      | value v => exact Or.inr ⟨_, rfl, rfl⟩

namespace Coherent

theorem promote_ne (h : Coherent solution l c)
    (hother : Record.fileName (collectionKey other) ≠ Record.fileName (collectionKey solution)) :
    Coherent solution l (c.promote now other version).2 := by
  rcases promote_cases h.durable h.usable with heq | ⟨r, -, ⟨-, heq⟩ | ⟨found, -, heq⟩⟩
  · rw [heq]
    exact h
  · rw [heq]
    apply h.withDisk (Disk.usable_removeRecord h.usable _)
    exact h.disk.congr (Disk.held?_removeRecord_ne h.usable hother)
  · rw [heq]
    apply h.store
    intro hkey
    exact absurd (congrArg Record.fileName hkey) hother

/-- A record that is on disk is that of the deposit. -/
theorem of_held? (h : Coherent solution l c) {r : Record}
    (hr : c.disk.held? (collectionKey solution) = some r) :
    ∃ d, l.deposit = some d ∧ r = d.record solution := by
  have hdisk := h.disk
  unfold OnDisk at hdisk
  cases hdeposit : l.deposit with
  | none =>
      simp only [hdeposit, hr] at hdisk
      exact absurd hdisk (by simp)
  | some d =>
      simp only [hdeposit, hr] at hdisk
      rcases hdisk with heq | ⟨hnone, -⟩
      · exact ⟨d, rfl, Option.some.inj heq⟩
      · exact absurd hnone (by simp)

/-- A promoted collection counts no longer than its deposit. -/
theorem promote (h : Coherent solution l c) (hnow : l.now < 2 ^ 64) :
    Coherent solution l (c.promote l.now solution version).2 := by
  rcases promote_cases h.durable h.usable with heq | ⟨r, hr, hcase⟩
  · rw [heq]
    exact h
  · obtain ⟨d, hd, rfl⟩ := h.of_held? hr
    have httl := h.depositTtl d hd
    rcases hcase with ⟨hexpired, heq⟩ | ⟨found, hfound, heq⟩
    · rw [Deposit.isExpired_record solution httl hnow] at hexpired
      rw [heq]
      apply h.withDisk (Disk.usable_removeRecord h.usable _)
      unfold OnDisk
      rw [hd]
      exact Or.inr ⟨Disk.held?_removeRecord h.usable _, hexpired⟩
    · rw [heq]
      apply h.store
      intro _ kept hkept
      obtain rfl := Item.collection.inj hkept
      exact ⟨d, hd, backed_of_record httl (Deposit.equiv_of_collection? hfound)⟩

theorem getCollection (h : Coherent solution l c) (hnow : l.now < 2 ^ 64) :
    Coherent solution l (c.getCollection l.now solution version).2 := by
  have hlookup := h.lookup l.now (collectionKey solution) version
  rcases getCollection_cases c l.now solution version with ⟨found, -, heq⟩ | ⟨c', rfl, heq⟩
  · rw [heq]
    exact hlookup.shrink rfl rfl rfl fun _ he => he
  · rw [heq]
    exact (hlookup.promote hnow).count _

theorem getCollection_ne (h : Coherent solution l c)
    (hother : Record.fileName (collectionKey other) ≠ Record.fileName (collectionKey solution)) :
    Coherent solution l (c.getCollection now other version).2 := by
  have hlookup := h.lookup now (collectionKey other) version
  rcases getCollection_cases c now other version with ⟨found, -, heq⟩ | ⟨c', rfl, heq⟩
  · rw [heq]
    exact hlookup.shrink rfl rfl rfl fun _ he => he
  · rw [heq]
    exact (hlookup.promote_ne hother).count _

/-- What is found on disk is what the ledger says. -/
theorem promote_answers (h : Coherent solution l c) (hnow : l.now < 2 ^ 64) :
    Option.Rel Collection.Equiv (c.promote l.now solution version).1 (l.answer version) := by
  have hdisk := h.disk
  unfold OnDisk at hdisk
  unfold Ledger.answer
  rw [promote_fst h.durable h.usable]
  cases hdeposit : l.deposit with
  | none =>
      simp only [hdeposit] at hdisk
      rw [hdisk]
      exact .none
  | some d =>
      simp only [hdeposit] at hdisk
      rw [Option.bind_some]
      rcases hdisk with hheld | ⟨hheld, hpast⟩
      · rw [hheld]
        exact Deposit.collection?_record (h.depositTtl d hdeposit) hnow version
      · have hanswer : d.answer l.now version = none := by
          rw [Deposit.answer_eq, hpast]
          rfl
        rw [hheld, hanswer]
        exact .none

/-- A collection that is found in memory is what the ledger says. -/
theorem lookup_answers (h : Coherent solution l c) (hnow : l.now < 2 ^ 64) {found : Collection}
    (hfound : (c.memory.lookup l.now (collectionKey solution) version).1 =
      some (.collection found)) :
    ∃ collected, l.answer version = some collected ∧ found.Equiv collected := by
  obtain ⟨e, he, hkey, hvalue, hlive, hagree⟩ := Memory.of_lookup_eq_some hfound
  obtain ⟨d, hd, hbacked⟩ := h.memory e he hkey found hvalue
  refine ⟨d.collected, ?_, hbacked.collected⟩
  rw [hbacked.expires l.now hnow] at hlive
  rw [hbacked.version] at hagree
  unfold Ledger.answer
  rw [hd, Option.bind_some, Deposit.answer_eq, hlive, hagree]
  rfl

theorem getCollection_answers (h : Coherent solution l c) (hnow : l.now < 2 ^ 64) :
    Option.Rel Collection.Equiv (c.getCollection l.now solution version).1
      (l.answer version) := by
  rcases getCollection_cases c l.now solution version with ⟨found, hfound, heq⟩ | ⟨c', rfl, heq⟩
  · obtain ⟨collected, hanswer, hequiv⟩ := h.lookup_answers hnow hfound
    rw [heq, hanswer]
    exact .some hequiv
  · rw [heq]
    exact (h.lookup l.now (collectionKey solution) version).promote_answers hnow

end Coherent

end Lookup

end SymbolAtlas.Cache
