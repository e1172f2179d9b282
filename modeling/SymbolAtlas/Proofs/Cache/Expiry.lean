import SymbolAtlas.Config.Basic
import SymbolAtlas.Proofs.Cache.Transparency

/-!
# Until when a value counts

A collection that is stored gets its end twice. The entry in memory takes the whole span, and is
refused where the clock cannot tell the end. The record on disk takes what is left of the span in
64 bits, and ends at the latest moment it can name at the latest. The two agree for all spans that
fit into 64 bits. Of the longer ones this tells which are refused and which are cut short.
-/

namespace SymbolAtlas.Cache

variable {V : Type}

/-! ## Records and entries -/

/-- A span is not cut short in a record: it fits into 64 bits, or what is left of it reaches the
latest moment all the same. -/
def Record.Holds (now ttl : Nat) : Prop :=
  ttl ≤ latest ∨ latest ≤ now + ttl % UInt64.size

namespace Record

/-- The end of a record is the end of the span, or the latest moment if that comes first. -/
theorem expiry_eq_min_iff (now ttl : Nat) :
    expiry now ttl = min latest (now + ttl) ↔ Holds now ttl := by
  unfold expiry Holds latest UInt64.size
  omega

/-- Where a span is cut short there is a moment between its end in the record and its true end. -/
theorem forall_expiry_lt_iff (now ttl : Nat) :
    (∀ moment ≤ latest, expiry now ttl < moment → now + ttl < moment) ↔ Holds now ttl := by
  constructor
  · intro h
    by_contra hcut
    have hnext := h (expiry now ttl + 1)
    unfold Holds latest UInt64.size at hcut
    unfold expiry latest UInt64.size at hnext
    omega
  · intro hholds moment hmoment hlt
    rw [(expiry_eq_min_iff now ttl).2 hholds] at hlt
    omega

end Record

/-- Spans and moments of 64 bits are neither refused nor cut short. -/
theorem fits_of_le_latest {now ttl : Nat} (hnow : now ≤ Record.latest)
    (httl : ttl ≤ Record.latest) : now + ttl < clockLimit ∧ Record.Holds now ttl := by
  have hlimit : clockLimit = 2 ^ 63 * 1000 := rfl
  have hlatest : Record.latest = 2 ^ 64 - 1 := rfl
  exact ⟨by omega, .inl httl⟩

/-- The entry in memory of a deposit. -/
def Deposit.entry (d : Deposit) (solution : String) : Entry (Item V) where
  key := collectionKey solution
  value := .collection d.collected
  expires := d.stored + d.ttl
  version := d.version

theorem putCollection_eq {c c' : Cache V} {now : Nat} {solution : String}
    {collected : Collection} {version : Option String}
    (h : c.putCollection now solution collected version = .ok c') :
    let d : Deposit := ⟨collected, now, c.settings.defaultTtl, version⟩
    c' = ({ c with memory := c.memory.store c.settings.bound (d.entry solution) }).onDisk
      (·.writeRecord (d.record solution)) := by
  obtain ⟨kept, hkept, rfl⟩ := of_map_eq_ok h
  rw [keep_eq_store hkept]
  rfl

/-- Spans are safe as far as 64 bits reach. An operation fails exactly when it stores a value, there
may be entries at all, and the clock cannot tell the end of the value. A collection is stored as an
entry and a record. The record ends with the span, or at the latest moment it can name, exactly when
the span is not cut short in it, and then and only then it counts at every moment at which the entry
counts. None of this goes wrong with spans and moments of 64 bits. -/
theorem expiry_of_deposit_iff (c : Cache V) (now : Nat) (solution : String)
    (collected : Collection) (version : Option String) :
    let d : Deposit := ⟨collected, now, c.settings.defaultTtl, version⟩
    (∀ op : Op V, (∃ r, op.perform c now = .ok r) ↔
      (op.storesAt c now = true → c.settings.maxEntries = 0 ∨ now + op.ttl c < clockLimit)) ∧
    (∀ c', c.putCollection now solution collected version = .ok c' →
      c' = ({ c with memory := c.memory.store c.settings.bound (d.entry solution) }).onDisk
        (·.writeRecord (d.record solution))) ∧
    ((d.record solution).expires = min Record.latest (now + c.settings.defaultTtl) ↔
      Record.Holds now c.settings.defaultTtl) ∧
    ((∀ moment ≤ Record.latest, (d.record solution).isExpired moment = true →
        (d.entry solution : Entry (Item V)).isExpired moment = true) ↔
      Record.Holds now c.settings.defaultTtl) ∧
    ∀ ttl ≤ Record.latest, now ≤ Record.latest → now + ttl < clockLimit ∧ Record.Holds now ttl := by
  intro d
  refine ⟨perform_isOk_iff c now, fun c' => putCollection_eq,
    Record.expiry_eq_min_iff now c.settings.defaultTtl, ?_,
    fun ttl httl hnow => fits_of_le_latest hnow httl⟩
  rw [← Record.forall_expiry_lt_iff]
  unfold Record.isExpired Entry.isExpired
  simp only [decide_eq_true_iff]
  exact Iff.rfl

/-- Of two spans that can be configured the longest is refused, and a shorter one is cut to less
than half a second. -/
theorem expiry_of_deposit_of_long_spans :
    let settings (seconds : Nat) : Settings :=
      Config.cacheSettings { cache := { defaultTtlSeconds := seconds } } {}
    let put : Op Nat := .putCollection "s" {} none
    let d : Deposit := ⟨{}, 0, 1000 * 18446744073709552, none⟩
    (¬ ∃ r, put.perform (.new (settings (2 ^ 64 - 1)) {}) 0 = .ok r) ∧
      (∃ r, put.perform (.new (settings 18446744073709552) {}) 0 = .ok r) ∧
      (d.record "s").expires = 384 ∧
      ∃ moment ≤ Record.latest, (d.record "s").isExpired moment = true ∧
        (d.entry "s" : Entry (Item Nat)).isExpired moment = false := by
  intro settings put d
  have hlongest :=
    expiry_of_deposit_iff (.new (settings (2 ^ 64 - 1)) {} : Cache Nat) 0 "s" {} none
  have hlong :=
    expiry_of_deposit_iff (.new (settings 18446744073709552) {} : Cache Nat) 0 "s" {} none
  refine ⟨?_, ?_, by decide, ?_⟩
  · rw [hlongest.1 put]
    intro hkept
    exact absurd (hkept rfl) (by decide +kernel)
  · rw [hlong.1 put]
    intro _
    decide +kernel
  · have hcut : ¬ Record.Holds 0 (1000 * 18446744073709552) := by
      unfold Record.Holds
      decide
    by_contra hnone
    refine hcut (hlong.2.2.2.1.1 fun moment hmoment hexpired => ?_)
    by_contra hcounts
    exact hnone ⟨moment, hmoment, hexpired, Bool.eq_false_iff.2 hcounts⟩

end SymbolAtlas.Cache
