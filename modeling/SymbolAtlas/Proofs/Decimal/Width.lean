import SymbolAtlas.Proofs.Decimal.Nearest

/-!
# Floats of both widths

A finite float is its sign and its magnitude, in either width. Every float of the smaller width is
one of the greater width, and comes back when it is made narrow again.
-/

namespace SymbolAtlas.Decimal

open Float.Model (Format UnpackedFloat)
open Float.Model.UnpackedFloat

/-! ## Bits that are a float -/

theorem toNat_unpackExponent {spec : Format} (b : BitVec spec.numBits) :
    (unpackExponent b).toNat =
      b.toNat / 2 ^ spec.mantissaBitsWithoutImplicit % 2 ^ spec.exponentBits := by
  have hexponent := spec.he
  simp only [unpackExponent, BitVec.toNat_cast, BitVec.extractLsb_toNat, Nat.shiftRight_eq_div_pow]
  congr 2
  omega

theorem unpackExponent_eq_iff (spec : Format) (b : BitVec spec.numBits) :
    unpackExponent b = -1#_ ↔
      b.toNat / 2 ^ spec.mantissaBitsWithoutImplicit % 2 ^ spec.exponentBits + 1 =
        2 ^ spec.exponentBits := by
  have hpos := Nat.two_pow_pos spec.exponentBits
  rw [← BitVec.toNat_inj, toNat_unpackExponent, BitVec.neg_one_eq_allOnes, BitVec.toNat_allOnes]
  omega

theorem isFinite_unpack_iff (spec : Format) (b : BitVec spec.numBits) :
    (unpack spec b).isFinite = true ↔ unpackExponent b ≠ -1#_ := by
  simp only [unpack]
  split_ifs <;> simp_all [UnpackedFloat.isFinite]

theorem pack_unpack_of_exponent {spec : Format} {b : BitVec spec.numBits}
    (hspec : 2 ≤ spec.exponentBits) (h : unpackExponent b ≠ -1#_) : pack spec (unpack spec b) = b :=
  pack_unpack_of_valid ⟨fun h' => absurd h' h⟩ hspec

/-- Bits that are no infinity and no other word are taken apart as a finite float. -/
theorem Parts.exists_ofBits_eq_finite_iff {w : Width} {bits : Nat} :
    (∃ negative m, Parts.ofBits w bits = .finite negative m) ↔
      bits / w.unit % Nat.pow 2 w.exponent + 1 ≠ Nat.pow 2 w.exponent := by
  simp only [Parts.ofBits]
  split_ifs with hinfinite <;> simpa using hinfinite

theorem isFinite_iff (f : Float) :
    f.isFinite = true ↔ ∃ negative m, parts f = .finite negative m := by
  rw [parts, Parts.exists_ofBits_eq_finite_iff]
  exact (isFinite_unpack_iff .binary64 f.toBits.toBitVec).trans
    (not_congr (unpackExponent_eq_iff .binary64 f.toBits.toBitVec))

theorem isFinite32_iff (f : Float32) :
    f.isFinite = true ↔ ∃ negative m, parts32 f = .finite negative m := by
  rw [parts32, Parts.exists_ofBits_eq_finite_iff]
  exact (isFinite_unpack_iff .binary32 f.toBits.toBitVec).trans
    (not_congr (unpackExponent_eq_iff .binary32 f.toBits.toBitVec))

theorem double_bits : 2 * Nat.pow 2 (Width.double.fraction + Width.double.exponent) = 2 ^ 64 := by
  norm_num [Width.double]

theorem single_bits : 2 * Nat.pow 2 (Width.single.fraction + Width.single.exponent) = 2 ^ 32 := by
  norm_num [Width.single]

theorem toBitVec_toBits_ofBits (b : UInt64) :
    (Float.ofBits b).toBits.toBitVec = pack .binary64 (unpack .binary64 b.toBitVec) := rfl

/-- Bits that are taken apart as a finite float are the bits of their float. -/
theorem toBits_ofBits {b : UInt64} {negative : Bool} {m : Magnitude}
    (h : Parts.ofBits .double b.toNat = .finite negative m) : (Float.ofBits b).toBits = b := by
  have hexponent := Parts.exists_ofBits_eq_finite_iff.mp ⟨negative, m, h⟩
  rw [← UInt64.toBitVec_inj, toBitVec_toBits_ofBits]
  exact pack_unpack_of_exponent (by decide)
    ((unpackExponent_eq_iff .binary64 b.toBitVec).not.mpr hexponent)

/-- The float of a magnitude's bits is the magnitude. -/
theorem parts_ofBits {negative : Bool} {m : Magnitude} (h : Width.double.Has m) :
    parts (Float.ofBits (Width.double.signed negative (Width.double.encode m)).toUInt64) =
      .finite negative m := by
  have hparts := Width.ofBits_signed_encode negative h
  have hlt := double_bits ▸ Width.signed_lt negative h
  generalize Width.double.signed negative (Width.double.encode m) = bits at *
  have hnat : bits.toUInt64.toNat = bits := by
    rw [Nat.toUInt64_eq, UInt64.toNat_ofNat', Nat.mod_eq_of_lt hlt]
  rw [← hnat] at hparts
  rw [parts, toBits_ofBits hparts, hparts]

/-- A finite float is the float of its magnitude's bits. -/
theorem of_parts_eq_finite {f : Float} {negative : Bool} {m : Magnitude}
    (h : parts f = .finite negative m) : Width.double.Has m ∧
      f = Float.ofBits (Width.double.signed negative (Width.double.encode m)).toUInt64 := by
  obtain ⟨hm, hbits⟩ := Width.of_ofBits_eq_finite (double_bits ▸ f.toBits.toNat_lt) h
  refine ⟨hm, ?_⟩
  rw [← hbits, Nat.toUInt64_eq, UInt64.ofNat_toNat, Float.ofBits_toBits]

theorem of_parts32_eq_finite {f : Float32} {negative : Bool} {m : Magnitude}
    (h : parts32 f = .finite negative m) : Width.single.Has m ∧
      f = Float32.ofBits (Width.single.signed negative (Width.single.encode m)).toUInt32 := by
  obtain ⟨hm, hbits⟩ := Width.of_ofBits_eq_finite (single_bits ▸ f.toBits.toNat_lt) h
  refine ⟨hm, ?_⟩
  rw [← hbits, Nat.toUInt32_eq, UInt32.ofNat_toNat, Float32.ofBits_toBits]

/-! ## Widening -/

/-- The numbers of the smaller width are numbers of the greater width. -/
theorem exists_double_of_single {m : Magnitude} (h : Width.single.Has m) :
    ∃ m', Width.double.Has m' ∧ m'.value = m.value := by
  obtain ⟨hlowest, hlt, -, -, hencode⟩ := h
  simp only [Width.encode, Width.unit, Width.lowest, Width.infinity, Width.single]
    at hlowest hlt hencode
  norm_num at hlowest hlt hencode
  obtain hzero | hpos := Nat.eq_zero_or_pos m.mantissa
  · refine ⟨{ mantissa := 0, exponent := Width.double.lowest }, ?_,
      by simp [Magnitude.value, hzero]⟩
    constructor <;> decide
  -- The mantissa is moved up until it fills its place.
  have hlog_le := Nat.log2_self_le hpos.ne'
  have hlog_lt := Nat.lt_log2_self (n := m.mantissa)
  have hlog : m.mantissa.log2 < 24 := (Nat.log2_lt hpos.ne').mpr (by omega)
  obtain ⟨s, hs⟩ := Nat.exists_eq_add_of_le (show m.mantissa.log2 ≤ 52 by omega)
  have hmantissa_le : 2 ^ 52 ≤ m.mantissa * 2 ^ s := by
    rw [hs, Nat.pow_add]
    exact Nat.mul_le_mul_right _ hlog_le
  have hmantissa_lt : m.mantissa * 2 ^ s < 2 ^ 53 := by
    rw [show 53 = m.mantissa.log2 + 1 + s by omega, Nat.pow_add]
    exact Nat.mul_lt_mul_of_pos_right hlog_lt (Nat.two_pow_pos s)
  refine ⟨{
    mantissa := m.mantissa * 2 ^ s
    exponent := m.exponent - s
    nearBelow := decide (m.mantissa * 2 ^ s = Width.double.unit ∧
      m.exponent - s ≠ Width.double.lowest) }, ?_, ?_⟩
  · have hunit : Width.double.unit = 2 ^ 52 := rfl
    have hlowest' : Width.double.lowest = -1074 := rfl
    have hinfinity : Width.double.infinity = 2047 * 2 ^ 52 := rfl
    refine ⟨?_, ?_, .inl ?_, rfl, ?_⟩
    · rw [hlowest']
      dsimp only
      omega
    · rw [hunit]
      dsimp only
      omega
    · rwa [hunit]
    · have hplace : (m.exponent - s - -1074).toNat ≤ 2045 := by omega
      rw [Width.encode, hunit, hlowest', hinfinity]
      calc (m.exponent - s - -1074).toNat * 2 ^ 52 + m.mantissa * 2 ^ s
          < 2045 * 2 ^ 52 + 2 ^ 53 :=
            Nat.add_lt_add_of_le_of_lt (Nat.mul_le_mul_right _ hplace) hmantissa_lt
        _ = 2047 * 2 ^ 52 := by norm_num
  · simp only [Magnitude.value, Nat.cast_mul, Nat.cast_pow, Nat.cast_ofNat]
    rw [mul_assoc, ← zpow_natCast, ← zpow_add₀ two_ne_zero, add_sub_cancel]

theorem bits_finite {w : Width} {m m' : Magnitude} {negative : Bool} (h : w.Has m')
    (hvalue : m'.value = m.value) :
    (Parts.finite negative m).bits w = w.signed negative (w.encode m') := by
  rw [Parts.bits, Width.bitsOfQuotient_eq h m.denominator_pos]
  rw [m.numerator_div_denominator, ← hvalue]
  exact m'.readsBack_value

/-- A finite float comes back from the greater width. -/
theorem narrow_widen {f : Float32} (h : f.isFinite = true) : narrow (widen f) = f := by
  obtain ⟨negative, m, hparts⟩ := (isFinite32_iff f).mp h
  obtain ⟨hm, hf⟩ := of_parts32_eq_finite hparts
  obtain ⟨m', hm', hvalue⟩ := exists_double_of_single hm
  rw [widen, hparts, bits_finite hm' hvalue, narrow, parts_ofBits hm', bits_finite hm hvalue.symm,
    ← hf]

/-- A finite float is finite in the greater width. -/
theorem isFinite_widen {f : Float32} (h : f.isFinite = true) : (widen f).isFinite = true := by
  obtain ⟨negative, m, hparts⟩ := (isFinite32_iff f).mp h
  obtain ⟨hm, -⟩ := of_parts32_eq_finite hparts
  obtain ⟨m', hm', hvalue⟩ := exists_double_of_single hm
  rw [widen, hparts, bits_finite hm' hvalue, isFinite_iff, parts_ofBits hm']
  exact ⟨negative, m', rfl⟩

end SymbolAtlas.Decimal
