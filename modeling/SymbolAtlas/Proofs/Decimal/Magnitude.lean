import Mathlib
import SymbolAtlas.Decimal.Magnitude

/-!
# Magnitudes and bits

The finite floats of a width are the signed magnitudes that the width has, each with bits of its
own.
-/

namespace SymbolAtlas.Decimal

/-! ## The number a magnitude stands for -/

namespace Magnitude

def value (m : Magnitude) : ℚ := m.mantissa * 2 ^ m.exponent

theorem value_nonneg (m : Magnitude) : 0 ≤ m.value := by
  unfold value
  positivity

theorem denominator_pos (m : Magnitude) : 0 < m.denominator := Nat.two_pow_pos _

theorem two_zpow_eq (e : ℤ) : (2 : ℚ) ^ e = 2 ^ e.toNat / 2 ^ (-e).toNat := by
  obtain ⟨n, rfl | rfl⟩ := e.eq_nat_or_neg <;> simp

theorem numerator_div_denominator (m : Magnitude) :
    (m.numerator : ℚ) / m.denominator = m.value := by
  simp only [numerator, denominator, value, two_zpow_eq m.exponent, Nat.pow_eq, Nat.cast_mul,
    Nat.cast_pow, Nat.cast_ofNat, mul_div_assoc]

end Magnitude

/-! ## Bits -/

namespace Width

variable {w : Width} {m : Magnitude} {negative : Bool} {bits : Nat}

theorem unit_pos (w : Width) : 0 < w.unit := Nat.two_pow_pos _

theorem pow_two_add_eq (w : Width) :
    Nat.pow 2 (w.fraction + w.exponent) = w.unit * Nat.pow 2 w.exponent :=
  Nat.pow_add 2 w.fraction w.exponent

/-- The bits of a magnitude without a sign. -/
def encode (w : Width) (m : Magnitude) : Nat := (m.exponent - w.lowest).toNat * w.unit + m.mantissa

/-- That a magnitude is the one of a finite float of the width. -/
structure Has (w : Width) (m : Magnitude) : Prop where
  lowest_le : w.lowest ≤ m.exponent
  mantissa_lt : m.mantissa < 2 * w.unit
  normal_or_lowest : w.unit ≤ m.mantissa ∨ m.exponent = w.lowest
  nearBelow_eq : m.nearBelow = decide (m.mantissa = w.unit ∧ m.exponent ≠ w.lowest)
  encode_lt : w.encode m < w.infinity

/-- The bits of the exponent and of the fraction. -/
theorem encode_fields (h : w.Has m) :
    w.encode m / w.unit = (m.exponent - w.lowest).toNat + (if w.unit ≤ m.mantissa then 1 else 0) ∧
      w.encode m % w.unit = m.mantissa - if w.unit ≤ m.mantissa then w.unit else 0 := by
  have hunit := w.unit_pos
  have hlt := h.mantissa_lt
  unfold encode
  split_ifs with hnormal
  · obtain ⟨f, hf⟩ := Nat.exists_eq_add_of_le hnormal
    have hsplit : (m.exponent - w.lowest).toNat * w.unit + m.mantissa =
        f + ((m.exponent - w.lowest).toNat + 1) * w.unit := by
      rw [hf]
      ring
    rw [hsplit, Nat.add_mul_div_right _ _ hunit, Nat.add_mul_mod_self_right,
      Nat.div_eq_of_lt (by omega), Nat.mod_eq_of_lt (by omega)]
    omega
  · rw [Nat.add_comm, Nat.add_mul_div_right _ _ hunit, Nat.add_mul_mod_self_right,
      Nat.div_eq_of_lt (by omega), Nat.mod_eq_of_lt (by omega)]
    omega

/-- The sign changes neither the exponent nor the fraction. -/
theorem signed_fields (negative : Bool) (hbits : bits < w.unit * Nat.pow 2 w.exponent) :
    w.signed negative bits % w.unit = bits % w.unit ∧
      w.signed negative bits / w.unit % Nat.pow 2 w.exponent = bits / w.unit ∧
      (w.signed negative bits / Nat.pow 2 (w.fraction + w.exponent) % 2 = 1 ↔
        negative = true) := by
  have hunit := w.unit_pos
  have hexponent : bits / w.unit < Nat.pow 2 w.exponent :=
    Nat.div_lt_of_lt_mul hbits
  unfold signed
  rw [pow_two_add_eq]
  cases negative with
  | false =>
    simp only [Bool.false_eq_true, if_false, Nat.zero_add, iff_false]
    rw [Nat.mod_eq_of_lt hexponent, Nat.div_eq_of_lt hbits]
    simp
  | true =>
    simp only [if_true, iff_true]
    rw [Nat.mul_add_mod, Nat.mul_add_div hunit, Nat.add_mod_left, Nat.mod_eq_of_lt hexponent,
      Nat.add_div_left _ (Nat.lt_of_le_of_lt (Nat.zero_le _) hbits), Nat.div_eq_of_lt hbits]
    simp

theorem encode_lt_pow (h : w.Has m) : w.encode m < w.unit * Nat.pow 2 w.exponent := by
  have hlt := h.encode_lt
  have hle : w.infinity ≤ Nat.pow 2 w.exponent * w.unit := Nat.mul_le_mul_right _ (Nat.sub_le _ _)
  rw [Nat.mul_comm]
  omega

theorem signed_lt (negative : Bool) (h : w.Has m) :
    w.signed negative (w.encode m) < 2 * Nat.pow 2 (w.fraction + w.exponent) := by
  have hlt := encode_lt_pow h
  rw [← pow_two_add_eq] at hlt
  unfold signed
  split_ifs <;> omega

/-- The bits of a magnitude are taken apart into the magnitude. -/
theorem ofBits_signed_encode (negative : Bool) (h : w.Has m) :
    Parts.ofBits w (w.signed negative (w.encode m)) = .finite negative m := by
  obtain ⟨hexponent, hfraction⟩ := encode_fields h
  obtain ⟨hsigned_fraction, hsigned_exponent, hsign⟩ :=
    signed_fields negative (encode_lt_pow h)
  have hfinite : w.encode m / w.unit < Nat.pow 2 w.exponent - 1 :=
    (Nat.div_lt_iff_lt_mul w.unit_pos).mpr h.encode_lt
  obtain ⟨k, hk⟩ := Int.eq_ofNat_of_zero_le (Int.sub_nonneg_of_le h.lowest_le)
  have hplace : (m.exponent - w.lowest).toNat = k := by omega
  simp only [Parts.ofBits, hsigned_fraction, hsigned_exponent, hsign, Bool.decide_eq_true]
  rw [if_neg (by omega)]
  have hnear := h.nearBelow_eq
  by_cases hnormal : w.unit ≤ m.mantissa
  · simp only [hexponent, hfraction, hnormal, if_true]
    rw [if_neg (by omega), Parts.finite.injEq]
    refine ⟨rfl, ?_⟩
    obtain ⟨mantissa, exponent, nearBelow⟩ := m
    simp only [Magnitude.mk.injEq] at hnear hnormal hk ⊢
    refine ⟨by omega, by omega, ?_⟩
    rw [hnear, decide_eq_decide]
    omega
  · simp only [hexponent, hfraction, hnormal, if_false]
    have hlowest := h.normal_or_lowest.resolve_left hnormal
    rw [if_pos (by omega), Parts.finite.injEq]
    refine ⟨rfl, ?_⟩
    obtain ⟨mantissa, exponent, nearBelow⟩ := m
    simp only [Magnitude.mk.injEq] at hnear hnormal hlowest ⊢
    refine ⟨by omega, hlowest.symm, ?_⟩
    rw [hnear, eq_comm, decide_eq_false_iff_not]
    omega

/-- Bits are a sign, an exponent and a fraction. -/
theorem eq_signed (hbits : bits < 2 * Nat.pow 2 (w.fraction + w.exponent)) :
    bits = w.signed (decide (bits / Nat.pow 2 (w.fraction + w.exponent) % 2 = 1))
      (bits / w.unit % Nat.pow 2 w.exponent * w.unit + bits % w.unit) := by
  have hrest : bits / w.unit % Nat.pow 2 w.exponent * w.unit + bits % w.unit =
      bits % Nat.pow 2 (w.fraction + w.exponent) := by
    rw [pow_two_add_eq, Nat.mod_mul]
    ring
  have hsplit := Nat.div_add_mod bits (Nat.pow 2 (w.fraction + w.exponent))
  have hsign : bits / Nat.pow 2 (w.fraction + w.exponent) < 2 :=
    Nat.div_lt_of_lt_mul (by rwa [Nat.mul_comm])
  rw [hrest, signed]
  obtain hzero | hone : bits / Nat.pow 2 (w.fraction + w.exponent) = 0 ∨
      bits / Nat.pow 2 (w.fraction + w.exponent) = 1 :=
    Nat.le_one_iff_eq_zero_or_eq_one.mp (Nat.lt_succ_iff.mp hsign)
  · simp only [hzero, Nat.zero_mod, Nat.zero_ne_one, decide_false, Bool.false_eq_true, if_false]
    rw [hzero] at hsplit
    omega
  · simp only [hone, Nat.one_mod, decide_true, if_true]
    rw [hone] at hsplit
    omega

/-- What is taken apart as finite are the bits of a magnitude of the width. -/
theorem of_ofBits_eq_finite (hbits : bits < 2 * Nat.pow 2 (w.fraction + w.exponent))
    (h : Parts.ofBits w bits = .finite negative m) :
    w.Has m ∧ bits = w.signed negative (w.encode m) := by
  have hsigned := eq_signed hbits
  have hfraction : bits % w.unit < w.unit := Nat.mod_lt _ w.unit_pos
  have hexponent : bits / w.unit % Nat.pow 2 w.exponent < Nat.pow 2 w.exponent :=
    Nat.mod_lt _ (Nat.two_pow_pos _)
  simp only [Parts.ofBits] at h
  generalize decide (bits / Nat.pow 2 (w.fraction + w.exponent) % 2 = 1) = sign at h hsigned
  generalize bits % w.unit = f at h hsigned hfraction
  generalize bits / w.unit % Nat.pow 2 w.exponent = e at h hsigned hexponent
  have hfinite (hne : e + 1 ≠ Nat.pow 2 w.exponent) : e * w.unit + f < w.infinity := by
    have hle : (e + 1) * w.unit ≤ w.infinity := Nat.mul_le_mul_right _ (by omega)
    rw [Nat.succ_mul] at hle
    omega
  split_ifs at h with hinfinite hzero hsmall
  · obtain ⟨rfl, rfl⟩ := Parts.finite.inj h
    have hencode : w.encode { mantissa := f, exponent := w.lowest } = e * w.unit + f := by
      simp [encode, hsmall]
    exact ⟨⟨le_rfl, by dsimp only; omega, .inr rfl, by simp, hencode ▸ hfinite hinfinite⟩,
      hencode ▸ hsigned⟩
  · obtain ⟨rfl, rfl⟩ := Parts.finite.inj h
    have hencode (near : Bool) : w.encode
        { mantissa := w.unit + f, exponent := w.lowest + (e - 1 : Nat), nearBelow := near } =
          e * w.unit + f := by
      obtain ⟨k, rfl⟩ := Nat.exists_eq_add_of_lt (Nat.pos_of_ne_zero hsmall)
      simp only [encode, add_sub_cancel_left, Int.toNat_natCast, Nat.zero_add, Nat.add_sub_cancel]
      ring
    refine ⟨⟨by dsimp only; omega, by dsimp only; omega, .inl (by dsimp only; omega), ?_,
      hencode _ ▸ hfinite hinfinite⟩, hencode _ ▸ hsigned⟩
    rw [decide_eq_decide]
    dsimp only
    omega

end Width

end SymbolAtlas.Decimal
