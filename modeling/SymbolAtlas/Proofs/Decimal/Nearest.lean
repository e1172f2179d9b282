import SymbolAtlas.Decimal.Nearest
import SymbolAtlas.Proofs.Decimal.Magnitude

/-!
# The interval of numbers that a float is nearest to

A number between a magnitude and the middles to its neighbours is rounded to the magnitude, and the
middles themselves are if its mantissa is even.
-/

namespace SymbolAtlas.Decimal

/-! ## Rounding to whole numbers -/

/-- A quotient within a half of a whole number, or at a half of an even one. -/
theorem roundQuotient_eq {num den k : Nat} (hden : 0 < den) (hlow : 2 * k * den ≤ 2 * num + den)
    (hhigh : 2 * num ≤ (2 * k + 1) * den)
    (hodd : k % 2 = 1 → 2 * k * den < 2 * num + den ∧ 2 * num < (2 * k + 1) * den) :
    roundQuotient num den = k := by
  have hsplit := Nat.div_add_mod num den
  have hrest := Nat.mod_lt num hden
  simp only [roundQuotient]
  generalize num / den = q at *
  generalize num % den = r at *
  subst hsplit
  have hle : q ≤ k := by nlinarith
  have hge : k ≤ q + 1 := by nlinarith
  obtain rfl | rfl : k = q ∨ k = q + 1 := by omega
  · have hhalf : 2 * r ≤ den := by nlinarith
    have hstrict : k % 2 = 1 → 2 * r < den := fun h => by nlinarith [hodd h]
    split_ifs <;> omega
  · have hhalf : den ≤ 2 * r := by nlinarith
    have hstrict : (q + 1) % 2 = 1 → den < 2 * r := fun h => by nlinarith [hodd h]
    split_ifs <;> omega

/-! ## The interval of a magnitude -/

namespace Magnitude

/-- That a number is nearer to the magnitude than to any other float, or at a tie that goes to the
magnitude. -/
structure ReadsBack (m : Magnitude) (v : ℚ) : Prop where
  le : (m.mantissa - if m.nearBelow then 1 / 4 else 1 / 2) * 2 ^ m.exponent ≤ v
  ge : v ≤ (m.mantissa + 1 / 2) * 2 ^ m.exponent
  odd : m.mantissa % 2 = 1 →
    (m.mantissa - if m.nearBelow then 1 / 4 else 1 / 2) * 2 ^ m.exponent < v ∧
      v < (m.mantissa + 1 / 2) * 2 ^ m.exponent

theorem readsBack_value (m : Magnitude) : m.ReadsBack m.value := by
  have hpos : (0 : ℚ) < 2 ^ m.exponent := by positivity
  have hlow : (m.mantissa - if m.nearBelow then 1 / 4 else 1 / 2 : ℚ) * 2 ^ m.exponent <
      m.value := by
    unfold value
    gcongr
    split_ifs <;> linarith
  have hhigh : m.value < (m.mantissa + 1 / 2) * 2 ^ m.exponent := by
    unfold value
    gcongr
    linarith
  exact ⟨hlow.le, hhigh.le, fun _ => ⟨hlow, hhigh⟩⟩

/-- The interval lies within a half of the last place on both sides. -/
theorem half_le (m : Magnitude) : (m.mantissa - 1 / 2 : ℚ) * 2 ^ m.exponent ≤
    (m.mantissa - if m.nearBelow then 1 / 4 else 1 / 2) * 2 ^ m.exponent := by
  gcongr
  split_ifs <;> norm_num

end Magnitude

/-! ## The exponent of a quotient -/

theorem scaled_snd_pos {den : Nat} (hden : 0 < den) (num : Nat) (e : ℤ) :
    0 < (scaled num den e).2 := Nat.mul_pos hden (Nat.two_pow_pos _)

theorem scaled_eq (num den : Nat) (e : ℤ) :
    ((scaled num den e).1 : ℚ) / (scaled num den e).2 = num / den / 2 ^ e := by
  simp only [scaled, Nat.pow_eq, Nat.cast_mul, Nat.cast_pow, Nat.cast_ofNat,
    Magnitude.two_zpow_eq e]
  field_simp

namespace Width

variable {w : Width} {m : Magnitude} {num den : Nat}

theorem unit_eq (w : Width) : (w.unit : ℚ) = 2 ^ (w.fraction : ℤ) := by simp [unit]

/-- The logarithms of a quotient's numbers tell its size up to a factor of two. -/
theorem log2_bounds (hnum : num ≠ 0) (hden : den ≠ 0) :
    (2 : ℚ) ^ ((num.log2 : ℤ) - den.log2 - 1) < num / den ∧
      (num : ℚ) / den < 2 ^ ((num.log2 : ℤ) - den.log2 + 1) := by
  have hnum_le : (2 : ℚ) ^ (num.log2 : ℤ) ≤ num := by exact_mod_cast Nat.log2_self_le hnum
  have hnum_lt : (num : ℚ) < 2 ^ ((num.log2 : ℤ) + 1) := by exact_mod_cast Nat.lt_log2_self
  have hden_le : (2 : ℚ) ^ (den.log2 : ℤ) ≤ den := by exact_mod_cast Nat.log2_self_le hden
  have hden_lt : (den : ℚ) < 2 ^ ((den.log2 : ℤ) + 1) := by exact_mod_cast Nat.lt_log2_self
  have hpos : (0 : ℚ) < den := by exact_mod_cast Nat.pos_of_ne_zero hden
  constructor
  · rw [lt_div_iff₀ hpos]
    calc (2 : ℚ) ^ ((num.log2 : ℤ) - den.log2 - 1) * den
        < 2 ^ ((num.log2 : ℤ) - den.log2 - 1) * 2 ^ ((den.log2 : ℤ) + 1) := by gcongr
      _ = 2 ^ (num.log2 : ℤ) := by
        rw [← zpow_add₀ two_ne_zero]
        congr 1
        ring
      _ ≤ num := hnum_le
  · rw [div_lt_iff₀ hpos]
    calc (num : ℚ) < 2 ^ ((num.log2 : ℤ) + 1) := hnum_lt
      _ = 2 ^ ((num.log2 : ℤ) - den.log2 + 1) * 2 ^ (den.log2 : ℤ) := by
        rw [← zpow_add₀ two_ne_zero]
        congr 1
        ring
      _ ≤ 2 ^ ((num.log2 : ℤ) - den.log2 + 1) * den := by gcongr

/-- With its exponent a quotient has a mantissa of as many bits as the width has. -/
theorem exponentOf_bounds (hnum : num ≠ 0) (hden : den ≠ 0) :
    (w.unit : ℚ) * 2 ^ w.exponentOf num den ≤ num / den ∧
      (num : ℚ) / den < 2 * w.unit * 2 ^ w.exponentOf num den := by
  obtain ⟨hlow, hhigh⟩ := log2_bounds hnum hden
  have htest (e : ℤ) : (scaled num den e).1 < w.unit * (scaled num den e).2 ↔
      (num : ℚ) / den < w.unit * 2 ^ e := by
    have hsnd : (0 : ℚ) < (scaled num den e).2 := by
      exact_mod_cast scaled_snd_pos (Nat.pos_of_ne_zero hden) num e
    rw [← div_lt_iff₀ (by positivity), ← scaled_eq, div_lt_iff₀ hsnd]
    norm_cast
  have hunit (e : ℤ) : (w.unit : ℚ) * 2 ^ e = 2 ^ (w.fraction + e) := by
    rw [unit_eq, zpow_add₀ two_ne_zero]
  have hunits (e : ℤ) : 2 * (w.unit : ℚ) * 2 ^ e = 2 ^ (w.fraction + e + 1) := by
    rw [mul_assoc, hunit, zpow_add_one₀ two_ne_zero, mul_comm]
  simp only [exponentOf, htest]
  split_ifs with hsmall
  · refine ⟨?_, ?_⟩
    · rw [hunit]
      refine le_of_eq_of_le ?_ hlow.le
      congr 1
      ring
    · rw [hunit] at hsmall
      rw [hunits]
      refine lt_of_lt_of_eq hsmall ?_
      congr 1
      ring
  · refine ⟨not_lt.mp hsmall, ?_⟩
    rw [hunits]
    refine lt_of_lt_of_eq hhigh ?_
    congr 1
    ring

/-- A number within a half of a multiple of a power of two, or at a half of an even one, is rounded
to the multiple. -/
theorem roundQuotient_scaled {k : Nat} {e : ℤ} (hden : 0 < den)
    (hlow : (k - 1 / 2 : ℚ) * 2 ^ e ≤ num / den) (hhigh : (num : ℚ) / den ≤ (k + 1 / 2) * 2 ^ e)
    (hodd : k % 2 = 1 →
      (k - 1 / 2 : ℚ) * 2 ^ e < num / den ∧ (num : ℚ) / den < (k + 1 / 2) * 2 ^ e) :
    roundQuotient (scaled num den e).1 (scaled num den e).2 = k := by
  have hpos : (0 : ℚ) < 2 ^ e := by positivity
  have hsnd := scaled_snd_pos hden num e
  have hsnd' : (0 : ℚ) < (scaled num den e).2 := by exact_mod_cast hsnd
  rw [← le_div_iff₀ hpos, ← scaled_eq, le_div_iff₀ hsnd'] at hlow
  rw [← div_le_iff₀ hpos, ← scaled_eq, div_le_iff₀ hsnd'] at hhigh
  rw [← lt_div_iff₀ hpos, ← div_lt_iff₀ hpos, ← scaled_eq, lt_div_iff₀ hsnd',
    div_lt_iff₀ hsnd'] at hodd
  generalize (scaled num den e).1 = n at *
  generalize (scaled num den e).2 = d at *
  refine roundQuotient_eq hsnd ?_ ?_ fun h => ⟨?_, ?_⟩
  · have : (2 * k * d : ℚ) ≤ 2 * n + d := by linarith
    exact_mod_cast this
  · have : (2 * n : ℚ) ≤ (2 * k + 1) * d := by linarith
    exact_mod_cast this
  · have : (2 * k * d : ℚ) < 2 * n + d := by linarith [hodd h]
    exact_mod_cast this
  · have : (2 * n : ℚ) < (2 * k + 1) * d := by linarith [hodd h]
    exact_mod_cast this

theorem two_zpow_le {e e' : ℤ} (h : e ≤ e') : (2 : ℚ) ^ e ≤ 2 ^ e' :=
  zpow_le_zpow_right₀ one_le_two h

/-- A number in the interval of a magnitude has the magnitude's exponent, unless it lies below the
least magnitude with this exponent. -/
theorem max_exponentOf_cases (hm : w.Has m) (hnum : 0 < num) (hden : 0 < den)
    (hv : m.ReadsBack ((num : ℚ) / den)) :
    max (w.exponentOf num den) w.lowest = m.exponent ∨
      max (w.exponentOf num den) w.lowest = m.exponent - 1 ∧ m.mantissa = w.unit ∧
        m.nearBelow = true ∧ (num : ℚ) / den < w.unit * 2 ^ m.exponent := by
  obtain ⟨hlow, hhigh⟩ := exponentOf_bounds (w := w) hnum.ne' hden.ne'
  have hpos : (0 : ℚ) < 2 ^ m.exponent := by positivity
  have hunit : (1 : ℚ) ≤ w.unit := by exact_mod_cast w.unit_pos
  have hlowest := hm.lowest_le
  obtain ⟨hle, hge, -⟩ := hv
  have hnot_above : w.exponentOf num den ≤ m.exponent := by
    by_contra hlt
    have hmantissa : (m.mantissa : ℚ) + 1 ≤ 2 * w.unit := by exact_mod_cast hm.mantissa_lt
    have hpower : (2 : ℚ) ^ m.exponent * 2 ≤ 2 ^ w.exponentOf num den := by
      rw [← zpow_add_one₀ two_ne_zero]
      exact two_zpow_le (by omega)
    nlinarith
  obtain heq | hlt : max (w.exponentOf num den) w.lowest = m.exponent ∨
      max (w.exponentOf num den) w.lowest < m.exponent := by omega
  · exact .inl heq
  right
  have hnormal : w.unit ≤ m.mantissa := hm.normal_or_lowest.resolve_right (by omega)
  have hbelow : (num : ℚ) / den < w.unit * 2 ^ m.exponent := by
    have hpower : 2 * (2 : ℚ) ^ w.exponentOf num den ≤ 2 ^ m.exponent := by
      rw [mul_comm, ← zpow_add_one₀ two_ne_zero]
      exact two_zpow_le (by omega)
    nlinarith
  have hmantissa : m.mantissa = w.unit := by
    have hhalf : (m.mantissa : ℚ) - 1 / 2 < w.unit := by
      exact lt_of_mul_lt_mul_right ((m.half_le.trans hle).trans_lt hbelow) hpos.le
    have hlt : (m.mantissa : ℚ) < w.unit + 1 := by linarith
    have : m.mantissa < w.unit + 1 := by exact_mod_cast hlt
    omega
  have hnear : m.nearBelow = true := by
    rw [hm.nearBelow_eq, decide_eq_true_eq]
    exact ⟨hmantissa, by omega⟩
  refine ⟨?_, hmantissa, hnear, hbelow⟩
  by_contra hne
  have hpower : 4 * (2 : ℚ) ^ w.exponentOf num den ≤ 2 ^ m.exponent := by
    have : (2 : ℚ) ^ w.exponentOf num den * 2 * 2 ≤ 2 ^ m.exponent := by
      rw [← zpow_add_one₀ two_ne_zero, ← zpow_add_one₀ two_ne_zero]
      exact two_zpow_le (by omega)
    linarith
  rw [if_pos hnear, hmantissa] at hle
  nlinarith

theorem encode_eq_zero (hm : w.Has m) (hmantissa : m.mantissa = 0) : w.encode m = 0 := by
  have hlowest : m.exponent = w.lowest :=
    hm.normal_or_lowest.resolve_left (by have := w.unit_pos; omega)
  simp [encode, hmantissa, hlowest]

/-- The nearest float to a number in the interval of a magnitude is the one of the magnitude. -/
theorem bitsOfQuotient_eq (hm : w.Has m) (hden : 0 < den)
    (hv : m.ReadsBack ((num : ℚ) / den)) : w.bitsOfQuotient num den = w.encode m := by
  have hpos : (0 : ℚ) < 2 ^ m.exponent := by positivity
  obtain rfl | hnum := Nat.eq_zero_or_pos num
  · have hhalf : (m.mantissa - 1 / 2 : ℚ) * 2 ^ m.exponent ≤ 0 := by
      simpa using m.half_le.trans hv.le
    have hlt : (m.mantissa : ℚ) < 1 := by nlinarith
    have hzero : m.mantissa = 0 := by
      have : m.mantissa < 1 := by exact_mod_cast hlt
      omega
    simp [bitsOfQuotient, encode_eq_zero hm hzero]
  simp only [bitsOfQuotient, if_neg hnum.ne']
  obtain heq | ⟨heq, hmantissa, hnear, hbelow⟩ := max_exponentOf_cases hm hnum hden hv
  · rw [heq, roundQuotient_scaled hden (m.half_le.trans hv.le) hv.ge
      fun hodd => ⟨m.half_le.trans_lt (hv.odd hodd).1, (hv.odd hodd).2⟩]
    exact min_eq_right hm.encode_lt.le
  · -- rounding up carries into the exponent
    have hlow := hv.le
    rw [if_pos hnear, hmantissa] at hlow
    have hpower : (2 : ℚ) ^ m.exponent = 2 ^ (m.exponent - 1) * 2 := by
      rw [← zpow_add_one₀ two_ne_zero, sub_add_cancel]
    rw [hpower] at hlow hbelow
    rw [heq, roundQuotient_scaled (k := 2 * w.unit) hden]
    · obtain ⟨k, hk⟩ : ∃ k : ℕ, m.exponent - 1 - w.lowest = k :=
        Int.eq_ofNat_of_zero_le (by have := le_max_right (w.exponentOf num den) w.lowest; omega)
      have hencode : (m.exponent - 1 - w.lowest).toNat * w.unit + 2 * w.unit = w.encode m := by
        rw [encode, hmantissa, hk, show m.exponent - w.lowest = ((k + 1 : ℕ) : ℤ) by omega,
          Int.toNat_natCast, Int.toNat_natCast]
        ring
      rw [hencode]
      exact min_eq_right hm.encode_lt.le
    · push_cast
      linarith
    · push_cast
      have : (0 : ℚ) < 2 ^ (m.exponent - 1) := by positivity
      linarith
    · omega

end Width

end SymbolAtlas.Decimal
