import SymbolAtlas.Decimal.Shortest
import SymbolAtlas.Proofs.Decimal.Width
import SymbolAtlas.Proofs.Text.Digits

/-!
# Shortest decimals read back

A decimal in the interval of a magnitude is found, as the grids become as fine as a quarter of the
last place, and what is found is read back as the float. Its text has the digits of the decimal
before and after the point.
-/

namespace SymbolAtlas.Decimal

open Width (two_zpow_le)

/-- Three powers of ten are below ten powers of two, and twenty-eight powers of ten are above
ninety-three powers of two. -/
theorem ten_zpow_le {k e : ℤ} (hnonneg : 0 ≤ k → 10 * k ≤ 3 * e)
    (hneg : k ≤ 0 → 93 * k ≤ 28 * e) : (10 : ℚ) ^ k ≤ 2 ^ e := by
  obtain ⟨n, rfl | rfl⟩ := k.eq_nat_or_neg
  · refine le_of_pow_le_pow_left₀ (n := 3) three_ne_zero (by positivity) ?_
    calc ((10 : ℚ) ^ (n : ℤ)) ^ 3 = (10 ^ 3) ^ n := by rw [zpow_natCast, pow_right_comm]
      _ ≤ (2 ^ 10) ^ n := by gcongr; norm_num
      _ = 2 ^ (10 * (n : ℤ)) := by rw [← pow_mul]; norm_cast
      _ ≤ 2 ^ (e * 3) := two_zpow_le (by linarith [hnonneg (by positivity)])
      _ = (2 ^ e) ^ 3 := by rw [zpow_mul]; norm_cast
  · have h : (2 : ℚ) ^ (-e) ≤ 10 ^ (n : ℤ) := by
      refine le_of_pow_le_pow_left₀ (n := 28) (by norm_num) (by positivity) ?_
      calc ((2 : ℚ) ^ (-e)) ^ 28 = 2 ^ (-e * 28) := by rw [zpow_mul]; norm_cast
        _ ≤ 2 ^ (93 * (n : ℤ)) := two_zpow_le (by linarith [hneg (by simp)])
        _ = (2 ^ 93) ^ n := by rw [← pow_mul]; norm_cast
        _ ≤ (10 ^ 28) ^ n := by gcongr; norm_num
        _ = (10 ^ (n : ℤ)) ^ 28 := by rw [zpow_natCast, pow_right_comm]
    calc (10 : ℚ) ^ (-(n : ℤ)) = (10 ^ (n : ℤ))⁻¹ := zpow_neg _ _
      _ ≤ (2 ^ (-e))⁻¹ := inv_anti₀ (by positivity) h
      _ = 2 ^ e := by rw [zpow_neg, inv_inv]

namespace Magnitude

variable {m : Magnitude} {k : ℤ} {c : Nat}

/-- A step of a grid, in the unit in which a quarter of the last place is `quarter`. -/
def step (m : Magnitude) (k : ℤ) : Nat := Nat.pow 10 k.toNat * Nat.pow 2 (2 - m.exponent).toNat

/-- A quarter of the last place of the mantissa. -/
def quarter (m : Magnitude) (k : ℤ) : Nat :=
  Nat.pow 2 (m.exponent - 2).toNat * Nat.pow 10 (-k).toNat

/-- Whether a number of steps reads back. -/
def readsBackAt (m : Magnitude) (k : ℤ) (c : Nat) : Bool :=
  let low := (if m.nearBelow then 4 * m.mantissa - 1 else 4 * m.mantissa - 2) * m.quarter k
  let high := (4 * m.mantissa + 2) * m.quarter k
  if m.mantissa % 2 = 0 then low ≤ c * m.step k && c * m.step k ≤ high
  else low < c * m.step k && c * m.step k < high

/-- The number of steps that do not exceed the magnitude. -/
def stepsBelow (m : Magnitude) (k : ℤ) : Nat := 4 * m.mantissa * m.quarter k / m.step k

theorem onGrid?_eq (m : Magnitude) (k : ℤ) : m.onGrid? k =
    match m.readsBackAt k (m.stepsBelow k), m.readsBackAt k (m.stepsBelow k + 1) with
    | true, true => some (
        if 2 * (4 * m.mantissa * m.quarter k) < (2 * m.stepsBelow k + 1) * m.step k then
          m.stepsBelow k
        else m.stepsBelow k + 1)
    | true, false => some (m.stepsBelow k)
    | false, true => some (m.stepsBelow k + 1)
    | false, false => none := rfl

theorem quarter_pos (m : Magnitude) (k : ℤ) : 0 < m.quarter k :=
  Nat.mul_pos (Nat.two_pow_pos _) (Nat.pow_pos (by decide : 0 < 10))

theorem step_div_quarter (m : Magnitude) (k : ℤ) :
    (m.step k : ℚ) / m.quarter k = 4 * 10 ^ k / 2 ^ m.exponent := by
  have hten : (10 : ℚ) ^ k = 10 ^ k.toNat / 10 ^ (-k).toNat := by
    obtain ⟨n, rfl | rfl⟩ := k.eq_nat_or_neg <;> simp
  have htwo : (2 : ℚ) ^ (2 - m.exponent) =
      2 ^ (2 - m.exponent).toNat / 2 ^ (m.exponent - 2).toNat := by
    rw [two_zpow_eq, neg_sub]
  have hquarter : (4 : ℚ) / 2 ^ m.exponent = 2 ^ (2 - m.exponent) := by
    rw [zpow_sub₀ two_ne_zero]
    norm_num
  rw [mul_div_right_comm, hquarter, htwo, hten]
  push_cast [step, quarter, Nat.pow_eq]
  field_simp

theorem stepsBelow_eq (m : Magnitude) (k : ℤ) : m.stepsBelow k = ⌊m.value / 10 ^ k⌋₊ := by
  have hpos : (0 : ℚ) < m.quarter k := by exact_mod_cast m.quarter_pos k
  have hstep := m.step_div_quarter k
  rw [div_eq_iff hpos.ne'] at hstep
  rw [stepsBelow, ← Nat.floor_div_eq_div (K := ℚ), hstep, value]
  congr 1
  push_cast
  field_simp

theorem readsBackAt_iff (hm : 0 < m.mantissa) :
    m.readsBackAt k c = true ↔ m.ReadsBack (c * 10 ^ k) := by
  have hpos : (0 : ℚ) < m.quarter k := by exact_mod_cast m.quarter_pos k
  have hstep := m.step_div_quarter k
  unfold readsBackAt
  generalize m.step k = a at *
  generalize m.quarter k = b at *
  generalize (10 : ℚ) ^ k = t at *
  have hpower : (0 : ℚ) < 2 ^ m.exponent := by positivity
  have hscale : (c * a : ℚ) / b = 4 * (c * t) / 2 ^ m.exponent := by
    rw [mul_div_assoc, hstep]
    ring
  have hle (n : Nat) (x : ℚ) (hx : (n : ℚ) = 4 * x) :
      (n * b ≤ c * a ↔ x * 2 ^ m.exponent ≤ c * t) ∧
        (n * b < c * a ↔ x * 2 ^ m.exponent < c * t) ∧
        (c * a ≤ n * b ↔ c * t ≤ x * 2 ^ m.exponent) ∧
        (c * a < n * b ↔ c * t < x * 2 ^ m.exponent) := by
    have hca : (c * a : ℚ) = 4 * (c * t) / 2 ^ m.exponent * b := by
      rw [← hscale, div_mul_cancel₀ _ hpos.ne']
    have hnb : (n * b : ℚ) = 4 * (x * 2 ^ m.exponent) / 2 ^ m.exponent * b := by
      rw [hx]
      field_simp
    simp only [← Nat.cast_le (α := ℚ), ← Nat.cast_lt (α := ℚ), Nat.cast_mul, hca, hnb,
      mul_le_mul_iff_left₀ hpos, mul_lt_mul_iff_left₀ hpos, div_le_div_iff_of_pos_right hpower,
      div_lt_div_iff_of_pos_right hpower, mul_le_mul_iff_right₀ (four_pos : (0 : ℚ) < 4),
      mul_lt_mul_iff_right₀ (four_pos : (0 : ℚ) < 4), and_self]
  have hlow : ((if m.nearBelow then 4 * m.mantissa - 1 else 4 * m.mantissa - 2 : ℕ) : ℚ) =
      4 * (m.mantissa - if m.nearBelow then 1 / 4 else 1 / 2) := by
    split_ifs
    · rw [Nat.cast_sub (by omega)]
      push_cast
      ring
    · rw [Nat.cast_sub (by omega)]
      push_cast
      ring
  have hhigh : ((4 * m.mantissa + 2 : ℕ) : ℚ) = 4 * (m.mantissa + 1 / 2) := by
    push_cast
    ring
  obtain ⟨hlow_le, hlow_lt, -, -⟩ := hle _ _ hlow
  obtain ⟨-, -, hhigh_le, hhigh_lt⟩ := hle _ _ hhigh
  by_cases heven : m.mantissa % 2 = 0
  · rw [if_pos heven, Bool.and_eq_true, decide_eq_true_eq, decide_eq_true_eq, hlow_le, hhigh_le]
    exact ⟨fun ⟨h, h'⟩ => ⟨h, h', fun hodd => by omega⟩, fun h => ⟨h.le, h.ge⟩⟩
  · rw [if_neg heven, Bool.and_eq_true, decide_eq_true_eq, decide_eq_true_eq, hlow_lt, hhigh_lt]
    exact ⟨fun ⟨h, h'⟩ => ⟨h.le, h'.le, fun _ => ⟨h, h'⟩⟩, fun h => h.odd (by omega)⟩

/-- What is found on a grid reads back. -/
theorem readsBack_of_onGrid? (hm : 0 < m.mantissa) (h : m.onGrid? k = some c) :
    m.ReadsBack (c * 10 ^ k) := by
  rw [← readsBackAt_iff hm]
  rw [onGrid?_eq] at h
  split at h
  · next hbelow habove =>
    obtain rfl := Option.some.inj h
    split_ifs
    · exact hbelow
    · exact habove
  · next hbelow _ => exact Option.some.inj h ▸ hbelow
  · next _ habove => exact Option.some.inj h ▸ habove
  · cases h

theorem isSome_onGrid? (hm : 0 < m.mantissa)
    (h : m.ReadsBack ((⌊m.value / 10 ^ k⌋₊ : ℕ) * 10 ^ k)) : (m.onGrid? k).isSome := by
  rw [← stepsBelow_eq, ← readsBackAt_iff hm] at h
  rw [onGrid?_eq, h]
  cases m.readsBackAt k (m.stepsBelow k + 1) <;> rfl

/-- On a grid with steps of at most a quarter of the last place a decimal is found. -/
theorem isSome_onGrid?_of_le (hm : 0 < m.mantissa) (h : (10 : ℚ) ^ k ≤ 2 ^ (m.exponent - 2)) :
    (m.onGrid? k).isSome := by
  refine isSome_onGrid? hm ?_
  have hten : (0 : ℚ) < 10 ^ k := by positivity
  have hpower : (2 : ℚ) ^ (m.exponent - 2) = 2 ^ m.exponent / 4 := by
    rw [zpow_sub₀ two_ne_zero]
    norm_num
  have hpos : (0 : ℚ) < 2 ^ m.exponent := by positivity
  have hfloor : (⌊m.value / 10 ^ k⌋₊ : ℚ) * 10 ^ k ≤ m.value :=
    (le_div_iff₀ hten).mp (Nat.floor_le (div_nonneg m.value_nonneg hten.le))
  have hceil : m.value < (⌊m.value / 10 ^ k⌋₊ + 1 : ℚ) * 10 ^ k :=
    (div_lt_iff₀ hten).mp (Nat.lt_floor_add_one _)
  have hhigh : m.value < (m.mantissa + 1 / 2) * 2 ^ m.exponent := by
    unfold value
    gcongr
    norm_num
  have hlow : (m.mantissa - if m.nearBelow then 1 / 4 else 1 / 2) * 2 ^ m.exponent ≤
      m.value - 2 ^ (m.exponent - 2) := by
    have hnear : (1 / 4 : ℚ) ≤ if m.nearBelow then 1 / 4 else 1 / 2 := by split_ifs <;> norm_num
    rw [hpower, value]
    nlinarith
  have hlt : m.value - 2 ^ (m.exponent - 2) < (⌊m.value / 10 ^ k⌋₊ : ℚ) * 10 ^ k := by linarith
  exact ⟨(hlow.trans_lt hlt).le, hfloor.trans hhigh.le,
    fun _ => ⟨hlow.trans_lt hlt, hfloor.trans_lt hhigh⟩⟩

/-- A magnitude that is a whole number is found among the whole numbers. -/
theorem isSome_onGrid?_zero (hm : 0 < m.mantissa) (h : ∃ n : ℕ, m.value = n) :
    (m.onGrid? 0).isSome := by
  obtain ⟨n, hn⟩ := h
  refine isSome_onGrid? hm ?_
  rw [zpow_zero, div_one, mul_one, hn, Nat.floor_natCast, ← hn]
  exact m.readsBack_value

/-! ## The search -/

/-- The search finds something if some grid it comes to has something. -/
theorem onGrid?_search {j : ℤ} (hj : (m.onGrid? j).isSome) (fuel : Nat) (hk : j ≤ k)
    (hfuel : k - j < fuel) : m.onGrid? (m.search fuel k).exponent = some (m.search fuel k).digits ∧
      j ≤ (m.search fuel k).exponent := by
  induction fuel generalizing k with
  | zero => omega
  | succ fuel ih =>
    rw [search]
    cases hfound : m.onGrid? k with
    | some digits => exact ⟨hfound, hk⟩
    | none =>
      have hne : j ≠ k := fun heq => by simp [heq, hfound] at hj
      exact ih (by omega) (by push_cast at hfuel; omega)

/-- Twenty-three grids below a power of ten that the magnitude does not exceed, steps are at most a
quarter of the last place. -/
theorem ten_zpow_decade_le (hm : Width.double.Has m) :
    (10 : ℚ) ^ (m.decade - 23) ≤ 2 ^ (m.exponent - 2) := by
  obtain ⟨hlowest, hlt, -, -, hencode⟩ := hm
  simp only [Width.encode, Width.unit, Width.lowest, Width.infinity, Width.double]
    at hlowest hlt hencode
  norm_num at hlowest hlt hencode
  have hlog : m.mantissa.log2 < 53 := by
    obtain hzero | hpos := Nat.eq_zero_or_pos m.mantissa
    · simp [hzero]
    · exact (Nat.log2_lt hpos.ne').mpr (by omega)
  refine ten_zpow_le ?_ ?_ <;> unfold decade <;> omega

theorem isWhole_iff (m : Magnitude) : m.isWhole = true ↔ ∃ n : ℕ, m.value = n := by
  have hpos : (0 : ℚ) < m.denominator := by exact_mod_cast m.denominator_pos
  rw [isWhole, decide_eq_true_eq, ← m.numerator_div_denominator, ← Nat.dvd_iff_mod_eq_zero]
  constructor
  · rintro ⟨n, hn⟩
    refine ⟨n, ?_⟩
    rw [hn]
    push_cast
    field_simp
  · rintro ⟨n, hn⟩
    refine ⟨n, ?_⟩
    rw [div_eq_iff hpos.ne'] at hn
    rw [mul_comm]
    exact_mod_cast hn

theorem decade_nonneg (hm : 0 < m.mantissa) (h : ∃ n : ℕ, m.value = n) : 0 ≤ m.decade := by
  obtain ⟨n, hn⟩ := h
  have hlog : (m.mantissa : ℚ) < 2 ^ ((m.mantissa.log2 : ℤ) + 1) := by
    exact_mod_cast Nat.lt_log2_self
  have hvalue_pos : 0 < m.value := by
    unfold value
    positivity
  have hone : 1 ≤ m.value := by
    rw [hn] at hvalue_pos ⊢
    exact_mod_cast hvalue_pos
  have hlt : (2 : ℚ) ^ (0 : ℤ) < 2 ^ ((m.mantissa.log2 : ℤ) + 1 + m.exponent) := by
    calc (2 : ℚ) ^ (0 : ℤ) ≤ m.value := by rwa [zpow_zero]
      _ < 2 ^ ((m.mantissa.log2 : ℤ) + 1) * 2 ^ m.exponent := by
        unfold value
        gcongr
      _ = 2 ^ ((m.mantissa.log2 : ℤ) + 1 + m.exponent) := (zpow_add₀ two_ne_zero _ _).symm
  have hexponent := (zpow_lt_zpow_iff_right₀ (one_lt_two (α := ℚ))).mp hlt
  unfold decade
  omega

/-- A whole number that reads back as a magnitude is the magnitude. -/
theorem isWhole_of_readsBack {n : Nat} (h : m.ReadsBack n) : m.isWhole = true := by
  rw [isWhole_iff]
  obtain hexponent | hexponent := le_total 0 m.exponent
  · obtain ⟨e, he⟩ := Int.eq_ofNat_of_zero_le hexponent
    exact ⟨m.mantissa * 2 ^ e, by simp [value, he]⟩
  · obtain ⟨e, he⟩ := Int.eq_ofNat_of_zero_le (Int.neg_nonneg_of_nonpos hexponent)
    have hpower : (2 : ℚ) ^ m.exponent * (2 ^ e : ℕ) = 1 := by
      rw [show m.exponent = -(e : ℤ) by omega]
      simp
    have hscale (x : ℚ) : x * 2 ^ m.exponent * (2 ^ e : ℕ) = x := by
      rw [mul_assoc, hpower, mul_one]
    have hlow : (m.mantissa - 1 / 2 : ℚ) ≤ n * (2 ^ e : ℕ) := by
      rw [← hscale (m.mantissa - 1 / 2)]
      gcongr
      exact m.half_le.trans h.le
    have hhigh : (n : ℚ) * (2 ^ e : ℕ) ≤ m.mantissa + 1 / 2 := by
      rw [← hscale (m.mantissa + 1 / 2)]
      gcongr
      exact h.ge
    have hmantissa : m.mantissa = n * 2 ^ e := by
      have hle : (m.mantissa : ℚ) < (n * 2 ^ e : ℕ) + 1 := by push_cast at hlow ⊢; linarith
      have hge : ((n * 2 ^ e : ℕ) : ℚ) < m.mantissa + 1 := by push_cast at hhigh ⊢; linarith
      norm_cast at hle hge
      omega
    refine ⟨n, ?_⟩
    rw [value, hmantissa, Nat.cast_mul, mul_assoc, mul_comm ((2 ^ e : ℕ) : ℚ), hpower, mul_one]

/-- The shortest decimal reads back, and it is a whole number just when the magnitude is. -/
theorem shortest_spec (hm : Width.double.Has m) :
    m.ReadsBack (m.shortest.digits * 10 ^ m.shortest.exponent) ∧ -400 ≤ m.shortest.exponent ∧
      (m.isWhole = true ↔ 0 ≤ m.shortest.exponent) := by
  obtain hzero | hpos := Nat.eq_zero_or_pos m.mantissa
  · have hvalue : m.value = 0 := by simp [value, hzero]
    have hwhole : m.isWhole = true := m.isWhole_iff.mpr ⟨0, by simpa using hvalue⟩
    have hreads := m.readsBack_value
    rw [hvalue] at hreads
    simpa [shortest, hzero, hwhole] using hreads
  have hlowest : -1074 ≤ m.exponent := hm.lowest_le
  have hdecade : m.decade - 23 ≤ m.decade ∧ -400 ≤ m.decade - 23 := by
    unfold decade
    omega
  have hsome := isSome_onGrid?_of_le hpos (ten_zpow_decade_le hm)
  rw [shortest, if_neg hpos.ne']
  obtain ⟨hfound, hle⟩ := onGrid?_search hsome 24 hdecade.1 (by norm_num)
  have hreads := readsBack_of_onGrid? hpos hfound
  refine ⟨hreads, hdecade.2.trans hle, fun hwhole => ?_, fun hexponent => ?_⟩
  · obtain hnonneg | hneg := le_or_gt 0 (m.decade - 23)
    · exact hnonneg.trans hle
    · have hdecade_nonneg := decade_nonneg hpos (m.isWhole_iff.mp hwhole)
      have hwhole := isSome_onGrid?_zero hpos (m.isWhole_iff.mp hwhole)
      exact (onGrid?_search hwhole 24 hdecade_nonneg (by push_cast; omega)).2
  · obtain ⟨k, hk⟩ := Int.eq_ofNat_of_zero_le hexponent
    refine isWhole_of_readsBack (n := (m.search 24 m.decade).digits * 10 ^ k) ?_
    rw [hk] at hreads
    exact_mod_cast hreads

/-- Zero has no digits after the point. -/
theorem shortest_digits_pos (hm : Width.double.Has m) (h : m.shortest.exponent < 0) :
    0 < m.shortest.digits := by
  have hmantissa : 0 < m.mantissa := by
    refine Nat.pos_of_ne_zero fun hzero => ?_
    simp [shortest, hzero] at h
  refine Nat.pos_of_ne_zero fun hzero => ?_
  have hlow := m.half_le.trans (shortest_spec hm).1.le
  have hpos : (0 : ℚ) < 2 ^ m.exponent := by positivity
  have hone : (1 : ℚ) ≤ m.mantissa := by exact_mod_cast hmantissa
  rw [hzero, Nat.cast_zero, zero_mul] at hlow
  nlinarith

end Magnitude
/-! ## Texts of decimals -/

open Text (AreDigits IsNumeral natOfDigits)

namespace Scientific
variable {s : Scientific}

theorem toDigits_append_zeros {n : Nat} (hn : 0 < n) (k : Nat) :
    Nat.toDigits 10 n ++ zeros k = Nat.toDigits 10 (n * 10 ^ k) := by
  induction k with
  | zero => simp [zeros]
  | succ k ih =>
    calc Nat.toDigits 10 n ++ zeros (k + 1)
        = Nat.toDigits 10 n ++ zeros k ++ Nat.toDigits 10 0 := by
          rw [List.append_assoc]
          exact congrArg _ List.replicate_succ'
      _ = Nat.toDigits 10 (n * 10 ^ k) ++ Nat.toDigits 10 0 := by rw [ih]
      _ = Nat.toDigits 10 (10 * (n * 10 ^ k) + 0) :=
          Nat.toDigits_append_toDigits (by decide) (by positivity) (by decide)
      _ = Nat.toDigits 10 (n * 10 ^ (k + 1)) := by
          congr 1
          ring

theorem positional_of_nonneg (h : 0 ≤ s.exponent) :
    s.positional = Nat.toDigits 10 (s.digits * 10 ^ s.exponent.toNat) := by
  rw [positional, if_pos h]
  split_ifs with hzero
  · rw [hzero, Nat.zero_mul]
    rfl
  · exact toDigits_append_zeros (Nat.pos_of_ne_zero hzero) _

/-- A number with a negative exponent has digits after its point. -/
theorem exists_positional_of_neg (hdigits : 0 < s.digits) (h : s.exponent < 0) :
    ∃ whole fraction, s.positional = whole ++ '.' :: fraction ∧ IsNumeral whole ∧
      AreDigits fraction ∧ (fraction.length : ℤ) = -s.exponent ∧
        natOfDigits (whole ++ fraction) = s.digits := by
  have hnumeral := Text.isNumeral_toDigits s.digits
  have hvalue := Text.natOfDigits_toDigits s.digits
  have hhead : (Nat.toDigits 10 s.digits).head? ≠ some '0' := fun hzero => by
    rw [hnumeral.eq_zero hzero] at hvalue
    exact hdigits.ne hvalue
  rw [positional, if_neg (not_le.mpr h)]
  generalize Nat.toDigits 10 s.digits = ds at *
  split_ifs with hplaces
  · obtain ⟨n, hn⟩ : ∃ n, ds.length - (-s.exponent).toNat = n + 1 :=
      ⟨_, (Nat.succ_pred (by omega)).symm⟩
    refine ⟨_, _, rfl, ⟨?_, ?_, ?_⟩, ?_, ?_, ?_⟩
    · rw [← List.length_pos_iff, List.length_take]
      omega
    · exact fun c hc => hnumeral.digits c (List.mem_of_mem_take hc)
    · intro hzero
      rw [hn, List.head?_take] at hzero
      exact absurd (by simpa using hzero) hhead
    · exact fun c hc => hnumeral.digits c (List.mem_of_mem_drop hc)
    · rw [List.length_drop]
      omega
    · rw [List.take_append_drop, hvalue]
  · refine ⟨['0'], zeros ((-s.exponent).toNat - ds.length) ++ ds, rfl, Text.isNumeral_zero,
      (Text.areDigits_replicate _).append hnumeral.digits, ?_, ?_⟩
    · rw [List.length_append, zeros, List.length_replicate]
      omega
    · have hzeros : ['0'] ++ (zeros ((-s.exponent).toNat - ds.length) ++ ds) =
          List.replicate ((-s.exponent).toNat - ds.length + 1) '0' ++ ds := rfl
      rw [hzeros, Text.natOfDigits_append, Text.natOfDigits_replicate, hvalue, Nat.zero_mul,
        Nat.zero_add]

end Scientific

/-! ## Reading decimals back -/

variable {m : Magnitude} {n : Nat} {e : ℤ} {negative : Bool}

/-- A decimal that is too small to be told from zero reads back as nothing but zero. -/
theorem not_tooSmall (hm : Width.double.Has m) (hpos : 0 < m.mantissa) (hle : -400 ≤ e)
    (h : m.ReadsBack (n * 10 ^ e)) : -330 ≤ e + digitBound n := by
  by_contra hsmall
  unfold digitBound at hsmall
  have hlowest : -1074 ≤ m.exponent := hm.lowest_le
  have hlow : (2 : ℚ) ^ (-1075 : ℤ) ≤ n * 10 ^ e := by
    have hone : (1 : ℚ) ≤ m.mantissa := by exact_mod_cast hpos
    calc (2 : ℚ) ^ (-1075 : ℤ) ≤ 2 ^ (m.exponent - 1) := two_zpow_le (by omega)
      _ = 1 / 2 * 2 ^ m.exponent := by
        rw [zpow_sub₀ two_ne_zero]
        ring
      _ ≤ (m.mantissa - 1 / 2) * 2 ^ m.exponent := by
        gcongr
        linarith
      _ ≤ n * 10 ^ e := m.half_le.trans h.le
  have hlog : (n : ℚ) < 2 ^ ((n.log2 : ℤ) + 1) := by exact_mod_cast Nat.lt_log2_self
  have hten : (10 : ℚ) ^ e ≤ 2 ^ (-1075 - ((n.log2 : ℤ) + 1)) :=
    ten_zpow_le (by omega) (by omega)
  have hlt : (n : ℚ) * 10 ^ e < 2 ^ (-1075 : ℤ) := by
    calc (n : ℚ) * 10 ^ e < 2 ^ ((n.log2 : ℤ) + 1) * 10 ^ e := by gcongr
      _ ≤ 2 ^ ((n.log2 : ℤ) + 1) * 2 ^ (-1075 - ((n.log2 : ℤ) + 1)) := by gcongr
      _ = 2 ^ (-1075 : ℤ) := by
        rw [← zpow_add₀ two_ne_zero]
        congr 1
        ring
  exact absurd hlow (not_le.mpr hlt)

/-- The nearest float to a decimal in the interval of a magnitude is the one of the magnitude. -/
theorem bitsOfDecimal_eq (hm : Width.double.Has m) (hlow : -400 ≤ e) (hhigh : e ≤ 330)
    (h : m.ReadsBack (n * 10 ^ e)) : bitsOfDecimal n e = Width.double.encode m := by
  have hquotient : ((n * Nat.pow 10 e.toNat : ℕ) : ℚ) / (Nat.pow 10 (-e).toNat : ℕ) =
      n * 10 ^ e := by
    obtain ⟨k, rfl | rfl⟩ := e.eq_nat_or_neg <;> simp [div_eq_mul_inv]
  have hbits : Width.double.bitsOfQuotient (n * Nat.pow 10 e.toNat) (Nat.pow 10 (-e).toNat) =
      Width.double.encode m :=
    Width.bitsOfQuotient_eq hm (Nat.pow_pos (by decide : 0 < 10)) (by rwa [hquotient])
  unfold bitsOfDecimal
  split_ifs with hzero hgreat
  · obtain hmantissa | hpos := Nat.eq_zero_or_pos m.mantissa
    · exact (Width.encode_eq_zero hm hmantissa).symm
    · obtain rfl : n = 0 := by
        have := not_tooSmall hm hpos hlow h
        simpa [not_lt.mpr this] using hzero
      rw [← hbits]
      simp [Width.bitsOfQuotient]
  · omega
  · exact hbits

/-- The shortest decimal of a float, as the text of the float has it, is read back. -/
theorem nearest_eq {f : Float} (hparts : parts f = .finite negative m) (hlow : -400 ≤ e)
    (hhigh : e ≤ 330) (h : m.ReadsBack (n * 10 ^ e)) : nearest negative n e = f := by
  obtain ⟨hm, hf⟩ := of_parts_eq_finite hparts
  rw [nearest, bitsOfDecimal_eq hm hlow hhigh h, ← hf]

end SymbolAtlas.Decimal
