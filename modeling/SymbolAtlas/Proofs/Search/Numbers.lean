import SymbolAtlas.Proofs.Search.Order

/-!
# Scores that are numbers

A float that is not a number is comparable with nothing, so floats as a whole are not ordered. The
numbers among them are, and every score that a strategy gives is a number, since it is fixed or
exceeds the least that counts.
-/

namespace SymbolAtlas

/-- Scores of which the numbers are totally preordered. -/
class NumericScore (σ : Type) [Score σ] where
  IsNumber : σ → Prop
  transCmp : Std.TransCmp fun a b : { a // IsNumber a } => Score.order a.1 b.1
  isNumber_tenths : ∀ n ≤ 10, IsNumber (Score.tenths n)
  isNumber_of_less : ∀ a b, Score.less a b = true → IsNumber b

/-- Scores of a linear order are all numbers. -/
instance {σ : Type} [LinearOrder σ] [Score σ] [LawfulScore σ] : NumericScore σ where
  IsNumber _ := True
  transCmp := transCmp_on Score.order Subtype.val
  isNumber_tenths _ _ := trivial
  isNumber_of_less _ _ _ := trivial

/-! ## Floats -/

namespace FloatOrder

open Float.Model

/-- Where a float stands: its sign and whether it is infinite, then its exponent and its mantissa,
which count the other way below zero. -/
def key : UnpackedFloat → Int × Int × Int
  | .infinity .negative => (-2, 0, 0)
  | .finite .negative m e _ => (-1, -e, -m)
  | .finite .positive m e _ => (1, e, m)
  | .infinity .positive => (2, 0, 0)
  | _ => (0, 0, 0)

def compareKeys : Int × Int × Int → Int × Int × Int → Ordering :=
  compareLex (compareOn (·.1)) (compareLex (compareOn (·.2.1)) (compareOn (·.2.2)))

instance : Std.TransCmp compareKeys :=
  inferInstanceAs (Std.TransCmp (compareLex _ (compareLex _ _)))

theorem compare_neg (a b : Int) : compare (-a) (-b) = (compare a b).swap := by
  change compareOfLessAndEq (-a) (-b) = (compareOfLessAndEq a b).swap
  unfold compareOfLessAndEq
  split_ifs <;> first | rfl | omega

theorem compare_natCast (a b : Nat) : compare (a : Int) b = compare a b := by
  change compareOfLessAndEq (a : Int) b = compareOfLessAndEq a b
  unfold compareOfLessAndEq
  split_ifs <;> first | rfl | omega

/-- Floats that are numbers are compared by where they stand. -/
theorem compare_eq {a b : UnpackedFloat} (ha : a ≠ .notANumber) (hb : b ≠ .notANumber) :
    a.compare b = some (compareKeys (key a) (key b)) := by
  rcases a with s | _ | _ | ⟨s, m, e, _⟩
  · rcases b with t | _ | _ | ⟨t, n, f, _⟩
    · cases s <;> cases t <;> rfl
    · exact absurd rfl hb
    · cases s <;> rfl
    · cases s <;> cases t <;> rfl
  · exact absurd rfl ha
  · rcases b with t | _ | _ | ⟨t, n, f, _⟩
    · cases t <;> rfl
    · exact absurd rfl hb
    · rfl
    · cases t <;> rfl
  · rcases b with t | _ | _ | ⟨t, n, f, _⟩
    · cases s <;> cases t <;> rfl
    · exact absurd rfl hb
    · cases s <;> rfl
    · -- Only floats of one sign are told apart by their exponents and mantissas.
      cases s <;> cases t
      · change some ((compare e f).then (compare m n)).swap =
          some ((compare (-e) (-f)).then (compare (-(m : Int)) (-(n : Int))))
        rw [compare_neg, compare_neg, compare_natCast, Ordering.swap_then]
      · rfl
      · rfl
      · change some ((compare e f).then (compare m n)) =
          some ((compare e f).then (compare (m : Int) n))
        rw [compare_natCast]

theorem compare_notANumber (a : UnpackedFloat) : a.compare .notANumber = none := by
  cases a <;> rfl

theorem isNaN_eq_false_iff {a : Float32} :
    a.isNaN = false ↔ a.toModel.unpack ≠ .notANumber := by
  change a.toModel.unpack.isNaN = false ↔ _
  cases a.toModel.unpack with
  | notANumber => exact iff_of_false (by decide) (not_not_intro rfl)
  | infinity s | zero | finite s m e hm => exact iff_of_true rfl nofun

theorem less_iff {a b : Float32} :
    Score.less a b = true ↔ a.toModel.unpack.compare b.toModel.unpack = some .lt := by
  change decide (a < b) = true ↔ _
  rw [decide_eq_true_eq]
  change Float32.lt a b = true ↔ _
  unfold Float32.lt
  rw [decide_eq_true_eq, ← beq_iff_eq]
  rfl

/-- The order of floats that are numbers. -/
theorem order_eq {a b : Float32} (ha : a.isNaN = false) (hb : b.isNaN = false) :
    Score.order a b = compareKeys (key a.toModel.unpack) (key b.toModel.unpack) := by
  have hab := compare_eq (isNaN_eq_false_iff.mp ha) (isNaN_eq_false_iff.mp hb)
  have hba := compare_eq (isNaN_eq_false_iff.mp hb) (isNaN_eq_false_iff.mp ha)
  rw [@Std.OrientedCmp.eq_swap _ compareKeys] at hba
  unfold Score.order
  simp only [less_iff, hab, hba]
  cases compareKeys (key a.toModel.unpack) (key b.toModel.unpack) <;> rfl

theorem isNaN_eq_false_of_less {a b : Float32} (h : Score.less a b = true) :
    b.isNaN = false := by
  rw [isNaN_eq_false_iff]
  intro hb
  rw [less_iff, hb, compare_notANumber] at h
  cases h

end FloatOrder

open FloatOrder in
instance : NumericScore Float32 where
  IsNumber a := a.isNaN = false
  transCmp :=
    { eq_swap := fun {a b} => by
        rw [order_eq a.2 b.2, order_eq b.2 a.2]
        exact Std.OrientedCmp.eq_swap
      isLE_trans := fun {a b c} => by
        rw [order_eq a.2 b.2, order_eq b.2 c.2, order_eq a.2 c.2]
        exact Std.TransCmp.isLE_trans }
  isNumber_tenths := by decide
  isNumber_of_less _ _ := isNaN_eq_false_of_less

end SymbolAtlas
