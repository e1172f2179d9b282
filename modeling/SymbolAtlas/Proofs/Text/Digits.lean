import Mathlib.Tactic
import SymbolAtlas.Text.Digits

/-!
# Decimal digits

Where a run of characters ends, what texts of decimal digits write, and how the digits of a number
begin.
-/

namespace SymbolAtlas.Text

variable {cs ds : List Char} {c : Char}

/-- A run of characters of one kind ends where another follows. -/
theorem takeWhile_run {p : Char → Bool} {rest : List Char} (hcs : ∀ c ∈ cs, p c = true)
    (hrest : ∀ c ∈ rest.head?, p c = false) :
    (cs ++ rest).takeWhile p = cs ∧ (cs ++ rest).dropWhile p = rest := by
  rw [List.takeWhile_append_of_pos hcs, List.dropWhile_append_of_pos hcs]
  cases rest with
  | nil => simp
  | cons c rest =>
    have hc := hrest c rfl
    simp [hc]

/-- A text of decimal digits. -/
def AreDigits (cs : List Char) : Prop := ∀ c ∈ cs, c.isDigit = true

theorem areDigits_toDigits (n : Nat) : AreDigits (Nat.toDigits 10 n) :=
  fun _ => Nat.isDigit_of_mem_toDigits (by decide) (by decide)

theorem areDigits_replicate (n : Nat) : AreDigits (List.replicate n '0') := fun c hc => by
  rw [List.eq_of_mem_replicate hc]
  rfl

theorem AreDigits.append (h : AreDigits cs) (h' : AreDigits ds) : AreDigits (cs ++ ds) :=
  fun c hc => (List.mem_append.mp hc).elim (h c) (h' c)

theorem natOfDigits_append (cs ds : List Char) :
    natOfDigits (cs ++ ds) = natOfDigits cs * 10 ^ ds.length + natOfDigits ds := by
  rw [natOfDigits, Nat.ofDigitChars_append, Nat.ofDigitChars_eq_ofDigitChars_zero, mul_comm]
  rfl

theorem natOfDigits_replicate (n : Nat) : natOfDigits (List.replicate n '0') = 0 := by
  simp [natOfDigits]

theorem digit?_ten (hc : c.isDigit = true) : digit? 10 c = some (natOfDigits [c]) := by
  obtain ⟨hlow, hhigh⟩ : 48 ≤ c.toNat ∧ c.toNat ≤ 57 := Char.isDigit_iff_toNat.mp hc
  have hrange : '0' ≤ c ∧ c ≤ '9' := ⟨hlow, hhigh⟩
  simp only [digit?, if_pos hrange]
  rw [if_pos (by omega)]
  simp [natOfDigits, Nat.ofDigitChars]

/-- Digits are read in base ten as they are read one after another. -/
theorem readDigits?_ten (hne : cs ≠ []) (hcs : AreDigits cs) :
    readDigits? 10 cs = some (natOfDigits cs) := by
  have hfold (n : Nat) : cs.foldlM (fun n c => (digit? 10 c).map (10 * n + ·)) n =
      some (Nat.ofDigitChars 10 cs n) := by
    clear hne
    induction cs generalizing n with
    | nil => rfl
    | cons c cs ih =>
      have hdigit := digit?_ten (hcs c List.mem_cons_self)
      rw [List.foldlM_cons, hdigit, Nat.ofDigitChars_cons]
      have hrest := ih fun d hd => hcs d (List.mem_cons_of_mem _ hd)
      simpa [natOfDigits, Nat.ofDigitChars] using hrest _
  rw [readDigits?, if_neg (by simpa using hne)]
  exact hfold 0

/-- The first digit of a number is a zero for zero only. -/
theorem exists_toDigits_eq_cons (n : Nat) :
    ∃ d ds, Nat.toDigits 10 n = d :: ds ∧ (d = '0' → n = 0) := by
  induction n using Nat.strongRecOn with
  | ind n ih =>
    by_cases hn : n < 10
    · exact ⟨n.digitChar, [], Nat.toDigits_of_lt_base hn, Nat.digitChar_eq_zero.mp⟩
    · obtain ⟨d, ds, hds, hzero⟩ := ih (n / 10) (by omega)
      refine ⟨d, ds ++ [(n % 10).digitChar], ?_, fun h => ?_⟩
      · rw [Nat.toDigits_of_base_le (by decide) (by omega), hds]
        rfl
      · have := hzero h
        omega

/-- Digits that do not start with a zero unless it is the only one. -/
structure IsNumeral (cs : List Char) : Prop where
  ne_nil : cs ≠ []
  digits : AreDigits cs
  eq_zero : cs.head? = some '0' → cs = ['0']

theorem isNumeral_zero : IsNumeral ['0'] := ⟨by simp, areDigits_replicate 1, fun _ => rfl⟩

theorem isNumeral_toDigits (n : Nat) : IsNumeral (Nat.toDigits 10 n) where
  ne_nil := Nat.toDigits_ne_nil
  digits := areDigits_toDigits n
  eq_zero h := by
    obtain ⟨d, ds, hds, hzero⟩ := exists_toDigits_eq_cons n
    rw [hds] at h
    rw [hzero (Option.some.inj h)]
    rfl

end SymbolAtlas.Text
