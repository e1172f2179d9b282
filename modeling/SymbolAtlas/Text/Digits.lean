/-!
# Digits

The numbers that digits write, in bases up to sixteen. Reading the digits of a number gives the
number back.
-/

namespace SymbolAtlas.Text

/-- The number that decimal digits write. -/
def natOfDigits (cs : List Char) : Nat := Nat.ofDigitChars 10 cs 0

@[simp] theorem natOfDigits_toDigits (n : Nat) : natOfDigits (Nat.toDigits 10 n) = n :=
  Nat.ofDigitChars_toDigits (by decide) (by decide)

/-- The value of a digit in some base; letters of both cases are digits. -/
def digit? (base : Nat) (c : Char) : Option Nat :=
  let n :=
    if '0' ≤ c ∧ c ≤ '9' then c.toNat - 48
    else if 'a' ≤ c ∧ c ≤ 'f' then c.toNat - 87
    else if 'A' ≤ c ∧ c ≤ 'F' then c.toNat - 55
    else base
  if n < base then some n else none

/-- The number that digits write in some base; nothing if there is no digit or another character. -/
def readDigits? (base : Nat) (cs : List Char) : Option Nat :=
  if cs.isEmpty then none
  else cs.foldlM (fun n c => (digit? base c).map (base * n + ·)) 0

end SymbolAtlas.Text
