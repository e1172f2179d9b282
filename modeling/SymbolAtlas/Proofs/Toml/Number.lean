import SymbolAtlas.Proofs.Decimal.Shortest
import SymbolAtlas.Proofs.Text.Digits
import SymbolAtlas.Toml.Reader
import SymbolAtlas.Toml.Writer

/-!
# Reading numbers and words back

A whole number, a finite float and a truth value are read back as they were written, up to where no
character follows that could belong to them.
-/

namespace SymbolAtlas.Toml

open Text (AreDigits IsNumeral natOfDigits)
open Decimal (parts)

variable {cs rest : List Char}

/-! ## Digits -/

theorem ne_underscore {c : Char} (hc : c.isDigit = true) : c ≠ '_' := by
  rintro rfl
  exact absurd hc (by decide)

theorem dropUnderscores?_digits (base : Nat) (hcs : AreDigits cs) :
    dropUnderscores? base cs = some cs := by
  induction cs with
  | nil => rfl
  | cons c cs ih =>
    have hc := ne_underscore (hcs c List.mem_cons_self)
    have hrest := ih fun d hd => hcs d (List.mem_cons_of_mem _ hd)
    cases cs with
    | nil => simp [dropUnderscores?, hc]
    | cons d ds =>
      have hd := ne_underscore (hcs d (by simp))
      rw [dropUnderscores?.eq_4 _ _ _ (by simp)
        (fun _ _ h => hd (List.cons.inj h).1), if_neg hc, hrest]
      rfl

theorem readBased?_digits (hne : cs ≠ []) (hcs : AreDigits cs) :
    readBased? 10 cs = some (natOfDigits cs) := by
  rw [readBased?, dropUnderscores?_digits 10 hcs]
  exact Text.readDigits?_ten hne hcs

theorem readWhole?_numeral (h : IsNumeral cs) : readWhole? cs = some (natOfDigits cs) := by
  unfold readWhole?
  split
  · exact absurd (h.eq_zero rfl) (by simp)
  · exact readBased?_digits h.ne_nil h.digits

/-! ## Whole numbers -/

/-- A number of 64 bits with a sign. -/
def Fits (n : ℤ) : Prop := -2 ^ 63 ≤ n ∧ n < 2 ^ 63

theorem takeSign_of_isDigit {c : Char} (hc : c.isDigit = true) (cs : List Char) :
    Decimal.takeSign (c :: cs) = (false, c :: cs) := by
  unfold Decimal.takeSign
  split
  · exact absurd hc (by simp_all)
  · exact absurd hc (by simp_all)
  · rfl

theorem takeSign_sign (negative : Bool) (h : IsNumeral cs) (rest : List Char) :
    Decimal.takeSign ((if negative then ['-'] else []) ++ (cs ++ rest)) =
      (negative, cs ++ rest) := by
  cases negative with
  | true => rfl
  | false =>
    cases cs with
    | nil => exact absurd rfl h.ne_nil
    | cons c cs => exact takeSign_of_isDigit (h.digits c List.mem_cons_self) _

theorem writeInteger_eq (n : ℤ) : writeInteger n =
    (if decide (n < 0) then ['-'] else []) ++ (Nat.toDigits 10 n.natAbs ++ []) := by
  simp [writeInteger]

theorem readInteger?_writeInteger {n : ℤ} (h : Fits n) :
    readInteger? (writeInteger n) = some n := by
  have hnumeral := Text.isNumeral_toDigits n.natAbs
  have hsign := takeSign_sign (decide (n < 0)) hnumeral []
  rw [← writeInteger_eq, List.append_nil] at hsign
  have hbase (c : Char) (cs : List Char) : writeInteger n ≠ '0' :: c :: cs := fun heq => by
    rw [heq, takeSign_of_isDigit rfl] at hsign
    have hdigits : '0' :: c :: cs = Nat.toDigits 10 n.natAbs := (Prod.mk.inj hsign).2
    exact absurd (hdigits ▸ hnumeral.eq_zero (hdigits ▸ rfl)) (by simp)
  have hvalue : (if decide (n < 0) then -(n.natAbs : ℤ) else n.natAbs) = n := by
    split_ifs with hneg
    · rw [decide_eq_true_eq] at hneg
      omega
    · rw [decide_eq_true_eq] at hneg
      omega
  unfold readInteger?
  split
  · next heq => exact absurd heq (hbase _ _)
  · next heq => exact absurd heq (hbase _ _)
  · next heq => exact absurd heq (hbase _ _)
  · simp only [hsign, readWhole?_numeral hnumeral, Text.natOfDigits_toDigits, Option.bind_some,
      hvalue]
    exact if_pos h

/-! ## Floats -/

theorem isInf_of_isFinite {f : Float} (h : f.isFinite = true) : f.isInf = false := by
  unfold Float.isFinite Float.Model.isFinite at h
  unfold Float.isInf Float.Model.isInf
  cases hf : f.toModel.unpack <;>
    simp_all [Float.Model.UnpackedFloat.isFinite, Float.Model.UnpackedFloat.isInf]

/-- A finite float is written with digits on both sides of a point. -/
theorem exists_writeFloat {f : Float} {negative : Bool} {m : Decimal.Magnitude}
    (hparts : parts f = .finite negative m) :
    ∃ whole fraction, writeFloat f =
        (if negative then ['-'] else []) ++ (whole ++ '.' :: fraction) ∧
      IsNumeral whole ∧ fraction ≠ [] ∧ AreDigits fraction ∧
      Decimal.nearest negative (natOfDigits (whole ++ fraction)) (-fraction.length) = f := by
  obtain ⟨hm, -⟩ := Decimal.of_parts_eq_finite hparts
  have hwhole : isWhole f = m.isWhole := by rw [isWhole, hparts]
  have htext : writeFloat f = (if negative then ['-'] else []) ++
      (m.shortest.positional ++ if m.isWhole then ['.', '0'] else []) := by
    rw [writeFloat, hparts, Decimal.text, hparts, hwhole]
    simp
  obtain ⟨hreads, hlow, hiff⟩ := Decimal.Magnitude.shortest_spec hm
  rw [htext]
  obtain hnonneg | hneg := le_or_gt 0 m.shortest.exponent
  · rw [if_pos (hiff.mpr hnonneg), Decimal.Scientific.positional_of_nonneg hnonneg]
    refine ⟨_, ['0'], rfl, Text.isNumeral_toDigits _, by simp, Text.areDigits_replicate 1, ?_⟩
    refine Decimal.nearest_eq hparts (by simp) (by simp) ?_
    obtain ⟨k, hk⟩ := Int.eq_ofNat_of_zero_le hnonneg
    rw [Text.natOfDigits_append, Text.natOfDigits_toDigits]
    rw [hk] at hreads ⊢
    have hzero : natOfDigits ['0'] = 0 := rfl
    have hlength : ['0'].length = 1 := rfl
    rw [hzero, hlength]
    simpa using hreads
  · rw [if_neg (mt hiff.mp (not_le.mpr hneg)), List.append_nil]
    obtain ⟨whole, fraction, heq, hnumeral, hdigits, hlength, hvalue⟩ :=
      Decimal.Scientific.exists_positional_of_neg
        (Decimal.Magnitude.shortest_digits_pos hm hneg) hneg
    refine ⟨whole, fraction, congrArg _ heq, hnumeral, ?_, hdigits, ?_⟩
    · rintro rfl
      simp at hlength
      omega
    · rw [hvalue, hlength, neg_neg]
      exact Decimal.nearest_eq hparts hlow (by omega) hreads

theorem takeWhile_numberChar (hcs : AreDigits cs) (rest : List Char)
    (hrest : ∀ c ∈ rest.head?, (c.isDigit || c = '_') = false) :
    (cs ++ rest).takeWhile (fun c => c.isDigit || c = '_') = cs ∧
      (cs ++ rest).dropWhile (fun c => c.isDigit || c = '_') = rest :=
  Text.takeWhile_run (fun c hc => by simp [hcs c hc]) hrest

/-- Digits are not one of the words for floats. -/
theorem ne_word (h : IsNumeral cs) (rest : List Char) :
    cs ++ rest ≠ ['i', 'n', 'f'] ∧ cs ++ rest ≠ ['n', 'a', 'n'] := by
  cases cs with
  | nil => exact absurd rfl h.ne_nil
  | cons c cs =>
    have hc := h.digits c List.mem_cons_self
    constructor
    · intro heq
      obtain rfl : c = 'i' := (List.cons.inj heq).1
      exact absurd hc (by decide)
    · intro heq
      obtain rfl : c = 'n' := (List.cons.inj heq).1
      exact absurd hc (by decide)

/-- Whole numbers are not read as floats. -/
theorem readFloat?_writeInteger (n : ℤ) : readFloat? (writeInteger n) = none := by
  have hnumeral := Text.isNumeral_toDigits n.natAbs
  have hsign := takeSign_sign (decide (n < 0)) hnumeral []
  rw [← writeInteger_eq, List.append_nil] at hsign
  obtain ⟨hinf, hnan⟩ := ne_word hnumeral []
  obtain ⟨htake, hdrop⟩ := takeWhile_numberChar hnumeral.digits [] (by simp)
  rw [List.append_nil] at hinf hnan htake hdrop
  simp [readFloat?, hsign, hinf, hnan, htake, hdrop, readWhole?_numeral hnumeral]

theorem readFloat?_writeFloat {f : Float} (h : f.isFinite = true) :
    readFloat? (writeFloat f) = some f := by
  obtain ⟨negative, m, hparts⟩ := (Decimal.isFinite_iff f).mp h
  obtain ⟨whole, fraction, heq, hnumeral, hne, hdigits, hnearest⟩ := exists_writeFloat hparts
  obtain ⟨hinf, hnan⟩ := ne_word hnumeral ('.' :: fraction)
  obtain ⟨htake, hdrop⟩ := takeWhile_numberChar hnumeral.digits ('.' :: fraction)
    (by simp)
  obtain ⟨htake', hdrop'⟩ := takeWhile_numberChar hdigits [] (by simp)
  rw [List.append_nil] at htake' hdrop'
  have hrange : readFloat?.inRange f = some f := if_neg (by simp [isInf_of_isFinite h])
  rw [Text.natOfDigits_append] at hnearest
  rw [heq]
  simp [readFloat?, takeSign_sign negative hnumeral _, hinf, hnan, htake, hdrop, htake', hdrop',
    readWhole?_numeral hnumeral, dropUnderscores?_digits 10 hdigits, readBased?_digits hne hdigits,
    readExponent?, hnearest, hrange]

/-! ## Dates and times -/

theorem drop_of_readNumber {digits low high : Nat} {ds after : List Char}
    (h : Moment.readNumber digits low high cs = some (ds, after)) : after = cs.drop digits := by
  unfold Moment.readNumber at h
  simp only [Option.bind_eq_bind] at h
  split at h
  · cases h
  · obtain ⟨n, -, h⟩ := Option.bind_eq_some_iff.mp h
    split at h
    · exact (Prod.mk.inj (Option.some.inj h)).2.symm
    · cases h

theorem readChar_eq_none {c : Char} (h : c ∉ cs) : Moment.readChar c cs = none := by
  cases cs with
  | nil => rfl
  | cons d cs => exact if_neg fun heq : c = d => h (heq ▸ List.mem_cons_self)

/-- A date has a minus after its first character. -/
theorem readDate_eq_none (h : '-' ∉ cs.tail) : Moment.readDate cs = none := by
  unfold Moment.readDate
  cases hyear : Moment.readNumber 4 0 9999 cs with
  | none => rfl
  | some year =>
    have hminus : '-' ∉ year.2 := fun hmem => by
      rw [drop_of_readNumber hyear, ← List.drop_drop (i := 3) (j := 1), List.drop_one] at hmem
      exact h (List.mem_of_mem_drop hmem)
    simp [readChar_eq_none hminus]

/-- A time has a colon. -/
theorem readTime_eq_none (h : ':' ∉ cs) : Moment.readTime cs = none := by
  unfold Moment.readTime
  cases hhour : Moment.readNumber 2 0 23 cs with
  | none => rfl
  | some hour =>
    have hcolon : ':' ∉ hour.2 := fun hmem => by
      rw [drop_of_readNumber hhour] at hmem
      exact h (List.mem_of_mem_drop hmem)
    simp [readChar_eq_none hcolon]

theorem standard?_eq_none (hminus : '-' ∉ cs.tail) (hcolon : ':' ∉ cs) :
    Moment.standard? cs = none := by
  rw [Moment.standard?, readDate_eq_none hminus, readTime_eq_none hcolon]

/-! ## Tokens -/

/-- Nothing follows that could belong to a number, a word or a time. -/
def EndsToken (rest : List Char) : Prop := ∀ c ∈ rest.head?, isTokenChar c = false ∧ c ≠ ' '

theorem readToken_append {token : List Char} {v : Toml}
    (htoken : ∀ c ∈ token, isTokenChar c = true) (hrest : EndsToken rest)
    (hv : (if token = "true".toList then some (.boolean true)
      else if token = "false".toList then some (.boolean false)
      else ((Moment.standard? token).map fun m => Toml.moment (String.ofList m))
        |>.or ((readFloat? token).map .float) |>.or ((readInteger? token).map .integer)) = some v) :
    readToken (token ++ rest) = some (v, rest) := by
  obtain ⟨htake, hdrop⟩ := Text.takeWhile_run htoken fun c hc => (hrest c hc).1
  unfold readToken
  rw [htake, hdrop]
  simp only [hv]
  split
  · exact absurd rfl (hrest ' ' rfl).2
  · rfl

theorem readToken_boolean (b : Bool) (hrest : EndsToken rest) :
    readToken ((if b then "true" else "false").toList ++ rest) = some (.boolean b, rest) := by
  have htoken : ∀ c ∈ (if b then "true" else "false").toList, isTokenChar c = true := by
    cases b <;> simp [isTokenChar]
  refine readToken_append htoken hrest ?_
  cases b with
  | true => exact if_pos rfl
  | false => exact (if_neg (by decide)).trans (if_pos rfl)

/-- A sign or a digit, and after it digits and points. -/
structure IsNumber (cs : List Char) : Prop where
  ne_nil : cs ≠ []
  head : ∀ c ∈ cs.head?, c = '-' ∨ c.isDigit = true
  tail : ∀ c ∈ cs.tail, c.isDigit = true ∨ c = '.'

theorem isNumber_sign (negative : Bool) (h : IsNumeral cs)
    (hrest : ∀ c ∈ rest, c.isDigit = true ∨ c = '.') :
    IsNumber ((if negative then ['-'] else []) ++ (cs ++ rest)) := by
  have hall : ∀ c ∈ cs ++ rest, c.isDigit = true ∨ c = '.' := fun c hc =>
    (List.mem_append.mp hc).elim (fun hc => .inl (h.digits c hc)) (hrest c)
  cases negative with
  | true => exact ⟨by simp, by simp, hall⟩
  | false =>
    cases cs with
    | nil => exact absurd rfl h.ne_nil
    | cons c cs =>
      refine ⟨by simp, by simp [h.digits c List.mem_cons_self], fun d hd => ?_⟩
      exact hall d (List.mem_cons_of_mem _ hd)

theorem IsNumber.mem (h : IsNumber cs) : ∀ c ∈ cs, c = '-' ∨ c.isDigit = true ∨ c = '.' := by
  cases cs with
  | nil => simp
  | cons d ds =>
    intro c hc
    obtain rfl | hc := List.mem_cons.mp hc
    · exact (h.head c rfl).imp_right .inl
    · exact .inr (h.tail c hc)

theorem IsNumber.readToken_append (h : IsNumber cs) {v : Toml} (hrest : EndsToken rest)
    (hv : ((readFloat? cs).map Toml.float).or ((readInteger? cs).map .integer) = some v) :
    readToken (cs ++ rest) = some (v, rest) := by
  have hword {word : List Char} (hhead : ∃ c ∈ word.head?, c ≠ '-' ∧ c.isDigit = false) :
      cs ≠ word := by
    rintro rfl
    obtain ⟨c, hc, hminus, hdigit⟩ := hhead
    simpa [hminus, hdigit] using h.head c hc
  have hminus : '-' ∉ cs.tail := fun hmem => by simpa using h.tail _ hmem
  have hcolon : ':' ∉ cs := fun hmem => by simpa using h.mem _ hmem
  refine Toml.readToken_append (fun c hc => ?_) hrest ?_
  · obtain rfl | hdigit | rfl := h.mem c hc
    · decide
    · simp [isTokenChar, Char.isAlphanum, hdigit]
    · decide
  · rw [if_neg (hword ⟨'t', rfl, by decide⟩), if_neg (hword ⟨'f', rfl, by decide⟩),
      standard?_eq_none hminus hcolon]
    exact hv

theorem isNumber_writeInteger (n : ℤ) : IsNumber (writeInteger n) := by
  rw [writeInteger_eq]
  exact isNumber_sign _ (Text.isNumeral_toDigits _) (by simp)

theorem isNumber_writeFloat {f : Float} (h : f.isFinite = true) : IsNumber (writeFloat f) := by
  obtain ⟨negative, m, hparts⟩ := (Decimal.isFinite_iff f).mp h
  obtain ⟨whole, fraction, heq, hnumeral, -, hdigits, -⟩ := exists_writeFloat hparts
  rw [heq]
  refine isNumber_sign _ hnumeral fun c hc => ?_
  obtain rfl | hc := List.mem_cons.mp hc
  · exact .inr rfl
  · exact .inl (hdigits c hc)

theorem readToken_writeInteger {n : ℤ} (h : Fits n) (hrest : EndsToken rest) :
    readToken (writeInteger n ++ rest) = some (.integer n, rest) := by
  refine (isNumber_writeInteger n).readToken_append hrest ?_
  rw [readFloat?_writeInteger, readInteger?_writeInteger h]
  rfl

theorem readToken_writeFloat {f : Float} (h : f.isFinite = true) (hrest : EndsToken rest) :
    readToken (writeFloat f ++ rest) = some (.float f, rest) := by
  refine (isNumber_writeFloat h).readToken_append hrest ?_
  rw [readFloat?_writeFloat h]
  rfl

end SymbolAtlas.Toml
