import SymbolAtlas.Json.Reader
import SymbolAtlas.Json.Writer
import SymbolAtlas.Proofs.Text.Digits

/-!
# Reading texts and numbers back

What the writer makes of a text or a number is read back as the same text or number, up to
where it ends. A number ends where no character follows that could belong to it.
-/

namespace SymbolAtlas.Json

/-! ## Texts -/

theorem hex4?_control : ∀ n : Fin 32,
    hex4? '0' '0' (Nat.digitChar (n / 16)) (Nat.digitChar (n % 16)) = some n.val := by
  decide

theorem readText_control (c : Char) (hc : c.toNat < 0x20) (rest : List Char) :
    readText ('\\' :: 'u' :: '0' :: '0' :: Nat.digitChar (c.toNat / 16) ::
      Nat.digitChar (c.toNat % 16) :: rest) = (readText rest).map fun (s, r) => (c :: s, r) := by
  have hhex := hex4?_control ⟨c.toNat, hc⟩
  rw [readText, hhex]
  have hlow : ¬ (0xD800 ≤ c.toNat ∧ c.toNat < 0xDC00) := by omega
  have hhigh : ¬ (0xDC00 ≤ c.toNat ∧ c.toNat < 0xE000) := by omega
  simp only [hlow, hhigh, if_false, Char.ofNat_toNat]

theorem readText_plain (c : Char) (hquote : c ≠ '"') (hslash : c ≠ '\\')
    (hc : ¬ c.toNat < 0x20) (rest : List Char) :
    readText (c :: rest) = (readText rest).map fun (s, r) => (c :: s, r) := by
  rw [readText.eq_def]
  split
  · rename_i heq
    exact absurd heq (by simp)
  · rename_i heq
    exact absurd (List.cons.inj heq).1 hquote
  · rename_i heq
    exact absurd (List.cons.inj heq).1 hslash
  · rename_i heq
    exact absurd (List.cons.inj heq).1 hslash
  · rename_i heq
    obtain ⟨rfl, rfl⟩ := List.cons.inj heq
    rw [if_neg (by simp [hc, hslash])]

/-- Reading undoes the escape of one character. -/
theorem readText_escapeChar (c : Char) (rest : List Char) :
    readText (escapeChar c ++ rest) = (readText rest).map fun (s, r) => (c :: s, r) := by
  unfold escapeChar
  by_cases hquote : c = '"'
  · subst hquote
    rfl
  by_cases hslash : c = '\\'
  · subst hslash
    rfl
  by_cases hn : c = '\n'
  · subst hn
    rfl
  by_cases hr : c = '\r'
  · subst hr
    rfl
  by_cases ht : c = '\t'
  · subst ht
    rfl
  rw [if_neg hquote, if_neg hslash, if_neg hn, if_neg hr, if_neg ht]
  by_cases h8 : c.toNat = 8
  · have hc : c = Char.ofNat 8 := by rw [← h8, Char.ofNat_toNat]
    subst hc
    rfl
  by_cases h12 : c.toNat = 12
  · have hc : c = Char.ofNat 12 := by rw [← h12, Char.ofNat_toNat]
    subst hc
    rfl
  rw [if_neg h8, if_neg h12]
  by_cases hcontrol : c.toNat < 0x20
  · rw [if_pos hcontrol]
    exact readText_control c hcontrol rest
  · rw [if_neg hcontrol]
    exact readText_plain c hquote hslash hcontrol rest

theorem readText_escaped (cs rest : List Char) :
    readText (cs.flatMap escapeChar ++ '"' :: rest) = some (cs, rest) := by
  induction cs with
  | nil => rfl
  | cons c cs ih =>
      rw [List.flatMap_cons, List.append_assoc, readText_escapeChar, ih]
      rfl

/-! ## Numbers -/

/-- No further digit follows. -/
def EndsDigits (rest : List Char) : Prop := ∀ c ∈ rest.head?, c.isDigit = false

/-- Nothing follows that could belong to a number. -/
def EndsNumber (rest : List Char) : Prop :=
  ∀ c ∈ rest.head?, c.isDigit = false ∧ c ≠ '.' ∧ c ≠ 'e' ∧ c ≠ 'E'

/-- The digits after the point are single digits. -/
def Number.WellFormed (n : Number) : Prop := ∀ d ∈ n.fraction, d < 10

theorem EndsNumber.endsDigits {rest : List Char} (h : EndsNumber rest) : EndsDigits rest :=
  fun c hc => (h c hc).1

theorem takeWhile_isDigit {ds rest : List Char} (hds : ∀ c ∈ ds, c.isDigit = true)
    (hrest : EndsDigits rest) : (ds ++ rest).takeWhile Char.isDigit = ds :=
  (Text.takeWhile_run hds hrest).1

theorem dropWhile_isDigit {ds rest : List Char} (hds : ∀ c ∈ ds, c.isDigit = true)
    (hrest : EndsDigits rest) : (ds ++ rest).dropWhile Char.isDigit = rest :=
  (Text.takeWhile_run hds hrest).2

theorem isDigit_of_mem_writeNat {n : Nat} {c : Char} (hc : c ∈ writeNat n) :
    c.isDigit = true :=
  Nat.isDigit_of_mem_toDigits (by decide) (by decide) hc

/-- The first digit of a number is a zero for zero only. -/
theorem head?_writeNat (n : Nat) : ∃ d ds, writeNat n = d :: ds ∧ (d = '0' → n = 0) :=
  Text.exists_toDigits_eq_cons n

theorem readWhole_writeNat (n : Nat) {rest : List Char} (hrest : EndsDigits rest) :
    readWhole (writeNat n ++ rest) = some (n, rest) := by
  obtain ⟨d, ds, hds, hzero⟩ := head?_writeNat n
  have hdigits : ∀ c ∈ d :: ds, c.isDigit = true := by
    intro c hc
    rw [← hds] at hc
    exact isDigit_of_mem_writeNat hc
  by_cases hd : d = '0'
  · have hn := hzero hd
    subst hn
    show readWhole ('0' :: rest) = some (0, rest)
    cases rest with
    | nil => rfl
    | cons c rest =>
        have hc := hrest c rfl
        simp [readWhole, hc]
  · have htail : ∀ c ∈ ds, c.isDigit = true := fun c hc => hdigits c (List.mem_cons_of_mem _ hc)
    have hvalue : Text.natOfDigits (d :: ds) = n := by
      rw [← hds]
      exact Text.natOfDigits_toDigits n
    have htake := takeWhile_isDigit htail hrest
    have hdrop := dropWhile_isDigit htail hrest
    rw [hds, List.cons_append, readWhole.eq_def]
    simp only [hd, if_false, hdigits d List.mem_cons_self, if_true, htake, hdrop, hvalue]

theorem writeNat_digit {d : Nat} (hd : d < 10) : writeNat d = [d.digitChar] :=
  Nat.toDigits_of_lt_base hd

theorem flatMap_writeNat {ds : List Nat} (hds : ∀ d ∈ ds, d < 10) :
    ds.flatMap writeNat = ds.map Nat.digitChar := by
  induction ds with
  | nil => rfl
  | cons d ds ih =>
      have hd := hds d List.mem_cons_self
      have hrest := ih fun e he => hds e (List.mem_cons_of_mem _ he)
      rw [List.flatMap_cons, writeNat_digit hd, hrest]
      rfl

/-- The digits after the point as they are written. -/
def writeFraction (ds : List Nat) : List Char :=
  if ds.isEmpty then [] else '.' :: ds.flatMap writeNat

theorem readFraction_written {ds : List Nat} (hds : ∀ d ∈ ds, d < 10) {rest : List Char}
    (hrest : EndsDigits rest) (hpoint : rest.head? ≠ some '.') :
    readFraction (writeFraction ds ++ rest) = some (ds, rest) := by
  cases ds with
  | nil =>
      show readFraction rest = some ([], rest)
      unfold readFraction
      split
      · exact absurd rfl hpoint
      · rfl
  | cons d ds =>
      have hdigits : ∀ c ∈ (d :: ds).map Nat.digitChar, c.isDigit = true := by
        intro c hc
        obtain ⟨e, he, rfl⟩ := List.mem_map.1 hc
        rw [Nat.isDigit_digitChar]
        exact decide_eq_true (hds e he)
      have hvalues : ((d :: ds).map Nat.digitChar).map (fun c => c.toNat - 48) = d :: ds := by
        have hback : ∀ e ∈ d :: ds, ((fun c => c.toNat - 48) ∘ Nat.digitChar) e = e :=
          fun e he => Nat.toNat_digitChar_sub_48_of_lt_ten (hds e he)
        rw [List.map_map, List.map_congr_left hback, List.map_id']
      have htake := takeWhile_isDigit hdigits hrest
      have hdrop := dropWhile_isDigit hdigits hrest
      unfold writeFraction
      rw [flatMap_writeNat hds, if_neg (by simp), List.cons_append, readFraction]
      simp only [htake, hdrop, hvalues]
      rfl

/-- An exponent as it is written. -/
def writeExponent : Option Int → List Char
  | none => []
  | some e => 'e' :: (if e < 0 then ['-'] else []) ++ writeNat e.natAbs

theorem readExponent_written (exponent : Option Int) {rest : List Char}
    (hrest : EndsNumber rest) :
    readExponent (writeExponent exponent ++ rest) = some (exponent, rest) := by
  cases exponent with
  | none =>
      show readExponent rest = some (none, rest)
      cases rest with
      | nil => rfl
      | cons c rest =>
          obtain ⟨-, -, he, hE⟩ := hrest c rfl
          simp [readExponent, he, hE]
  | some e =>
      obtain ⟨m, hm⟩ : ∃ m, e.natAbs = m := ⟨_, rfl⟩
      obtain ⟨d, ds, hds, -⟩ := head?_writeNat m
      have hdigits : ∀ c ∈ d :: ds, c.isDigit = true := by
        intro c hc
        rw [← hds] at hc
        exact isDigit_of_mem_writeNat hc
      have htake := takeWhile_isDigit hdigits hrest.endsDigits
      have hdrop := dropWhile_isDigit hdigits hrest.endsDigits
      have hvalue : Text.natOfDigits (d :: ds) = m := by
        rw [← hds]
        exact Text.natOfDigits_toDigits m
      have hd : d.isDigit = true := hdigits d List.mem_cons_self
      have hminus : d ≠ '-' := by
        rintro rfl
        exact absurd hd (by decide)
      have hplus : d ≠ '+' := by
        rintro rfl
        exact absurd hd (by decide)
      rw [List.cons_append] at htake hdrop
      by_cases hneg : e < 0
      · have hback : -(m : Int) = e := by omega
        simp [writeExponent, hneg, hm, hds, readExponent, htake, hdrop, hvalue, hback]
      · have hback : (m : Int) = e := by omega
        simp [writeExponent, hneg, hm, hds, readExponent, htake, hdrop, hvalue, hback, hminus,
          hplus]

theorem endsDigits_writeExponent (exponent : Option Int) {rest : List Char}
    (hrest : EndsNumber rest) : EndsDigits (writeExponent exponent ++ rest) := by
  cases exponent with
  | none => exact hrest.endsDigits
  | some e =>
      intro c hc
      obtain rfl : 'e' = c := Option.some.inj hc
      decide

theorem point_not_head?_writeExponent (exponent : Option Int) {rest : List Char}
    (hrest : EndsNumber rest) : (writeExponent exponent ++ rest).head? ≠ some '.' := by
  cases exponent with
  | none =>
      intro h
      exact (hrest '.' h).2.1 rfl
  | some e =>
      intro h
      exact absurd (Option.some.inj h) (by decide)

theorem endsDigits_writeFraction (ds : List Nat) {rest : List Char} (hrest : EndsDigits rest) :
    EndsDigits (writeFraction ds ++ rest) := by
  cases ds with
  | nil => exact hrest
  | cons d ds =>
      intro c hc
      obtain rfl : '.' = c := Option.some.inj hc
      decide

theorem writeNumber_eq (n : Number) :
    writeNumber n = (if n.negative then ['-'] else []) ++ (writeNat n.whole ++
      (writeFraction n.fraction ++ writeExponent n.exponent)) := by
  unfold writeNumber writeFraction writeExponent
  cases n.exponent <;> simp only [List.append_assoc]

/-- A number is read back as it was written, to the last digit and sign. -/
theorem readNumber_writeNumber {n : Number} (hn : n.WellFormed) {rest : List Char}
    (hrest : EndsNumber rest) : readNumber (writeNumber n ++ rest) = some (n, rest) := by
  have hexponent := readExponent_written n.exponent hrest
  have hafter := endsDigits_writeExponent n.exponent hrest
  have hfraction := readFraction_written hn hafter (point_not_head?_writeExponent n.exponent hrest)
  have hwhole := readWhole_writeNat n.whole (endsDigits_writeFraction n.fraction hafter)
  obtain ⟨d, ds, hds, -⟩ := head?_writeNat n.whole
  have hd : d ≠ '-' := by
    rintro rfl
    exact absurd (isDigit_of_mem_writeNat (hds ▸ List.mem_cons_self)) (by decide)
  rw [writeNumber_eq]
  obtain ⟨negative, whole, fraction, exponent⟩ := n
  cases negative with
  | true => simp [readNumber, hwhole, hfraction, hexponent]
  | false =>
      rw [hds] at hwhole
      simp only [List.cons_append] at hwhole
      simp [readNumber, hds, hd, hwhole, hfraction, hexponent]

end SymbolAtlas.Json
