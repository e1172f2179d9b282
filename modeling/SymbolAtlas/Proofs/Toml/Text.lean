import Mathlib.Tactic
import SymbolAtlas.Toml.Text

/-!
# Reading texts back

A text is read back as it was written, whichever of the four ways it was written in, up to its
closing quotes.
-/

namespace SymbolAtlas.Toml

variable {c : Char} {cs rest : List Char} {fuel : Nat}

/-! ## Escapes -/

/-- The four digits of a control character give its code point. -/
theorem readCodePoint_hex4 (hc : c.toNat < 128) (rest : List Char) :
    readCodePoint 4 (hex4 c.toNat ++ rest) = some (c, rest) := by
  have hdigits : ∀ n : Fin 128,
      (hex4 n).length = 4 ∧ Text.readDigits? 16 (hex4 n) = some n.val := by
    decide +kernel
  obtain ⟨hlength, hread⟩ := hdigits ⟨c.toNat, hc⟩
  dsimp only at hlength hread
  have htake : (hex4 c.toNat ++ rest).take 4 = hex4 c.toNat := by rw [← hlength, List.take_left]
  have hdrop : (hex4 c.toNat ++ rest).drop 4 = rest := by rw [← hlength, List.drop_left]
  have hlow : c.toNat < 0xD800 := by omega
  simp only [readCodePoint, htake, hdrop, hlength, hread]
  simp [hlow, Char.ofNat_toNat]

theorem toNat_lt_of_not_isPlain (h : isPlain c = false) : c.toNat < 128 := by
  simp only [isPlain, Bool.or_eq_false_iff, Bool.and_eq_false_iff, decide_eq_false_iff_not] at h
  omega

/-- What may follow the backslash of an escape: no blank and no end of a line. -/
def StartsEscape (e : List Char) : Prop :=
  ∀ d ∈ e.head?, isBlank d = false ∧ d ≠ '\n' ∧ d ≠ '\r'

/-- A character is written as it is, or as an escape that is read as the character. -/
theorem escapeChar_cases (c : Char) :
    escapeChar c = [c] ∧ isPlain c = true ∧ c ≠ '"' ∧ c ≠ '\\' ∨
      ∃ e, escapeChar c = '\\' :: e ∧ e ≠ [] ∧ StartsEscape e ∧
        ∀ rest, readEscape (e ++ rest) = some (c, rest) := by
  have hshort (d : Char) (h : unescape? d = some c)
      (hd : d ∈ ['b', 't', 'n', 'f', 'r', '"', '\\']) :
      ∃ e, ['\\', d] = '\\' :: e ∧ e ≠ [] ∧ StartsEscape e ∧
        ∀ rest, readEscape (e ++ rest) = some (c, rest) := by
    have hall : ∀ d ∈ ['b', 't', 'n', 'f', 'r', '"', '\\'],
        d ≠ 'u' ∧ d ≠ 'U' ∧ isBlank d = false ∧ d ≠ '\n' ∧ d ≠ '\r' := by simp [isBlank]
    obtain ⟨hu, hU, hstart⟩ := hall d hd
    refine ⟨[d], rfl, by simp, by simp [StartsEscape, hstart], fun rest => ?_⟩
    rw [List.cons_append, readEscape, if_neg hu, if_neg hU, h]
    rfl
  unfold escapeChar
  split_ifs with h8 ht hn h12 hr hquote hslash hplain
  · have hc : c = Char.ofNat 8 := by rw [← h8, Char.ofNat_toNat]
    exact .inr (hshort 'b' (by rw [hc]; rfl) (by simp))
  · exact .inr (hshort 't' (by rw [ht]; rfl) (by simp))
  · exact .inr (hshort 'n' (by rw [hn]; rfl) (by simp))
  · have hc : c = Char.ofNat 12 := by rw [← h12, Char.ofNat_toNat]
    exact .inr (hshort 'f' (by rw [hc]; rfl) (by simp))
  · exact .inr (hshort 'r' (by rw [hr]; rfl) (by simp))
  · exact .inr (hshort '"' (by rw [hquote]; rfl) (by simp))
  · exact .inr (hshort '\\' (by rw [hslash]; rfl) (by simp))
  · exact .inl ⟨rfl, hplain, hquote, hslash⟩
  · right
    refine ⟨'u' :: hex4 c.toNat, rfl, by simp, by simp [StartsEscape, isBlank], fun rest => ?_⟩
    exact readCodePoint_hex4 (toNat_lt_of_not_isPlain (Bool.eq_false_iff.mpr hplain)) rest

/-! ## One line -/

/-- Reading undoes the escape of one character. -/
theorem readBasic_escapeChar (fuel : Nat) (c : Char) (rest : List Char) :
    readBasic (fuel + 1) (escapeChar c ++ rest) =
      (readBasic fuel rest).map fun (cs, rest) => (c :: cs, rest) := by
  obtain ⟨heq, hplain, hquote, hslash⟩ | ⟨e, heq, -, -, hread⟩ := escapeChar_cases c
  · rw [heq, List.singleton_append, readBasic, if_neg hquote, if_neg hslash, if_pos hplain]
    cases readBasic fuel rest <;> rfl
  · rw [heq, List.cons_append, readBasic, if_neg (by decide), if_pos rfl, hread]
    change (do let (cs, rest) ← readBasic fuel rest; some (c :: cs, rest)) = _
    cases readBasic fuel rest <;> rfl

theorem readBasic_escaped (hfuel : cs.length < fuel) :
    readBasic fuel (cs.flatMap escapeChar ++ '"' :: rest) = some (cs, rest) := by
  induction cs generalizing fuel with
  | nil =>
    obtain ⟨fuel, rfl⟩ := Nat.exists_eq_add_of_lt hfuel
    rfl
  | cons c cs ih =>
    obtain ⟨fuel, rfl⟩ : ∃ n, fuel = n + 1 := ⟨fuel - 1, by omega⟩
    rw [List.flatMap_cons, List.append_assoc, readBasic_escapeChar,
      ih (Nat.lt_of_succ_lt_succ hfuel)]
    rfl

/-- A text without quotes and controls stands for itself between single quotes. -/
theorem readLiteral_plain (hplain : ∀ c ∈ cs, isPlain c = true) (hquote : '\'' ∉ cs) :
    readLiteral (cs ++ '\'' :: rest) = some (cs, rest) := by
  induction cs with
  | nil => simp [readLiteral]
  | cons c cs ih =>
    rw [List.forall_mem_cons] at hplain
    rw [List.mem_cons, not_or] at hquote
    rw [List.cons_append, readLiteral, if_neg (Ne.symm hquote.1), if_pos hplain.1,
      ih hplain.2 hquote.2]
    rfl

/-! ## Several lines -/

/-- No quote of this kind follows. -/
def EndsQuotes (quote : Char) (rest : List Char) : Prop := rest.head? ≠ some quote

/-- Quotes before the closing ones belong to the text, up to two of them. -/
theorem closing_replicate {quote : Char} {n : Nat} (hn : n ≤ 2) (hrest : EndsQuotes quote rest) :
    closing quote (List.replicate n quote ++ rest) = (List.replicate n quote, rest) := by
  have htake : (List.replicate n quote ++ rest).takeWhile (· = quote) = List.replicate n quote := by
    rw [List.takeWhile_append_of_pos (by simp)]
    cases rest with
    | nil => simp
    | cons c rest =>
      have hc : c ≠ quote := fun heq => hrest (congrArg some heq)
      simp [hc]
  simp only [closing, htake, List.take_replicate, List.length_replicate, min_eq_right hn,
    List.drop_left']

theorem readNewline_cons (hnewline : c ≠ '\n') (hreturn : c ≠ '\r') (rest : List Char) :
    readNewline (c :: rest) = none := by
  unfold readNewline
  split
  · next heq => exact absurd (List.cons.inj heq).1 hnewline
  · next heq => exact absurd (List.cons.inj heq).1 hreturn
  · rfl

theorem readBasicLines_closing (fuel : Nat) (rest : List Char) :
    readBasicLines (fuel + 1) ('"' :: '"' :: '"' :: rest) = some (closing '"' rest) := rfl

/-- A character that closes nothing. -/
theorem readBasicLines_cons (fuel : Nat) (hslash : c ≠ '\\') (hplain : isPlain c = true ∨ c = '\n')
    (hquotes : ¬ (c = '"' ∧ ∃ rest', rest = '"' :: '"' :: rest')) :
    readBasicLines (fuel + 1) (c :: rest) =
      (readBasicLines fuel rest).map fun (cs, rest) => (c :: cs, rest) := by
  have hreturn : c ≠ '\r' := by
    rintro rfl
    revert hplain
    decide
  rw [readBasicLines, if_neg hslash, if_pos (by simpa using hplain)]
  · cases readBasicLines fuel rest <;> rfl
  · exact fun rest' hquote heq => hquotes ⟨hquote, rest', heq⟩
  · exact fun _ heq _ => hreturn heq

theorem readBasicLines_escape (fuel : Nat) {e : List Char} (he : e ≠ []) (hstart : StartsEscape e)
    (hread : readEscape (e ++ rest) = some (c, rest)) :
    readBasicLines (fuel + 1) ('\\' :: (e ++ rest)) =
      (readBasicLines fuel rest).map fun (cs, rest) => (c :: cs, rest) := by
  obtain ⟨d, e, rfl⟩ := List.exists_cons_of_ne_nil he
  obtain ⟨hblank, hnewline, hreturn⟩ := hstart d rfl
  rw [List.cons_append] at hread ⊢
  have hskip : skipBlanks (d :: (e ++ rest)) = d :: (e ++ rest) := by
    rw [skipBlanks, List.dropWhile_cons, hblank]
    rfl
  rw [readBasicLines, if_pos rfl, hskip, readNewline_cons hnewline hreturn, if_neg (by simp),
    hread]
  · change (do let (cs, rest) ← readBasicLines fuel rest; some (c :: cs, rest)) = _
    cases readBasicLines fuel rest <;> rfl
  · exact fun _ heq => absurd heq (by decide)
  · exact fun _ heq => absurd heq (by decide)

/-- What is written begins with a quote only where the text does and fewer than two are before. -/
theorem eq_quote_of_escapeLines {quotes : Nat} {after text : List Char}
    (h : escapeLines quotes (c :: cs) ++ after = '"' :: text) :
    c = '"' ∧ quotes ≠ 2 ∧ escapeLines (quotes + 1) cs ++ after = text := by
  rw [escapeLines] at h
  split_ifs at h with hquote htwo hnewline
  · cases h
  · exact ⟨hquote, htwo, (List.cons.inj h).2⟩
  · cases h
  · obtain ⟨heq, -, hc, -⟩ | ⟨e, heq, -⟩ := escapeChar_cases c
    · rw [heq] at h
      exact absurd (List.cons.inj h).1 hc
    · rw [heq] at h
      cases h

/-- Where a quote is followed by two more, the text has no more than quotes up to its end. -/
theorem eq_replicate_of_quotes {quotes : Nat} {text : List Char} (hlow : 1 ≤ quotes)
    (hhigh : quotes ≤ 2)
    (h : escapeLines quotes cs ++ '"' :: '"' :: '"' :: rest = '"' :: '"' :: text) :
    ∃ n ≤ 1, cs = List.replicate n '"' ∧ text = List.replicate (n + 1) '"' ++ rest := by
  cases cs with
  | nil =>
    obtain rfl : '"' :: rest = text := (List.cons.inj (List.cons.inj h).2).2
    exact ⟨0, Nat.zero_le 1, rfl, rfl⟩
  | cons c cs =>
    obtain ⟨rfl, hne, hrest⟩ := eq_quote_of_escapeLines h
    obtain rfl : quotes = 1 := by omega
    cases cs with
    | nil =>
      obtain rfl : '"' :: '"' :: rest = text := (List.cons.inj hrest).2
      exact ⟨1, le_rfl, rfl, rfl⟩
    | cons c cs => exact absurd rfl (eq_quote_of_escapeLines hrest).2.1

/-- Reading undoes the escapes of a text of several lines. -/
theorem readBasicLines_escapeLines {quotes : Nat} (hfuel : cs.length < fuel) (hquotes : quotes ≤ 2)
    (hrest : EndsQuotes '"' rest) :
    readBasicLines fuel (escapeLines quotes cs ++ '"' :: '"' :: '"' :: rest) = some (cs, rest) := by
  induction cs generalizing fuel quotes with
  | nil =>
    obtain ⟨fuel, rfl⟩ := Nat.exists_eq_add_of_lt hfuel
    exact congrArg some (closing_replicate (Nat.zero_le 2) hrest)
  | cons c cs ih =>
    obtain ⟨fuel, rfl⟩ : ∃ n, fuel = n + 1 := ⟨fuel - 1, by omega⟩
    have hlength : cs.length < fuel := Nat.lt_of_succ_lt_succ hfuel
    rw [escapeLines]
    split_ifs with hquote htwo hnewline
    · -- the third quote in a row
      subst hquote
      change readBasicLines (fuel + 1)
        ('\\' :: (['"'] ++ (escapeLines 0 cs ++ '"' :: '"' :: '"' :: rest))) = _
      rw [readBasicLines_escape fuel (by simp) (by simp [StartsEscape, isBlank]) rfl,
        ih hlength (Nat.zero_le 2)]
      rfl
    · subst hquote
      rw [List.cons_append]
      by_cases hclosed : ∃ text,
          escapeLines (quotes + 1) cs ++ '"' :: '"' :: '"' :: rest = '"' :: '"' :: text
      · obtain ⟨text, htext⟩ := hclosed
        obtain ⟨n, hn, rfl, rfl⟩ := eq_replicate_of_quotes (by omega) (by omega) htext
        rw [htext, readBasicLines_closing, closing_replicate (by omega) hrest]
        rfl
      · rw [readBasicLines_cons fuel (by decide) (.inl rfl) fun h => hclosed h.2,
          ih hlength (by omega)]
        rfl
    · subst hnewline
      rw [List.cons_append, readBasicLines_cons fuel (by decide) (.inr rfl) (by simp),
        ih hlength (Nat.zero_le 2)]
      rfl
    · rw [List.append_assoc]
      obtain ⟨heq, hplain, -, hslash⟩ | ⟨e, heq, hne, hstart, hread⟩ := escapeChar_cases c
      · rw [heq, List.singleton_append, readBasicLines_cons fuel hslash (.inl hplain)
          fun h => hquote h.1, ih hlength (Nat.zero_le 2)]
        rfl
      · rw [heq, List.cons_append, readBasicLines_escape fuel hne hstart (hread _),
          ih hlength (Nat.zero_le 2)]
        rfl

/-! ## Runs of quotes -/

/-- The longest run up to some place, and the run that ends there. -/
def runFrom (quote : Char) (runs : Nat × Nat) (cs : List Char) : Nat × Nat :=
  cs.foldl (fun (longest, current) d =>
    if d = quote then (max longest (current + 1), current + 1) else (longest, 0)) runs

theorem le_runFrom (quote : Char) (runs : Nat × Nat) (cs : List Char) :
    runs.1 ≤ (runFrom quote runs cs).1 := by
  induction cs generalizing runs with
  | nil => exact le_rfl
  | cons c cs ih =>
    rw [runFrom, List.foldl_cons]
    refine le_trans ?_ (ih _)
    dsimp only
    split_ifs
    · exact le_max_left _ _
    · exact le_rfl

theorem current_le_runFrom (quote : Char) (runs : Nat × Nat) (h : runs.2 ≤ runs.1)
    (cs : List Char) : (runFrom quote runs cs).2 ≤ (runFrom quote runs cs).1 := by
  induction cs generalizing runs with
  | nil => exact h
  | cons c cs ih =>
    rw [runFrom, List.foldl_cons]
    refine ih _ ?_
    dsimp only
    split_ifs
    · exact le_max_right _ _
    · exact Nat.zero_le _

theorem le_runFrom_replicate (quote : Char) {runs : Nat × Nat} (h : runs.2 ≤ runs.1) (n : Nat) :
    runs.2 + n ≤ (runFrom quote runs (List.replicate n quote)).1 := by
  induction n generalizing runs with
  | zero => exact h
  | succ n ih =>
    rw [List.replicate_succ, runFrom, List.foldl_cons]
    dsimp only
    rw [if_pos rfl]
    refine le_trans ?_ (ih (le_max_right _ _))
    omega

theorem le_longestRun {quote : Char} {n : Nat} (h : List.replicate n quote <:+: cs) :
    n ≤ longestRun quote cs := by
  obtain ⟨before, after, rfl⟩ := h
  have hbefore := current_le_runFrom quote (0, 0) le_rfl before
  have hrun := le_runFrom_replicate quote hbefore n
  have hafter := le_runFrom quote
    (runFrom quote (runFrom quote (0, 0) before) (List.replicate n quote)) after
  have heq : longestRun quote (before ++ List.replicate n quote ++ after) =
      (runFrom quote (runFrom quote (runFrom quote (0, 0) before) (List.replicate n quote))
        after).1 := by
    simp only [longestRun, runFrom, List.foldl_append]
  omega

theorem not_mem_of_longestRun {quote : Char} (h : longestRun quote cs = 0) : quote ∉ cs := by
  intro hmem
  obtain ⟨before, after, rfl⟩ := List.append_of_mem hmem
  have hrun : List.replicate 1 quote <:+: before ++ quote :: after := ⟨before, after, by simp⟩
  have hle := le_longestRun hrun
  omega

/-- A character that closes nothing. -/
theorem readLiteralLines_cons (hplain : isPlain c = true ∨ c = '\n')
    (hquotes : ¬ (c = '\'' ∧ ∃ text, rest = '\'' :: '\'' :: text)) :
    readLiteralLines (c :: rest) =
      (readLiteralLines rest).map fun (cs, rest) => (c :: cs, rest) := by
  have hreturn : c ≠ '\r' := by
    rintro rfl
    revert hplain
    decide
  rw [readLiteralLines, if_pos (by simpa using hplain)]
  · exact fun text hquote heq => hquotes ⟨hquote, text, heq⟩
  · exact fun _ heq _ => hreturn heq

/-- Where a quote is followed by two more, a text with no three of them ends with the quotes. -/
theorem eq_replicate_of_no_three {quote : Char} {text : List Char}
    (hthree : ¬ List.replicate 3 quote <:+: quote :: cs)
    (h : cs ++ quote :: quote :: quote :: rest = quote :: quote :: text) :
    ∃ n ≤ 1, cs = List.replicate n quote ∧ text = List.replicate (n + 1) quote ++ rest := by
  rcases cs with _ | ⟨c, _ | ⟨d, cs⟩⟩
  · obtain rfl : quote :: rest = text := (List.cons.inj (List.cons.inj h).2).2
    exact ⟨0, Nat.zero_le 1, rfl, rfl⟩
  · obtain ⟨rfl, h⟩ := List.cons.inj h
    obtain rfl := (List.cons.inj h).2
    exact ⟨1, le_rfl, rfl, rfl⟩
  · obtain ⟨rfl, h⟩ := List.cons.inj h
    obtain rfl := (List.cons.inj h).1
    exact absurd ⟨[], cs, rfl⟩ hthree

/-- A text with no three single quotes in a row stands for itself on several lines. -/
theorem readLiteralLines_plain (hplain : ∀ c ∈ cs, isPlain c = true ∨ c = '\n')
    (hthree : ¬ List.replicate 3 '\'' <:+: cs) (hrest : EndsQuotes '\'' rest) :
    readLiteralLines (cs ++ '\'' :: '\'' :: '\'' :: rest) = some (cs, rest) := by
  induction cs with
  | nil => exact congrArg some (closing_replicate (Nat.zero_le 2) hrest)
  | cons c cs ih =>
    rw [List.forall_mem_cons] at hplain
    have ih := ih hplain.2 fun h => hthree (h.trans (List.suffix_cons c cs).isInfix)
    rw [List.cons_append]
    by_cases hclosed : c = '\'' ∧ ∃ text,
        cs ++ '\'' :: '\'' :: '\'' :: rest = '\'' :: '\'' :: text
    · obtain ⟨rfl, text, htext⟩ := hclosed
      obtain ⟨n, hn, rfl, rfl⟩ := eq_replicate_of_no_three hthree htext
      rw [htext, readLiteralLines, closing_replicate (by omega) hrest]
      rfl
    · rw [readLiteralLines_cons hplain.1 hclosed, ih]
      rfl

/-! ## All ways -/

theorem readText_line {quote : Char} {text : List Char}
    (h : ¬ ∃ text', text = quote :: quote :: text') :
    readText (quote :: text) = readLineText (quote :: text) := by
  unfold readText
  split
  · next heq =>
    obtain ⟨rfl, rfl⟩ := List.cons.inj heq
    exact absurd ⟨_, rfl⟩ h
  · next heq =>
    obtain ⟨rfl, rfl⟩ := List.cons.inj heq
    exact absurd ⟨_, rfl⟩ h
  · rfl

theorem escapeChar_ne_nil (c : Char) : escapeChar c ≠ [] := by
  obtain ⟨heq, -⟩ | ⟨e, heq, -⟩ := escapeChar_cases c <;> simp [heq]

theorem length_le_flatMap_escapeChar (cs : List Char) :
    cs.length ≤ (cs.flatMap escapeChar).length := by
  induction cs with
  | nil => exact le_rfl
  | cons c cs ih =>
    have hpos := List.length_pos_of_ne_nil (escapeChar_ne_nil c)
    rw [List.flatMap_cons, List.length_append, List.length_cons]
    omega

theorem length_le_escapeLines (quotes : Nat) (cs : List Char) :
    cs.length ≤ (escapeLines quotes cs).length := by
  induction cs generalizing quotes with
  | nil => exact Nat.zero_le _
  | cons c cs ih =>
    have hpos := List.length_pos_of_ne_nil (escapeChar_ne_nil c)
    have h0 := ih 0
    have hnext := ih (quotes + 1)
    rw [escapeLines]
    split_ifs <;> simp only [List.length_cons, List.length_append] <;> omega

theorem readText_basic (cs : List Char) (hrest : EndsQuotes '"' rest) :
    readText ('"' :: (cs.flatMap escapeChar ++ '"' :: rest)) = some (cs, rest) := by
  have hlength := length_le_flatMap_escapeChar cs
  rw [readText_line]
  · rw [readLineText, readBasic_escaped]
    rw [List.length_append]
    omega
  · rintro ⟨text, htext⟩
    cases cs with
    | nil =>
      obtain rfl := (List.cons.inj htext).2
      exact hrest rfl
    | cons c cs =>
      rw [List.flatMap_cons, List.append_assoc] at htext
      obtain ⟨heq, -, hquote, -⟩ | ⟨e, heq, -⟩ := escapeChar_cases c
      · rw [heq] at htext
        exact hquote (List.cons.inj htext).1
      · rw [heq] at htext
        cases htext

theorem readText_literal (hplain : ∀ c ∈ cs, isPlain c = true) (hquote : '\'' ∉ cs)
    (hrest : EndsQuotes '\'' rest) : readText ('\'' :: (cs ++ '\'' :: rest)) = some (cs, rest) := by
  rw [readText_line]
  · exact readLiteral_plain hplain hquote
  · rintro ⟨text, htext⟩
    cases cs with
    | nil =>
      obtain rfl := (List.cons.inj htext).2
      exact hrest rfl
    | cons c cs =>
      obtain rfl := (List.cons.inj htext).1
      exact hquote List.mem_cons_self

/-- What is dropped after the opening quotes is what the writer has put there. -/
theorem dropNewline_opened {text : List Char} (h : '\n' ∉ cs →
    ∀ d ∈ text.head?, d ≠ '\n' ∧ d ≠ '\r') :
    dropNewline ((if cs.contains '\n' then ['\n'] else []) ++ text) = text := by
  split_ifs with hnewline
  · rfl
  · cases text with
    | nil => rfl
    | cons d text =>
      obtain ⟨hn, hr⟩ := h (by simpa using hnewline) d rfl
      rw [List.nil_append, dropNewline, readNewline_cons hn hr]
      rfl

theorem ne_return_of_isPlain (h : isPlain c = true) : c ≠ '\r' := by
  rintro rfl
  revert h
  decide

theorem readText_basicLines (cs : List Char) (hrest : EndsQuotes '"' rest) :
    readText (opening '"' cs ++ escapeLines 0 cs ++ '"' :: '"' :: '"' :: rest) =
      some (cs, rest) := by
  have hlength := length_le_escapeLines 0 cs
  have hhead : '\n' ∉ cs → ∀ d ∈ (escapeLines 0 cs ++ '"' :: '"' :: '"' :: rest).head?,
      d ≠ '\n' ∧ d ≠ '\r' := by
    intro hnewline d hd
    cases cs with
    | nil =>
      obtain rfl : '"' = d := Option.some.inj hd
      decide
    | cons c cs =>
      rw [List.mem_cons, not_or] at hnewline
      rw [escapeLines, if_neg (Nat.zero_ne_add_one 1), if_neg (Ne.symm hnewline.1)] at hd
      split_ifs at hd with hquote
      · obtain rfl : '"' = d := Option.some.inj hd
        decide
      · obtain ⟨heq, hplain, -⟩ | ⟨e, heq, -⟩ := escapeChar_cases c
        · rw [heq] at hd
          obtain rfl : c = d := Option.some.inj hd
          exact ⟨Ne.symm hnewline.1, ne_return_of_isPlain hplain⟩
        · rw [heq] at hd
          obtain rfl : '\\' = d := Option.some.inj hd
          decide
  rw [opening, List.append_assoc]
  change (let rest := dropNewline (_ ++ (_ ++ _)); readBasicLines (rest.length + 1) rest) = _
  rw [dropNewline_opened hhead]
  exact readBasicLines_escapeLines (by rw [List.length_append]; omega) (Nat.zero_le 2) hrest

theorem readText_literalLines (hplain : ∀ c ∈ cs, isPlain c = true ∨ c = '\n')
    (hthree : ¬ List.replicate 3 '\'' <:+: cs) (hrest : EndsQuotes '\'' rest) :
    readText (opening '\'' cs ++ cs ++ '\'' :: '\'' :: '\'' :: rest) = some (cs, rest) := by
  have hhead : '\n' ∉ cs → ∀ d ∈ (cs ++ '\'' :: '\'' :: '\'' :: rest).head?,
      d ≠ '\n' ∧ d ≠ '\r' := by
    intro hnewline d hd
    cases cs with
    | nil =>
      obtain rfl : '\'' = d := Option.some.inj hd
      decide
    | cons c cs =>
      obtain rfl : c = d := Option.some.inj hd
      rw [List.mem_cons, not_or] at hnewline
      rw [List.forall_mem_cons] at hplain
      exact ⟨Ne.symm hnewline.1, ne_return_of_isPlain
        (hplain.1.resolve_right (Ne.symm hnewline.1))⟩
  rw [opening, List.append_assoc]
  change readLiteralLines (dropNewline (_ ++ (_ ++ _))) = _
  rw [dropNewline_opened hhead]
  exact readLiteralLines_plain hplain hthree hrest

/-- A text is read back whichever way it was written, up to its closing quotes. -/
theorem readText_writeText (s : String) (hdouble : EndsQuotes '"' rest)
    (hsingle : EndsQuotes '\'' rest) : readText (writeText s ++ rest) = some (s.toList, rest) := by
  have hbasic : readText ('"' :: s.toList.flatMap escapeChar ++ ['"'] ++ rest) =
      some (s.toList, rest) := by
    rw [List.append_assoc]
    exact readText_basic s.toList hdouble
  have hlines : readText (opening '"' s.toList ++ escapeLines 0 s.toList ++
      List.replicate 3 '"' ++ rest) = some (s.toList, rest) := by
    rw [List.append_assoc]
    exact readText_basicLines s.toList hdouble
  have hplain (h : s.toList.any needsEscape = false) :
      ∀ c ∈ s.toList, isPlain c = true ∨ c = '\n' := by
    intro c hc
    have hneeds := List.any_eq_false.mp h c hc
    by_contra hnot
    rw [not_or] at hnot
    exact hneeds (by simp [needsEscape, hnot.1, hnot.2])
  simp only [writeText]
  split_ifs with hplainly hliteral hfew hliterals hnewline
  · exact hbasic
  · simp only [Bool.and_eq_true, Bool.not_eq_true', decide_eq_true_eq] at hliteral
    obtain ⟨⟨hcontrols, hsingles⟩, hnewline⟩ := hliteral
    rw [List.append_assoc]
    refine readText_literal (fun c hc => ?_) (not_mem_of_longestRun hsingles) hsingle
    refine (hplain hcontrols c hc).resolve_right ?_
    rintro rfl
    exact absurd hc (by simpa using hnewline)
  · exact hlines
  · simp only [Bool.and_eq_true, Bool.not_eq_true', decide_eq_true_eq] at hliterals
    obtain ⟨hcontrols, hsingles⟩ := hliterals
    rw [List.append_assoc]
    refine readText_literalLines (hplain hcontrols) (fun h => ?_) hsingle
    have hle := le_longestRun h
    omega
  · exact hlines
  · exact hbasic

end SymbolAtlas.Toml
