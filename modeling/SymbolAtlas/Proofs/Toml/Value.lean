import SymbolAtlas.Proofs.Toml.Number
import SymbolAtlas.Proofs.Toml.Text

/-!
# Reading values back

Texts, numbers that fit, truth values and lists of such values are read back as they were written,
however the items of a list stand on their lines.
-/

namespace SymbolAtlas.Toml

variable {c : Char} {cs rest : List Char} {fuel depth : Nat} {v : Toml} {items : List Toml}

/-- Values that are read back, with at most so many lists inside one another. -/
inductive Readable : Nat → Toml → Prop where
  | text {depth : Nat} (s : String) : Readable depth (.text s)
  | integer {depth : Nat} {n : ℤ} (h : Fits n) : Readable depth (.integer n)
  | float {depth : Nat} {f : Float} (h : f.isFinite = true) : Readable depth (.float f)
  | boolean {depth : Nat} (b : Bool) : Readable depth (.boolean b)
  | list {depth : Nat} {items : List Toml} (h : ∀ item ∈ items, Readable depth item) :
      Readable (depth + 1) (.list items)

/-! ## Around values -/

/-- What may follow a value: the end of a line, a comma or the end of a list. -/
def EndsValue (rest : List Char) : Prop := ∀ c ∈ rest.head?, c = '\n' ∨ c = ',' ∨ c = ']'

theorem EndsValue.endsToken (h : EndsValue rest) : EndsToken rest := fun c hc => by
  obtain rfl | rfl | rfl := h c hc <;> simp [isTokenChar]

theorem EndsValue.endsQuotes (h : EndsValue rest) {quote : Char}
    (hquote : quote = '"' ∨ quote = '\'') : EndsQuotes quote rest := fun hc => by
  have hends := h quote hc
  obtain rfl | rfl := hquote <;> simp at hends

/-- The characters that values begin with. -/
def StartsValue (c : Char) : Prop := c.isDigit = true ∨ c ∈ ['"', '\'', '[', '-', 't', 'f']

theorem StartsValue.ne (h : StartsValue c) {d : Char} (hdigit : d.isDigit = false)
    (hd : d ∉ ['"', '\'', '[', '-', 't', 'f']) : c ≠ d := by
  rintro rfl
  exact h.elim (fun h => by simp [h] at hdigit) hd

theorem skipLines_cons (hblank : isBlank c = false) (hnewline : c ≠ '\n') (hreturn : c ≠ '\r') :
    skipLines (c :: cs) = c :: cs := by
  unfold skipLines
  split
  · simp_all
  · simp_all
  · simp_all

/-- Where no comment comes first, nothing but blanks and ends of lines is skipped. -/
theorem skipSpace_eq (h : (skipLines cs).head? ≠ some '#') :
    skipSpace cs.length cs = skipLines cs := by
  cases cs with
  | nil => rfl
  | cons c cs =>
    simp only [List.length_cons, skipSpace]
    split
    · next heq => simp [heq] at h
    · rfl

theorem writeText_eq_cons (s : String) : ∃ c cs, writeText s = c :: cs ∧ c ∈ ['"', '\''] := by
  unfold writeText
  dsimp only
  split_ifs <;> exact ⟨_, _, rfl, by decide⟩

/-- How the values that are read back begin. -/
theorem Readable.exists_cons (h : Readable depth v) :
    ∃ c cs, writeValue v = c :: cs ∧ StartsValue c := by
  have hnumber {cs : List Char} (h : IsNumber cs) :
      ∃ c rest, cs = c :: rest ∧ StartsValue c := by
    obtain ⟨c, rest, rfl⟩ := List.exists_cons_of_ne_nil h.ne_nil
    refine ⟨c, rest, rfl, ?_⟩
    obtain rfl | hdigit := h.head c rfl
    · exact .inr (by decide)
    · exact .inl hdigit
  cases h with
  | text s =>
    obtain ⟨c, cs, heq, hc⟩ := writeText_eq_cons s
    exact ⟨c, cs, by rw [writeValue, heq], .inr (List.mem_of_mem_take (i := 2) hc)⟩
  | integer _ =>
    rw [writeValue]
    exact hnumber (isNumber_writeInteger _)
  | float h =>
    rw [writeValue]
    exact hnumber (isNumber_writeFloat h)
  | boolean b =>
    rw [writeValue]
    cases b with
    | true => exact ⟨_, _, rfl, .inr (by decide)⟩
    | false => exact ⟨_, _, rfl, .inr (by decide)⟩
  | @list _ items _ =>
    obtain _ | ⟨item, _ | ⟨item', more⟩⟩ := items <;> exact ⟨_, _, rfl, .inr (by decide)⟩

/-! ## Values -/

/-- What starts neither a list, nor a table, nor a text is read as a token. -/
theorem readValue_token (hlist : c ≠ '[') (htable : c ≠ '{') (hdouble : c ≠ '"')
    (hsingle : c ≠ '\'') : readValue (fuel + 1) depth (c :: cs) = readToken (c :: cs) := by
  rw [readValue.eq_def]
  split
  · next h => cases h
  · next h =>
    cases h
    split
    · next h => cases h
    · next h => exact absurd (List.cons.inj h).1 hlist
    · next h => exact absurd (List.cons.inj h).1 htable
    · next h =>
      obtain ⟨rfl, rfl⟩ := List.cons.inj h
      exact if_neg (by simp [hdouble, hsingle])

theorem readValue_text (s : String) (hrest : EndsValue rest) :
    readValue (fuel + 1) depth (writeText s ++ rest) = some (.text s, rest) := by
  obtain ⟨c, cs, heq, hc⟩ := writeText_eq_cons s
  have hread := readText_writeText s (hrest.endsQuotes (.inl rfl)) (hrest.endsQuotes (.inr rfl))
  rw [heq, List.cons_append] at hread ⊢
  simp only [List.mem_cons, List.not_mem_nil, or_false] at hc
  obtain rfl | rfl := hc <;> simp [readValue, hread]

theorem readValue_number (h : IsNumber cs) :
    readValue (fuel + 1) depth (cs ++ rest) = readToken (cs ++ rest) := by
  obtain ⟨c, cs, rfl⟩ := List.exists_cons_of_ne_nil h.ne_nil
  have hne (d : Char) (hminus : d ≠ '-') (hdigit : d.isDigit = false) : c ≠ d := by
    rintro rfl
    simpa [hminus, hdigit] using h.head c rfl
  exact readValue_token (hne _ (by decide) rfl) (hne _ (by decide) rfl) (hne _ (by decide) rfl)
    (hne _ (by decide) rfl)

theorem readValue_boolean (b : Bool) (hrest : EndsValue rest) :
    readValue (fuel + 1) depth ((if b then "true" else "false").toList ++ rest) =
      some (.boolean b, rest) := by
  rw [← readToken_boolean b hrest.endsToken]
  cases b with
  | true => exact readValue_token (by decide) (by decide) (by decide) (by decide)
  | false => exact readValue_token (by decide) (by decide) (by decide) (by decide)

/-! ## Lists -/

/-- That a value is read back with so much fuel as its text needs. -/
def ReadBack (depth : Nat) (v : Toml) : Prop := ∀ fuel rest, 2 * (writeValue v).length ≤ fuel →
  EndsValue rest → readValue (fuel + 1) depth (writeValue v ++ rest) = some (v, rest)

theorem skipSpace_cons (hblank : isBlank c = false) (hnewline : c ≠ '\n') (hreturn : c ≠ '\r')
    (hcomment : c ≠ '#') : skipSpace (c :: cs).length (c :: cs) = c :: cs := by
  have hskip : skipLines (c :: cs) = c :: cs := skipLines_cons hblank hnewline hreturn
  rw [skipSpace_eq (by simpa [hskip] using hcomment), hskip]

theorem readItems_end (hskip : skipSpace cs.length cs = ']' :: rest) :
    readItems (fuel + 1) depth cs = some ([], rest) := by
  rw [readItems, hskip]
  rfl

/-- An item is read, and after it more of them where a comma follows. -/
theorem readItems_value {after : List Char} (hv : Readable depth v) (hread : ReadBack depth v)
    (hfuel : 2 * (writeValue v).length ≤ fuel)
    (hskip : skipSpace cs.length cs = writeValue v ++ c :: rest)
    (hmore : c = ',' ∧ readItems (fuel + 1) depth rest = some (items, after) ∨
      c = ']' ∧ items = [] ∧ rest = after) :
    readItems (fuel + 2) depth cs = some (v :: items, after) := by
  obtain ⟨first, text, heq, hfirst⟩ := hv.exists_cons
  have hends : EndsValue (c :: rest) := by
    rintro d ⟨⟩
    exact .inr (hmore.imp And.left And.left)
  have hafter : skipSpace (c :: rest).length (c :: rest) = c :: rest := by
    obtain ⟨rfl, -⟩ | ⟨rfl, -⟩ := hmore
    · exact skipSpace_cons rfl (by decide) (by decide) (by decide)
    · exact skipSpace_cons rfl (by decide) (by decide) (by decide)
  rw [readItems, hskip]
  split
  · next h =>
    rw [heq, List.cons_append] at h
    exact absurd (List.cons.inj h).1 (hfirst.ne rfl (by decide))
  · obtain ⟨rfl, hmore⟩ | ⟨rfl, rfl, rfl⟩ := hmore
    · simp only [hread fuel _ hfuel hends, hafter, hmore, Option.map_some]
    · simp only [hread fuel _ hfuel hends, hafter]

theorem skipSpace_written (hv : Readable depth v) :
    skipSpace (writeValue v ++ rest).length (writeValue v ++ rest) = writeValue v ++ rest := by
  obtain ⟨c, cs, heq, hc⟩ := hv.exists_cons
  rw [heq, List.cons_append]
  have hblank : isBlank c = false := by simp [isBlank, hc.ne]
  exact skipSpace_cons hblank (hc.ne rfl (by decide)) (hc.ne rfl (by decide))
    (hc.ne rfl (by decide))

theorem skipSpace_item (hv : Readable depth v) :
    skipSpace ("\n    ".toList ++ writeValue v ++ rest).length
      ("\n    ".toList ++ writeValue v ++ rest) = writeValue v ++ rest := by
  obtain ⟨c, cs, heq, hc⟩ := hv.exists_cons
  have hblank : isBlank c = false := by simp [isBlank, hc.ne]
  have hskip : skipLines ("\n    ".toList ++ writeValue v ++ rest) = writeValue v ++ rest := by
    rw [heq]
    exact skipLines_cons hblank (hc.ne rfl (by decide)) (hc.ne rfl (by decide))
  have hcomment : c ≠ '#' := hc.ne rfl (by decide)
  rw [skipSpace_eq, hskip]
  rw [hskip, heq]
  simpa using hcomment

/-- Items on lines of their own are read one after another. -/
theorem readItems_writeItems (hitems : ∀ item ∈ items, Readable depth item ∧ ReadBack depth item)
    (hfuel : 2 * (writeItems items).length < fuel) :
    readItems fuel depth (writeItems items ++ '\n' :: ']' :: rest) = some (items, rest) := by
  induction items generalizing fuel with
  | nil =>
    obtain ⟨fuel, rfl⟩ := Nat.exists_eq_succ_of_ne_zero (Nat.ne_zero_of_lt hfuel)
    have hskip : skipLines (writeItems [] ++ '\n' :: ']' :: rest) = ']' :: rest := by
      rw [writeItems]
      exact skipLines_cons (c := ']') rfl (by decide) (by decide)
    refine readItems_end ?_
    rw [skipSpace_eq (by simp [hskip]), hskip]
  | cons item more ih =>
    obtain ⟨hitem, hread⟩ := hitems item List.mem_cons_self
    have htext : writeItems (item :: more) ++ '\n' :: ']' :: rest =
        "\n    ".toList ++ writeValue item ++ ',' :: (writeItems more ++ '\n' :: ']' :: rest) := by
      simp [writeItems]
    have hlength : (writeItems (item :: more)).length =
        (writeValue item).length + (writeItems more).length + 6 := by
      simp [writeItems]
      omega
    obtain ⟨fuel, rfl⟩ : ∃ n, fuel = n + 2 := ⟨fuel - 2, by omega⟩
    have hmore : readItems (fuel + 1) depth (writeItems more ++ '\n' :: ']' :: rest) =
        some (more, rest) :=
      ih (fun item h => hitems item (List.mem_cons_of_mem _ h)) (by omega)
    rw [htext]
    exact readItems_value hitem hread (by omega) (skipSpace_item hitem) (.inl ⟨rfl, hmore⟩)

/-- The text of a list, after its first bracket, is read item by item. -/
theorem exists_writeValue_list
    (hitems : ∀ item ∈ items, Readable depth item ∧ ReadBack depth item)
    (hfuel : 2 * (writeValue (.list items)).length ≤ fuel) (rest : List Char) :
    ∃ text, writeValue (.list items) = '[' :: text ∧
      readItems fuel depth (text ++ rest) = some (items, rest) := by
  obtain _ | ⟨item, _ | ⟨item', more⟩⟩ := items
  · simp only [writeValue, List.length_cons, List.length_nil] at hfuel
    obtain ⟨fuel, rfl⟩ : ∃ n, fuel = n + 1 := ⟨fuel - 1, by omega⟩
    refine ⟨[']'], by rw [writeValue], readItems_end ?_⟩
    exact skipSpace_cons (c := ']') rfl (by decide) (by decide) (by decide)
  · obtain ⟨hitem, hread⟩ := hitems item List.mem_cons_self
    simp only [writeValue, List.length_append, List.length_cons, List.length_nil] at hfuel
    obtain ⟨fuel, rfl⟩ : ∃ n, fuel = n + 2 := ⟨fuel - 2, by omega⟩
    refine ⟨writeValue item ++ [']'], by rw [writeValue, List.cons_append], ?_⟩
    rw [List.append_assoc, List.singleton_append]
    exact readItems_value hitem hread (by omega) (skipSpace_written hitem) (.inr ⟨rfl, rfl, rfl⟩)
  · have htext : writeValue (.list (item :: item' :: more)) =
        '[' :: (writeItems (item :: item' :: more) ++ ['\n', ']']) := by
      rw [writeValue] <;> simp
    refine ⟨_, htext, ?_⟩
    rw [List.append_assoc]
    refine readItems_writeItems hitems ?_
    simp only [htext, List.length_cons, List.length_append, List.length_nil] at hfuel
    omega

/-- A value is read back as it was written. -/
theorem Readable.readBack (h : Readable depth v) : ReadBack depth v := by
  induction h with
  | text s => exact fun fuel rest _ hrest => readValue_text s hrest
  | boolean b => exact fun fuel rest _ hrest => readValue_boolean b hrest
  | integer h =>
    intro fuel rest _ hrest
    rw [writeValue, readValue_number (isNumber_writeInteger _)]
    exact readToken_writeInteger h hrest.endsToken
  | float h =>
    intro fuel rest _ hrest
    rw [writeValue, readValue_number (isNumber_writeFloat h)]
    exact readToken_writeFloat h hrest.endsToken
  | list h ih =>
    intro fuel rest hfuel _
    obtain ⟨text, htext, hread⟩ :=
      exists_writeValue_list (fun item hmem => ⟨h item hmem, ih item hmem⟩) hfuel rest
    rw [htext, List.cons_append, readValue.eq_def]
    simp [hread]

end SymbolAtlas.Toml
