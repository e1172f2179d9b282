import Mathlib.Data.List.DropRight
import SymbolAtlas.Proofs.Json.Scalars

/-!
# Reading values back

The compact and the pretty form of a value are read back as the same value, unless its lists and
records are nested deeper than the reader follows. Both are the value spelled with some blanks,
and the reader passes over blanks.
-/

namespace SymbolAtlas.Json

mutual

/-- Lists and records are nested in a value no deeper than told, and its numbers are well
formed. -/
def Fits (depth : Nat) : Json → Prop
  | .number n => n.WellFormed
  | .list items => 0 < depth ∧ ItemsFit (depth - 1) items
  | .record fields => 0 < depth ∧ FieldsFit (depth - 1) fields
  | _ => True

def ItemsFit (depth : Nat) : List Json → Prop
  | [] => True
  | j :: rest => Fits depth j ∧ ItemsFit depth rest

def FieldsFit (depth : Nat) : List (String × Json) → Prop
  | [] => True
  | (_, j) :: rest => Fits depth j ∧ FieldsFit depth rest

end

theorem itemsFit_iff {depth : Nat} {items : List Json} :
    ItemsFit depth items ↔ ∀ j ∈ items, Fits depth j := by
  induction items with
  | nil => simp [ItemsFit]
  | cons j items ih => rw [ItemsFit, ih, List.forall_mem_cons]

theorem fieldsFit_iff {depth : Nat} {fields : List (String × Json)} :
    FieldsFit depth fields ↔ ∀ f ∈ fields, Fits depth f.2 := by
  induction fields with
  | nil => simp [FieldsFit]
  | cons f fields ih => rw [FieldsFit, ih, List.forall_mem_cons]

theorem fits_list {depth : Nat} {items : List Json} :
    Fits (depth + 1) (.list items) ↔ ∀ j ∈ items, Fits depth j := by
  rw [Fits, itemsFit_iff]
  simp

theorem fits_record {depth : Nat} {fields : List (String × Json)} :
    Fits (depth + 1) (.record fields) ↔ ∀ f ∈ fields, Fits depth f.2 := by
  rw [Fits, fieldsFit_iff]
  simp

theorem fits_text (depth : Nat) (s : String) : Fits depth (.text s) := trivial

theorem fits_bool (depth : Nat) (b : Bool) : Fits depth (.bool b) := trivial

theorem fits_nat (depth n : Nat) : Fits depth (nat n) := by
  intro d hd
  simp at hd

/-! ## How a value begins -/

/-- A character with which a number can begin. -/
def StartsNumber (c : Char) : Prop := c = '-' ∨ c.isDigit = true

instance : DecidablePred StartsNumber :=
  fun c => inferInstanceAs (Decidable (c = '-' ∨ c.isDigit = true))

/-- No mark or word begins as a number does. -/
theorem StartsNumber.ne {c d : Char} (h : StartsNumber c) (hd : ¬ StartsNumber d) : c ≠ d := by
  rintro rfl
  exact hd h

theorem StartsNumber.not_blank {c : Char} (h : StartsNumber c) : isBlank c = false := by
  simp only [isBlank, Bool.or_eq_false_iff, decide_eq_false_iff_not]
  exact ⟨⟨⟨h.ne (by decide), h.ne (by decide)⟩, h.ne (by decide)⟩, h.ne (by decide)⟩

theorem writeNumber_head (n : Number) : ∃ c cs, writeNumber n = c :: cs ∧ StartsNumber c := by
  rw [writeNumber_eq]
  cases n.negative with
  | true => exact ⟨'-', _, rfl, Or.inl rfl⟩
  | false =>
      obtain ⟨d, ds, hds, -⟩ := head?_writeNat n.whole
      refine ⟨d, ds ++ (writeFraction n.fraction ++ writeExponent n.exponent), ?_, Or.inr ?_⟩
      · rw [hds]
        rfl
      · exact isDigit_of_mem_writeNat (hds ▸ List.mem_cons_self)

/-! ## Blanks -/

theorem skipBlanks_cons {c : Char} (hc : isBlank c = false) (rest : List Char) :
    skipBlanks (c :: rest) = c :: rest := by
  unfold skipBlanks
  rw [List.dropWhile_cons_of_neg (by rw [hc]; decide)]

theorem skipBlanks_append {blanks : List Char} (h : ∀ c ∈ blanks, isBlank c = true)
    (rest : List Char) : skipBlanks (blanks ++ rest) = skipBlanks rest :=
  List.dropWhile_append_of_pos h

theorem skipBlanks_skipBlanks (cs : List Char) : skipBlanks (skipBlanks cs) = skipBlanks cs :=
  List.dropWhile_idempotent isBlank cs

section Reader

variable (fuel depth : Nat)

theorem readValue_skipBlanks (cs : List Char) :
    readValue fuel depth (skipBlanks cs) = readValue fuel depth cs := by
  cases fuel with
  | zero => rfl
  | succ fuel => rw [readValue, readValue, skipBlanks_skipBlanks]

theorem readItems_skipBlanks (cs : List Char) :
    readItems fuel depth (skipBlanks cs) = readItems fuel depth cs := by
  cases fuel with
  | zero => rfl
  | succ fuel => rw [readItems, readItems, readValue_skipBlanks]

theorem readFields_skipBlanks (cs : List Char) :
    readFields fuel depth (skipBlanks cs) = readFields fuel depth cs := by
  cases fuel with
  | zero => rfl
  | succ fuel => rw [readFields, readFields, skipBlanks_skipBlanks]

theorem readValue_blanks {blanks : List Char} (h : ∀ c ∈ blanks, isBlank c = true)
    (cs : List Char) : readValue fuel depth (blanks ++ cs) = readValue fuel depth cs := by
  rw [← readValue_skipBlanks, skipBlanks_append h, readValue_skipBlanks]

end Reader

/-! ## Layouts -/

/-- The blanks of a written value: before an item or a closing mark at a level, and after the
colon of a field. -/
structure Layout where
  line : Nat → List Char
  gap : List Char
  line_blank : ∀ level, ∀ c ∈ line level, isBlank c = true
  gap_blank : ∀ c ∈ gap, isBlank c = true

def Layout.tight : Layout where
  line _ := []
  gap := []
  line_blank := by simp
  gap_blank := by simp

def Layout.indented : Layout where
  line := newLine
  gap := [' ']
  line_blank level c hc := by
    obtain rfl | hc := List.mem_cons.1 hc
    · rfl
    · rw [List.eq_of_mem_replicate hc]
      rfl
  gap_blank c hc := by
    rw [List.mem_singleton.1 hc]
    rfl

section Spelling

variable (l : Layout)

mutual

/-- A value written at a level with the blanks of a layout. -/
def spell (level : Nat) : Json → List Char
  | .list [] => ['[', ']']
  | .list items => '[' :: spellItems (level + 1) items ++ l.line level ++ [']']
  | .record [] => ['{', '}']
  | .record fields => '{' :: spellFields (level + 1) fields ++ l.line level ++ ['}']
  | j => write j

def spellItems (level : Nat) : List Json → List Char
  | [] => []
  | [j] => l.line level ++ spell level j
  | j :: rest => l.line level ++ spell level j ++ ',' :: spellItems level rest

def spellFields (level : Nat) : List (String × Json) → List Char
  | [] => []
  | [(name, j)] => l.line level ++ writeText name ++ ':' :: (l.gap ++ spell level j)
  | (name, j) :: rest =>
    l.line level ++ writeText name ++ ':' :: (l.gap ++ spell level j) ++
      ',' :: spellFields level rest

end

variable (level : Nat)

theorem spell_list (j : Json) (items : List Json) :
    spell l level (.list (j :: items)) =
      '[' :: (spellItems l (level + 1) (j :: items) ++ (l.line level ++ [']'])) := by
  rw [spell]
  · simp
  · simp

theorem spell_record (f : String × Json) (fields : List (String × Json)) :
    spell l level (.record (f :: fields)) =
      '{' :: (spellFields l (level + 1) (f :: fields) ++ (l.line level ++ ['}'])) := by
  rw [spell]
  · simp
  · simp

theorem spellItems_more (j k : Json) (items : List Json) :
    spellItems l level (j :: k :: items) =
      l.line level ++ (spell l level j ++ ',' :: spellItems l level (k :: items)) := by
  rw [spellItems]
  · simp
  · simp

theorem spellFields_more (name : String) (j : Json) (f : String × Json)
    (fields : List (String × Json)) :
    spellFields l level ((name, j) :: f :: fields) =
      l.line level ++ writeText name ++ ':' :: (l.gap ++ spell l level j) ++
        ',' :: spellFields l level (f :: fields) := by
  rw [spellFields]
  simp

end Spelling

mutual

theorem spell_tight : ∀ (level : Nat) (j : Json), spell .tight level j = write j
  | _, .null | _, .bool _ | _, .number _ | _, .text _ => rfl
  | _, .list [] | _, .record [] => rfl
  | level, .list (j :: items) => by
      rw [spell_list, spellItems_tight (level + 1) (j :: items), write]
      rfl
  | level, .record (f :: fields) => by
      rw [spell_record, spellFields_tight (level + 1) (f :: fields), write]
      rfl

theorem spellItems_tight : ∀ (level : Nat) (items : List Json),
    spellItems .tight level items = writeItems items
  | _, [] => rfl
  | level, [j] => by
      rw [spellItems, writeItems, spell_tight level j]
      rfl
  | level, j :: k :: items => by
      rw [spellItems_more, writeItems, spell_tight level j, spellItems_tight level (k :: items)]
      · rfl
      · simp

theorem spellFields_tight : ∀ (level : Nat) (fields : List (String × Json)),
    spellFields .tight level fields = writeFields fields
  | _, [] => rfl
  | level, [(name, j)] => by
      rw [spellFields, writeFields, spell_tight level j]
      rfl
  | level, (name, j) :: f :: fields => by
      rw [spellFields_more, writeFields, spell_tight level j,
        spellFields_tight level (f :: fields)]
      · rfl
      · simp

end

mutual

theorem spell_indented : ∀ (level : Nat) (j : Json), spell .indented level j = writePretty level j
  | _, .null | _, .bool _ | _, .number _ | _, .text _ => rfl
  | _, .list [] | _, .record [] => rfl
  | level, .list (j :: items) => by
      rw [spell_list, spellItems_indented (level + 1) (j :: items), writePretty]
      · simp [Layout.indented]
      · simp
  | level, .record (f :: fields) => by
      rw [spell_record, spellFields_indented (level + 1) (f :: fields), writePretty]
      · simp [Layout.indented]
      · simp

theorem spellItems_indented : ∀ (level : Nat) (items : List Json),
    spellItems .indented level items = prettyItems level items
  | _, [] => rfl
  | level, [j] => by
      rw [spellItems, prettyItems, spell_indented level j]
      rfl
  | level, j :: k :: items => by
      rw [spellItems_more, prettyItems, spell_indented level j,
        spellItems_indented level (k :: items)]
      · simp [Layout.indented]
      · simp

theorem spellFields_indented : ∀ (level : Nat) (fields : List (String × Json)),
    spellFields .indented level fields = prettyFields level fields
  | _, [] => rfl
  | level, [(name, j)] => by
      rw [spellFields, prettyFields, spell_indented level j]
      rfl
  | level, (name, j) :: f :: fields => by
      rw [spellFields_more, prettyFields, spell_indented level j,
        spellFields_indented level (f :: fields)]
      · rfl
      · simp

end

/-! ## One level -/

section Steps

variable {l : Layout} {fuel depth level : Nat}

/-- With so many steps the values that are short enough are read back. -/
def ReadsValues (l : Layout) (fuel : Nat) : Prop :=
  ∀ (depth level : Nat) (j : Json) (rest : List Char), Fits depth j → EndsNumber rest →
    2 * (spell l level j).length + 1 ≤ fuel →
    readValue fuel depth (spell l level j ++ rest) = some (j, rest)

def ReadsItems (l : Layout) (fuel : Nat) : Prop :=
  ∀ (depth level : Nat) (items : List Json) (after rest : List Char), items ≠ [] →
    ItemsFit depth items → skipBlanks after = ']' :: rest →
    2 * (spellItems l level items).length + 2 ≤ fuel →
    readItems fuel depth (spellItems l level items ++ after) = some (items, rest)

def ReadsFields (l : Layout) (fuel : Nat) : Prop :=
  ∀ (depth level : Nat) (fields : List (String × Json)) (after rest : List Char), fields ≠ [] →
    FieldsFit depth fields → skipBlanks after = '}' :: rest →
    2 * (spellFields l level fields).length + 2 ≤ fuel →
    readFields fuel depth (spellFields l level fields ++ after) = some (fields, rest)

theorem endsNumber_cons {c : Char} (h : ¬ StartsNumber c ∧ c ≠ '.' ∧ c ≠ 'e' ∧ c ≠ 'E')
    (rest : List Char) : EndsNumber (c :: rest) := by
  intro d hd
  obtain rfl : c = d := Option.some.inj hd
  refine ⟨?_, h.2⟩
  have hstart := h.1
  simp only [StartsNumber, not_or, Bool.not_eq_true] at hstart
  exact hstart.2

/-- A number ends before a mark, and before the blanks before a mark. -/
theorem endsNumber_of_skipBlanks {c : Char} {cs rest : List Char} (h : skipBlanks cs = c :: rest)
    (hc : ¬ StartsNumber c ∧ c ≠ '.' ∧ c ≠ 'e' ∧ c ≠ 'E') : EndsNumber cs := by
  cases cs with
  | nil => exact absurd h (by simp [skipBlanks])
  | cons d cs =>
      by_cases hd : isBlank d = true
      · simp only [isBlank, Bool.or_eq_true, decide_eq_true_eq] at hd
        obtain ((rfl | rfl) | rfl) | rfl := hd <;> exact endsNumber_cons (by decide) cs
      · rw [skipBlanks_cons (Bool.not_eq_true _ ▸ hd)] at h
        obtain ⟨rfl, -⟩ := List.cons.inj h
        exact endsNumber_cons hc cs

theorem readValue_number {c : Char} (hc : StartsNumber c) (rest : List Char) :
    readValue (fuel + 1) depth (c :: rest) =
      (readNumber (c :: rest)).map fun (n, r) => (.number n, r) := by
  have hquote : c ≠ '"' := hc.ne (by decide)
  have hbracket : c ≠ '[' := hc.ne (by decide)
  have hbrace : c ≠ '{' := hc.ne (by decide)
  have hn : c ≠ 'n' := hc.ne (by decide)
  have ht : c ≠ 't' := hc.ne (by decide)
  have hf : c ≠ 'f' := hc.ne (by decide)
  rw [readValue, skipBlanks_cons hc.not_blank]
  split <;> simp_all

theorem writeText_append (s : String) (rest : List Char) :
    writeText s ++ rest = '"' :: (s.toList.flatMap escapeChar ++ '"' :: rest) := by
  simp [writeText]

theorem readItems_succ (hvalues : ReadsValues l fuel) (hitems : ReadsItems l fuel) :
    ReadsItems l (fuel + 1) := by
  intro depth level items after rest hne hfit hafter hfuel
  cases items with
  | nil => exact absurd rfl hne
  | cons j items =>
      obtain ⟨hj, hfits⟩ := hfit
      cases items with
      | nil =>
          have hend : EndsNumber after := endsNumber_of_skipBlanks hafter (by decide)
          rw [spellItems, List.length_append] at hfuel
          have hread := hvalues depth level j after hj hend (by omega)
          rw [spellItems, List.append_assoc, readItems,
            readValue_blanks _ _ (l.line_blank level), hread]
          simp only [hafter]
      | cons k items =>
          rw [spellItems_more, List.length_append, List.length_append, List.length_cons] at hfuel
          have hread := hvalues depth level j (',' :: (spellItems l level (k :: items) ++ after)) hj
            (endsNumber_cons (by decide) _) (by omega)
          have hrest := hitems depth level (k :: items) after rest (by simp) hfits hafter
            (by omega)
          rw [spellItems_more, List.append_assoc, List.append_assoc, List.cons_append, readItems,
            readValue_blanks _ _ (l.line_blank level), hread]
          simp only [skipBlanks_cons (show isBlank ',' = false by decide), hrest, Option.map_some]

section Field

variable {name : String} {j : Json} {after rest : List Char}
  (hread : readValue fuel depth (spell l level j ++ after) = some (j, after))

include hread

theorem readFields_last (hafter : skipBlanks after = '}' :: rest) :
    readFields (fuel + 1) depth
        (l.line level ++ writeText name ++ ':' :: (l.gap ++ spell l level j) ++ after) =
      some ([(name, j)], rest) := by
  have hblank : readValue fuel depth (l.gap ++ (spell l level j ++ after)) = some (j, after) := by
    rw [readValue_blanks _ _ l.gap_blank, hread]
  rw [List.append_assoc, List.append_assoc, List.cons_append, List.append_assoc, readFields,
    skipBlanks_append (l.line_blank level), writeText_append]
  simp only [skipBlanks_cons (show isBlank '"' = false by decide), readText_escaped,
    skipBlanks_cons (show isBlank ':' = false by decide), hblank, hafter, String.ofList_toList]

theorem readFields_more {fields : List (String × Json)} {others : List Char}
    (hafter : skipBlanks after = ',' :: others)
    (hothers : readFields fuel depth others = some (fields, rest)) :
    readFields (fuel + 1) depth
        (l.line level ++ writeText name ++ ':' :: (l.gap ++ spell l level j) ++ after) =
      some ((name, j) :: fields, rest) := by
  have hblank : readValue fuel depth (l.gap ++ (spell l level j ++ after)) = some (j, after) := by
    rw [readValue_blanks _ _ l.gap_blank, hread]
  rw [List.append_assoc, List.append_assoc, List.cons_append, List.append_assoc, readFields,
    skipBlanks_append (l.line_blank level), writeText_append]
  simp only [skipBlanks_cons (show isBlank '"' = false by decide), readText_escaped,
    skipBlanks_cons (show isBlank ':' = false by decide), hblank, hafter, hothers,
    Option.map_some, String.ofList_toList]

end Field

theorem readFields_succ (hvalues : ReadsValues l fuel) (hfields : ReadsFields l fuel) :
    ReadsFields l (fuel + 1) := by
  intro depth level fields after rest hne hfit hafter hfuel
  cases fields with
  | nil => exact absurd rfl hne
  | cons field fields =>
      obtain ⟨name, j⟩ := field
      obtain ⟨hj, hfits⟩ := hfit
      cases fields with
      | nil =>
          have hend : EndsNumber after := endsNumber_of_skipBlanks hafter (by decide)
          rw [spellFields] at hfuel ⊢
          simp only [List.length_append, List.length_cons] at hfuel
          exact readFields_last (hvalues depth level j after hj hend (by omega)) hafter
      | cons next fields =>
          rw [spellFields_more] at hfuel ⊢
          simp only [List.length_append, List.length_cons] at hfuel
          have hread := hvalues depth level j
            (',' :: (spellFields l level (next :: fields) ++ after)) hj
            (endsNumber_cons (by decide) _) (by omega)
          have hrest := hfields depth level (next :: fields) after rest (by simp) hfits hafter
            (by omega)
          rw [List.append_assoc _ (',' :: _), List.cons_append]
          exact readFields_more hread (skipBlanks_cons (by decide) _) hrest

/-- No item begins with a closing bracket. -/
theorem readItems_close (rest : List Char) : readItems fuel depth (']' :: rest) = none := by
  cases fuel with
  | zero => rfl
  | succ fuel => cases fuel <;> rfl

theorem readFields_close (rest : List Char) : readFields fuel depth ('}' :: rest) = none := by
  cases fuel <;> rfl

theorem readValue_list (hitems : ReadsItems l fuel) {items : List Json}
    (hfit : Fits depth (.list items)) (hfuel : 2 * (spell l level (.list items)).length ≤ fuel)
    (rest : List Char) :
    readValue (fuel + 1) depth (spell l level (.list items) ++ rest) =
      some (.list items, rest) := by
  obtain ⟨hdepth, hfits⟩ := hfit
  have hopen : depth ≠ 0 := Nat.pos_iff_ne_zero.1 hdepth
  cases items with
  | nil =>
      rw [spell, List.cons_append, List.singleton_append, readValue, skipBlanks_cons (by decide)]
      simp only [hopen, if_false, skipBlanks_cons (show isBlank ']' = false by decide)]
  | cons j items =>
      rw [spell_list] at hfuel ⊢
      simp only [List.length_append, List.length_cons] at hfuel
      have hclose : skipBlanks (l.line level ++ ']' :: rest) = ']' :: rest := by
        rw [skipBlanks_append (l.line_blank level), skipBlanks_cons (by decide)]
      have hread := hitems (depth - 1) (level + 1) (j :: items) _ rest (by simp) hfits hclose
        (by omega)
      rw [List.cons_append, List.append_assoc, List.append_assoc, List.singleton_append, readValue,
        skipBlanks_cons (by decide)]
      simp only [hopen, if_false]
      rw [← readItems_skipBlanks] at hread
      split
      · rename_i heq
        rw [heq, readItems_close] at hread
        exact absurd hread (by simp)
      · rw [hread]
        rfl

theorem readValue_record (hfields : ReadsFields l fuel) {fields : List (String × Json)}
    (hfit : Fits depth (.record fields))
    (hfuel : 2 * (spell l level (.record fields)).length ≤ fuel) (rest : List Char) :
    readValue (fuel + 1) depth (spell l level (.record fields) ++ rest) =
      some (.record fields, rest) := by
  obtain ⟨hdepth, hfits⟩ := hfit
  have hopen : depth ≠ 0 := Nat.pos_iff_ne_zero.1 hdepth
  cases fields with
  | nil =>
      rw [spell, List.cons_append, List.singleton_append, readValue, skipBlanks_cons (by decide)]
      simp only [hopen, if_false, skipBlanks_cons (show isBlank '}' = false by decide)]
  | cons f fields =>
      rw [spell_record] at hfuel ⊢
      simp only [List.length_append, List.length_cons] at hfuel
      have hclose : skipBlanks (l.line level ++ '}' :: rest) = '}' :: rest := by
        rw [skipBlanks_append (l.line_blank level), skipBlanks_cons (by decide)]
      have hread := hfields (depth - 1) (level + 1) (f :: fields) _ rest (by simp) hfits hclose
        (by omega)
      rw [List.cons_append, List.append_assoc, List.append_assoc, List.singleton_append, readValue,
        skipBlanks_cons (by decide)]
      simp only [hopen, if_false]
      rw [← readFields_skipBlanks] at hread
      split
      · rename_i heq
        rw [heq, readFields_close] at hread
        exact absurd hread (by simp)
      · rw [hread]
        rfl

theorem readValue_succ (hitems : ReadsItems l fuel) (hfields : ReadsFields l fuel) :
    ReadsValues l (fuel + 1) := by
  intro depth level j rest hfit hend hfuel
  cases j with
  | null => rfl
  | bool b => cases b <;> rfl
  | number n =>
      obtain ⟨c, cs, hcs, hc⟩ := writeNumber_head n
      have hread := readNumber_writeNumber hfit hend
      rw [hcs] at hread
      rw [spell, write, hcs, List.cons_append, readValue_number hc, ← List.cons_append, hread]
      rfl
      all_goals simp
  | text s =>
      rw [spell, write, writeText_append, readValue, skipBlanks_cons (by decide)]
      simp only [readText_escaped, Option.map_some, String.ofList_toList]
      all_goals simp
  | list items => exact readValue_list hitems hfit (by omega) rest
  | record fields => exact readValue_record hfields hfit (by omega) rest

end Steps

/-! ## The whole text -/

theorem reads (l : Layout) (fuel : Nat) :
    ReadsValues l fuel ∧ ReadsItems l fuel ∧ ReadsFields l fuel := by
  induction fuel with
  | zero =>
      refine ⟨?_, ?_, ?_⟩
      · intro depth level j rest _ _ hfuel
        omega
      · intro depth level items after rest _ _ _ hfuel
        omega
      · intro depth level fields after rest _ _ _ hfuel
        omega
  | succ fuel ih =>
      obtain ⟨hvalues, hitems, hfields⟩ := ih
      exact ⟨readValue_succ hitems hfields, readItems_succ hvalues hitems,
        readFields_succ hvalues hfields⟩

theorem parse_spell (l : Layout) {j : Json} (hj : Fits maxDepth j) :
    parse (String.ofList (spell l 0 j)) = some j := by
  have hread := (reads l (2 * (spell l 0 j).length + 1)).1 maxDepth 0 j [] hj
    (by intro c hc; exact absurd hc (by simp)) (by omega)
  rw [List.append_nil] at hread
  unfold parse
  simp only [String.toList_ofList, hread]
  rfl

/-- Reading the compact form of a value yields the value. -/
theorem parse_compact {j : Json} (hj : Fits maxDepth j) : parse j.compact = some j := by
  rw [compact, ← spell_tight 0 j, parse_spell _ hj]

theorem parse_pretty {j : Json} (hj : Fits maxDepth j) : parse j.pretty = some j := by
  rw [pretty, ← spell_indented 0 j, parse_spell _ hj]

end SymbolAtlas.Json
