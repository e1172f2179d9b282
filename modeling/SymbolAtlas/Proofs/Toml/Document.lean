import SymbolAtlas.Proofs.Fields
import SymbolAtlas.Proofs.Toml.Value

/-!
# Reading documents back

A document whose tables hold nothing but values is read back as it was written: its tables are
opened one after another, and every line puts its value into the table that was opened last.
-/

namespace SymbolAtlas.Toml

variable {c : Char} {cs rest : List Char} {fuel parts : Nat} {key : String}

/-- The fields of a table. -/
abbrev Fields := List (String × Toml)

/-! ## Keys -/

/-- A key that is written without quotes. -/
structure IsBareKey (key : String) : Prop where
  ne_nil : key.toList ≠ []
  chars : ∀ c ∈ key.toList, isBareKeyChar c = true

instance (key : String) : Decidable (IsBareKey key) :=
  decidable_of_iff (key.toList ≠ [] ∧ key.toList.all isBareKeyChar = true)
    ⟨fun h => ⟨h.1, List.all_eq_true.mp h.2⟩, fun h => ⟨h.1, List.all_eq_true.mpr h.2⟩⟩

/-- That keys are bare and none is repeated. -/
def AreBareKeys (keys : List String) : Prop := keys.Nodup ∧ ∀ key ∈ keys, IsBareKey key

instance (keys : List String) : Decidable (AreBareKeys keys) :=
  inferInstanceAs (Decidable (_ ∧ _))

theorem AreBareKeys.of_cons {keys : List String} (h : AreBareKeys (key :: keys)) :
    IsBareKey key ∧ key ∉ keys ∧ AreBareKeys keys := by
  obtain ⟨hnot, hnodup⟩ := List.nodup_cons.mp h.1
  exact ⟨h.2 key List.mem_cons_self, hnot, hnodup,
    fun name hname => h.2 name (List.mem_cons_of_mem _ hname)⟩

theorem AreBareKeys.sublist {keys keys' : List String} (h : AreBareKeys keys)
    (hsub : keys'.Sublist keys) : AreBareKeys keys' :=
  ⟨h.1.sublist hsub, fun key hkey => h.2 key (hsub.subset hkey)⟩

theorem writeKey_bare (h : IsBareKey key) : writeKey key = key.toList := by
  unfold writeKey
  rw [if_pos]
  rw [Bool.and_eq_true, List.all_eq_true]
  exact ⟨by simpa using h.ne_nil, h.chars⟩

/-- No character follows that could belong to a bare key. -/
def EndsKey (rest : List Char) : Prop := ∀ c ∈ rest.head?, isBareKeyChar c = false

theorem IsBareKey.exists_cons (h : IsBareKey key) :
    ∃ c cs, key.toList = c :: cs ∧ isBareKeyChar c = true := by
  obtain ⟨c, cs, heq⟩ := List.exists_cons_of_ne_nil h.ne_nil
  exact ⟨c, cs, heq, h.chars c (heq ▸ List.mem_cons_self)⟩

theorem ne_of_isBareKeyChar (hc : isBareKeyChar c = true) {d : Char}
    (hd : isBareKeyChar d = false) : c ≠ d := by
  rintro rfl
  simp [hc] at hd

theorem readSimpleKey_bare (h : IsBareKey key) (hrest : EndsKey rest) :
    readSimpleKey (key.toList ++ rest) = some (key, rest) := by
  obtain ⟨c, cs, heq, hc⟩ := h.exists_cons
  have hline : readLineText (key.toList ++ rest) = none := by
    rw [heq, List.cons_append, readLineText.eq_def]
    split
    · next h => exact absurd (List.cons.inj h).1 (ne_of_isBareKeyChar hc (by decide))
    · next h => exact absurd (List.cons.inj h).1 (ne_of_isBareKeyChar hc (by decide))
    · rfl
  obtain ⟨htake, hdrop⟩ := Text.takeWhile_run h.chars hrest
  rw [readSimpleKey, hline]
  dsimp only
  rw [htake, hdrop, if_neg (by simpa using h.ne_nil), String.ofList_toList]

/-- A bare key with no dot after it is a key of one part. -/
theorem readKey_bare (h : IsBareKey key) (hrest : EndsKey rest)
    (hdot : (skipBlanks rest).head? ≠ some '.') :
    readKey (parts + 1) (key.toList ++ rest) = some ([key], skipBlanks rest) := by
  have hblanks : skipBlanks (key.toList ++ rest) = key.toList ++ rest := by
    obtain ⟨c, cs, heq, hc⟩ := h.exists_cons
    have hspace := ne_of_isBareKeyChar hc (d := ' ') (by decide)
    have htab := ne_of_isBareKeyChar hc (d := '\t') (by decide)
    rw [heq, List.cons_append, skipBlanks,
      List.dropWhile_cons_of_neg (by simp [isBlank, hspace, htab])]
  rw [readKey, hblanks, readSimpleKey_bare h hrest, Option.bind_eq_bind, Option.bind_some]
  dsimp only
  split
  · next heq => simp [heq] at hdot
  · rfl

/-! ## Writing tables of values -/

/-- That the fields of a table hold values under different bare keys. -/
structure IsFlat (fields : Fields) : Prop where
  keys : AreBareKeys (fields.map Prod.fst)
  value : ∀ field ∈ fields, Readable maxDepth field.2

theorem IsFlat.of_cons {field : String × Toml} {fields : Fields} (h : IsFlat (field :: fields)) :
    IsFlat fields :=
  ⟨h.keys.of_cons.2.2, fun f hf => h.value f (List.mem_cons_of_mem _ hf)⟩

/-- That several tables hold nothing but values and have different bare keys. -/
structure AreFlat (sections : List (String × Fields)) : Prop where
  keys : AreBareKeys (sections.map Prod.fst)
  flat : ∀ s ∈ sections, IsFlat s.2

theorem AreFlat.of_cons {s : String × Fields} {sections : List (String × Fields)}
    (h : AreFlat (s :: sections)) : AreFlat sections :=
  ⟨h.keys.of_cons.2.2, fun s hs => h.flat s (List.mem_cons_of_mem _ hs)⟩

/-- The lines of a table of values. -/
def writeLines (fields : Fields) : List Char := fields.flatMap fun (key, value) =>
  writeKey key ++ " = ".toList ++ writeValue value ++ ['\n']

/-- Several tables as the fields of one. -/
def tables (sections : List (String × Fields)) : Fields :=
  sections.map fun (key, fields) => (key, .table fields)

/-- A table with its header. -/
def writeSection (key : String) (fields : Fields) : List Char :=
  '[' :: key.toList ++ ']' :: '\n' :: writeLines fields

theorem writeBlocks_eq {depth : Nat} {fields : Fields}
    (h : ∀ field ∈ fields, Readable depth field.2) (path : List String) :
    writeBlocks path fields = (writeLines fields, []) := by
  induction fields with
  | nil =>
    rw [writeBlocks]
    rfl
  | cons field fields ih =>
    obtain ⟨key, value⟩ := field
    have hvalue := h _ List.mem_cons_self
    have hrest := ih fun field hmem => h field (List.mem_cons_of_mem _ hmem)
    rw [writeBlocks, hrest]
    · simp [writeLines]
    · rintro fields rfl
      cases hvalue

/-- The text of several tables. -/
def writeSections (sections : List (String × Fields)) : List Char :=
  separated ['\n'] (sections.map fun (key, fields) => writeSection key fields)

theorem writeSections_cons (key : String) (fields : Fields) (sections : List (String × Fields)) :
    writeSections ((key, fields) :: sections) = writeSection key fields ++
      if sections = [] then [] else '\n' :: writeSections sections := by
  cases sections with
  | nil => simp [writeSections, separated]
  | cons s sections => simp [writeSections, separated]

/-- The text of tables begins with the bracket of a header. -/
theorem writeSections_cases (sections : List (String × Fields)) :
    writeSections sections = [] ∨ ∃ cs, writeSections sections = '[' :: cs := by
  obtain _ | ⟨⟨key, fields⟩, sections⟩ := sections
  · exact .inl rfl
  · rw [writeSections_cons]
    exact .inr ⟨_, rfl⟩

/-- A document of tables is their text. -/
theorem toList_document {sections : List (String × Fields)} (h : AreFlat sections) :
    (document (tables sections)).toList = writeSections sections := by
  have htable (key : String) (hkey : IsBareKey key) {fields : Fields} (hfields : IsFlat fields) :
      writeTable [key] fields = [writeSection key fields] := by
    rw [writeTable, writeBlocks_eq hfields.value]
    simp [separated, writeKey_bare hkey, writeSection]
  have hblocks : writeBlocks [] (tables sections) =
      ([], sections.map fun (key, fields) => writeSection key fields) := by
    induction sections with
    | nil =>
      rw [tables, List.map_nil, writeBlocks]
      rfl
    | cons s sections ih =>
      obtain ⟨key, fields⟩ := s
      have hfields := h.flat _ List.mem_cons_self
      have hrest := ih h.of_cons
      rw [tables] at hrest ⊢
      rw [List.map_cons, writeBlocks, hrest]
      simp [htable key h.keys.of_cons.1 hfields]
  rw [document, hblocks, String.toList_ofList]
  rfl

/-! ## Reading lines -/

theorem readLineEnd_newline : readLineEnd ('\n' :: rest) = some rest := rfl

theorem skipBlanks_written {depth : Nat} {value : Toml} (h : Readable depth value) :
    skipBlanks (' ' :: (writeValue value ++ rest)) = writeValue value ++ rest := by
  obtain ⟨c, cs, heq, hc⟩ := h.exists_cons
  have hblank : isBlank c = false := by simp [isBlank, hc.ne]
  rw [heq, skipBlanks, List.dropWhile_cons_of_pos rfl, List.cons_append,
    List.dropWhile_cons_of_neg (by simp [hblank])]

theorem skipSpace_bareKey (h : IsBareKey key) (rest : List Char) :
    skipSpace (key.toList ++ rest).length (key.toList ++ rest) = key.toList ++ rest := by
  obtain ⟨c, cs, heq, hc⟩ := h.exists_cons
  have hspace := ne_of_isBareKeyChar hc (d := ' ') (by decide)
  have htab := ne_of_isBareKeyChar hc (d := '\t') (by decide)
  rw [heq]
  exact skipSpace_cons (by simp [isBlank, hspace, htab]) (ne_of_isBareKeyChar hc (by decide))
    (ne_of_isBareKeyChar hc (by decide)) (ne_of_isBareKeyChar hc (by decide))

/-- The value of a line goes into the table of the last header. -/
theorem readLines_value {header : List String} {root root' : Draft.Fields} {value : Toml}
    (hkey : IsBareKey key) (hvalue : Readable maxDepth value)
    (hput : Draft.within (Draft.put [key] value) header root = some root') :
    readLines (fuel + 1) header root
        (key.toList ++ ' ' :: '=' :: ' ' :: (writeValue value ++ '\n' :: rest)) =
      readLines fuel header root' rest := by
  have hread : readKey maxDepth
      (key.toList ++ ' ' :: '=' :: ' ' :: (writeValue value ++ '\n' :: rest)) =
        some ([key], '=' :: ' ' :: (writeValue value ++ '\n' :: rest)) :=
    readKey_bare hkey (by simp [EndsKey, isBareKeyChar]) (by simp [skipBlanks, isBlank])
  have hback : readValue (2 * ((writeValue value).length + (rest.length + 1) + 1) + 2) maxDepth
      (writeValue value ++ '\n' :: rest) = some (value, '\n' :: rest) :=
    hvalue.readBack _ _ (by omega) (by simp [EndsValue])
  obtain ⟨c, cs, heq, hc⟩ := hkey.exists_cons
  have hskip := skipSpace_bareKey hkey (' ' :: '=' :: ' ' :: (writeValue value ++ '\n' :: rest))
  rw [heq, List.cons_append] at hread hskip ⊢
  rw [readLines, hskip]
  split
  · next h => cases h
  · next h => exact absurd (List.cons.inj h).1 (ne_of_isBareKeyChar hc (by decide))
  · rw [hread]
    simp [skipBlanks_written hvalue, hback, hput, readLineEnd_newline]

theorem readLines_header {header : List String} {root root' : Draft.Fields}
    (hkey : IsBareKey key) (hopen : Draft.openAt false [key] root = some root') :
    readLines (fuel + 1) header root ('[' :: (key.toList ++ ']' :: '\n' :: rest)) =
      readLines fuel [key] root' rest := by
  have hread : readKey maxDepth (key.toList ++ ']' :: '\n' :: rest) =
      some ([key], ']' :: '\n' :: rest) :=
    readKey_bare hkey (by simp [EndsKey, isBareKeyChar]) (by simp [skipBlanks, isBlank])
  have hheader : readHeader ('[' :: (key.toList ++ ']' :: '\n' :: rest)) =
      some ((false, [key]), rest) := by
    obtain ⟨c, cs, heq, hc⟩ := hkey.exists_cons
    rw [heq, List.cons_append] at hread ⊢
    rw [readHeader.eq_def]
    split
    · next h =>
      exact absurd (List.cons.inj (List.cons.inj h).2).1 (ne_of_isBareKeyChar hc (by decide))
    · next h =>
      obtain rfl := (List.cons.inj h).2
      rw [hread]
      simp [readLineEnd_newline]
    · next h => exact absurd rfl (h _)
  rw [readLines, skipSpace_cons rfl (by decide) (by decide) (by decide)]
  simp [hheader, hopen]

/-- An end of a line is passed over. -/
theorem readLines_newline {header : List String} {root : Draft.Fields}
    (hcs : (skipLines cs).head? ≠ some '#') :
    readLines (fuel + 1) header root ('\n' :: cs) = readLines (fuel + 1) header root cs := by
  have hskip : skipSpace ('\n' :: cs).length ('\n' :: cs) = skipSpace cs.length cs := by
    rw [skipSpace_eq hcs, skipSpace_eq]
    · rfl
    · exact hcs
  simp only [readLines, hskip]

/-! ## Reading tables -/

/-- The fields of a table as they stand in a draft. -/
def drafted (fields : Fields) : Draft.Fields := fields.map fun (key, value) => (key, .closed value)

theorem finishFields_drafted (fields : Fields) : Draft.finishFields (drafted fields) = fields := by
  induction fields with
  | nil => rfl
  | cons field fields ih =>
    rw [drafted, List.map_cons, Draft.finishFields]
    exact congrArg₂ _ (by rw [Draft.finish]) ih

/-- The tables of a document as they stand in a draft. -/
def draftedTables (sections : List (String × Fields)) : Draft.Fields :=
  sections.map fun (key, fields) => (key, .table .header (drafted fields))

theorem finishFields_draftedTables (sections : List (String × Fields)) :
    Draft.finishFields (draftedTables sections) = tables sections := by
  induction sections with
  | nil => rfl
  | cons s sections ih =>
    rw [draftedTables, List.map_cons, Draft.finishFields, Draft.finish, finishFields_drafted]
    exact congrArg _ ih

/-- A field that is not there yet is added to the table of the last header. -/
theorem within_put {root acc : Draft.Fields} {name : String} {value : Toml}
    (hroot : key ∉ root.map Prod.fst) (hacc : name ∉ acc.map Prod.fst) :
    Draft.within (Draft.put [name] value) [key] (root ++ [(key, .table .header acc)]) =
      some (root ++ [(key, .table .header (acc ++ [(name, .closed value)]))]) := by
  have hlookup : (root ++ [(key, Draft.table .header acc)]).lookup key =
      some (.table .header acc) := by
    simp [List.lookup_append, lookup_eq_none hroot]
  have hput : Draft.put [name] value acc = some (acc ++ [(name, .closed value)]) := by
    simp [Draft.put, Draft.addDotted, Draft.add, lookup_eq_none hacc]
  have hreplace (d : Draft) : Draft.replace (root ++ [(key, .table .header acc)]) key d =
      root ++ [(key, d)] := by
    have hsame : root.map (fun x => if x.1 = key then (x.1, d) else (x.1, x.2)) = root := by
      refine (List.map_congr_left fun x hx => if_neg ?_).trans (List.map_id root)
      rintro rfl
      exact hroot (List.mem_map_of_mem hx)
    simp [Draft.replace, hsame]
  simp [Draft.within, hlookup, hput, hreplace]

/-- A header that was not read yet opens a table. -/
theorem openAt_new {root : Draft.Fields} (hroot : key ∉ root.map Prod.fst) :
    Draft.openAt false [key] root = some (root ++ [(key, .table .header [])]) := by
  simp [Draft.openAt, Draft.within, Draft.openTable, lookup_eq_none hroot]

/-- A key that was put in is not one of the keys to come. -/
theorem not_mem_keys_concat {α : Type} {fields : List (String × α)} {acc : Draft.Fields}
    {d : Draft} (hnot : key ∉ fields.map Prod.fst)
    (hacc : ∀ field ∈ fields, field.1 ∉ acc.map Prod.fst) :
    ∀ field ∈ fields, field.1 ∉ (acc ++ [(key, d)]).map Prod.fst := by
  intro field hmem
  rw [List.map_append, List.mem_append, not_or]
  have hne : field.1 ≠ key := fun heq => hnot (List.mem_map.mpr ⟨field, hmem, heq⟩)
  exact ⟨hacc field hmem, by simpa using hne⟩

/-- The lines of the last table are read into it. -/
theorem readLines_writeLines {root acc : Draft.Fields} {fields : Fields}
    (hroot : key ∉ root.map Prod.fst) (hfields : IsFlat fields)
    (hacc : ∀ field ∈ fields, field.1 ∉ acc.map Prod.fst)
    (hfuel : (writeLines fields ++ rest).length < fuel) :
    ∃ fuel', rest.length < fuel' ∧
      readLines fuel [key] (root ++ [(key, .table .header acc)]) (writeLines fields ++ rest) =
        readLines fuel' [key] (root ++ [(key, .table .header (acc ++ drafted fields))]) rest := by
  induction fields generalizing fuel acc with
  | nil =>
    refine ⟨fuel, hfuel, ?_⟩
    simp [drafted, writeLines]
  | cons field fields ih =>
    obtain ⟨name, value⟩ := field
    obtain ⟨hname, hnot, -⟩ := hfields.keys.of_cons
    have hvalue := hfields.value _ List.mem_cons_self
    have htext : writeLines ((name, value) :: fields) ++ rest =
        name.toList ++ ' ' :: '=' :: ' ' ::
          (writeValue value ++ '\n' :: (writeLines fields ++ rest)) := by
      simp [writeLines, writeKey_bare hname]
    rw [htext] at hfuel ⊢
    obtain ⟨fuel, rfl⟩ := Nat.exists_eq_succ_of_ne_zero (Nat.ne_zero_of_lt hfuel)
    have hmore := not_mem_keys_concat (d := .closed value) hnot fun field hmem =>
      hacc field (List.mem_cons_of_mem _ hmem)
    have hlength : (writeLines fields ++ rest).length < fuel := by
      simp only [List.length_append, List.length_cons] at hfuel ⊢
      omega
    obtain ⟨fuel', hfuel', heq⟩ := ih hfields.of_cons hmore hlength
    refine ⟨fuel', hfuel', ?_⟩
    rw [readLines_value hname hvalue (within_put hroot (hacc _ List.mem_cons_self)), heq]
    simp [drafted]

/-- A table that is not there yet is opened and read. -/
theorem readLines_writeSection (header : List String) {root : Draft.Fields} {fields : Fields}
    (hkey : IsBareKey key) (hfields : IsFlat fields) (hroot : key ∉ root.map Prod.fst)
    (hfuel : (writeSection key fields ++ rest).length < fuel) :
    ∃ fuel', rest.length < fuel' ∧
      readLines fuel header root (writeSection key fields ++ rest) =
        readLines fuel' [key] (root ++ [(key, .table .header (drafted fields))]) rest := by
  have htext : writeSection key fields ++ rest =
      '[' :: (key.toList ++ ']' :: '\n' :: (writeLines fields ++ rest)) := by
    simp [writeSection]
  rw [htext] at hfuel ⊢
  obtain ⟨fuel, rfl⟩ := Nat.exists_eq_succ_of_ne_zero (Nat.ne_zero_of_lt hfuel)
  rw [readLines_header hkey (openAt_new hroot)]
  refine readLines_writeLines hroot hfields (by simp) ?_
  simp only [List.length_append, List.length_cons] at hfuel ⊢
  omega

/-- Tables are opened and read one after another. -/
theorem readLines_writeSections (header : List String) (root : Draft.Fields)
    {sections : List (String × Fields)} (hsections : AreFlat sections)
    (hroot : ∀ s ∈ sections, s.1 ∉ root.map Prod.fst)
    (hfuel : (writeSections sections).length < fuel) :
    readLines fuel header root (writeSections sections) =
      some (root ++ draftedTables sections) := by
  induction sections generalizing fuel header root with
  | nil =>
    obtain ⟨fuel, rfl⟩ := Nat.exists_eq_succ_of_ne_zero (Nat.ne_zero_of_lt hfuel)
    simp [readLines, writeSections, separated, skipSpace, draftedTables]
  | cons s sections ih =>
    obtain ⟨key, fields⟩ := s
    obtain ⟨hkey, hnot, -⟩ := hsections.keys.of_cons
    have hfields := hsections.flat _ List.mem_cons_self
    have hmore := not_mem_keys_concat (d := .table .header (drafted fields)) hnot fun s hs =>
      hroot s (List.mem_cons_of_mem _ hs)
    rw [writeSections_cons] at hfuel ⊢
    obtain ⟨fuel', hfuel', heq⟩ := readLines_writeSection header hkey hfields
      (hroot _ List.mem_cons_self) hfuel
    have hrest (hlt : (writeSections sections).length < fuel') :=
      ih [key] (root ++ [(key, .table .header (drafted fields))]) hsections.of_cons hmore hlt
    rw [heq]
    split_ifs at hfuel' ⊢ with hnil
    · subst hnil
      simpa [writeSections, separated, draftedTables] using hrest hfuel'
    · obtain ⟨fuel', rfl⟩ := Nat.exists_eq_succ_of_ne_zero (Nat.ne_zero_of_lt hfuel')
      rw [readLines_newline, hrest ((Nat.lt_succ_self _).trans hfuel')]
      · simp [draftedTables]
      · obtain hempty | ⟨cs, hcs⟩ := writeSections_cases sections
        · simp [hempty, skipLines]
        · rw [hcs, skipLines_cons rfl (by decide) (by decide)]
          simp

/-- A document does not begin with a byte order mark. -/
theorem dropMark_document {sections : List (String × Fields)} (h : AreFlat sections) :
    dropMark (document (tables sections)).toList = (document (tables sections)).toList := by
  rw [toList_document h]
  obtain hempty | ⟨cs, hcs⟩ := writeSections_cases sections
  · rw [hempty]
    rfl
  · have hmark : '['.toNat ≠ 0xFEFF := by decide
    rw [hcs, dropMark, if_neg hmark]

/-- A document of tables is read back as it was written. -/
theorem parse_document {sections : List (String × Fields)} (h : AreFlat sections) :
    parse (document (tables sections)) = some (tables sections) := by
  have hread := readLines_writeSections [] [] h (by simp) (Nat.lt_succ_self _)
  rw [parse, dropMark_document h, toList_document h, hread]
  exact congrArg some (finishFields_draftedTables sections)

end SymbolAtlas.Toml
