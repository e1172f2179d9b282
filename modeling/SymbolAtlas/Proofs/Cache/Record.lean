import SymbolAtlas.Cache.Record
import SymbolAtlas.Proofs.Path
import SymbolAtlas.Proofs.Symbol.Coding

/-!
# Records of the durable tier and their files

A written record is read back as the same record. The file of a record is told apart from the
temporary files by its name.
-/

namespace SymbolAtlas

/-! ## Digests -/

namespace Sha256

theorem length_round {state : List UInt32} (h : state.length = 8) (added : UInt32) :
    (round state added).length = 8 := by
  unfold round
  split
  · rfl
  · exact h

theorem length_rounds {state : List UInt32} (h : state.length = 8) (added : List UInt32) :
    (added.foldl round state).length = 8 := by
  induction added generalizing state with
  | nil => exact h
  | cons x added ih => exact ih (length_round h x)

theorem length_fold {state : List UInt32} (h : state.length = 8) (block : List UInt32) :
    (fold state block).length = 8 := by
  unfold fold
  rw [List.length_zipWith, length_rounds h, h]
  rfl

theorem length_foldBlocks (n : Nat) {state : List UInt32} (h : state.length = 8)
    (rest : List UInt32) : (foldBlocks n state rest).length = 8 := by
  induction n generalizing state rest with
  | zero => exact h
  | succ n ih => exact ih (length_fold h _) _

theorem length_bigEndian (width n : Nat) : (bigEndian width n).length = width := by
  unfold bigEndian
  rw [List.length_map, List.length_reverse, List.length_range]

/-- A digest has thirty-two bytes. -/
theorem length_digest (message : List UInt8) : (digest message).length = 32 := by
  unfold digest
  simp only [List.length_flatMap, length_bigEndian, List.map_const', List.sum_replicate_nat]
  rw [length_foldBlocks _ rfl]

theorem length_hex (s : String) : (hex s).length = 64 := by
  unfold hex
  rw [String.length_ofList, List.length_flatMap]
  simp only [List.length_cons, List.length_nil, List.map_const', List.sum_replicate_nat]
  rw [length_digest]

end Sha256

/-! ## Names of files -/

namespace Cache.Record

theorem stem_ne_empty (key : String) : stem key ≠ "" := by
  intro h
  have hlength := Sha256.length_hex key
  rw [show Sha256.hex key = "" from h] at hlength
  exact absurd hlength (by decide)

theorem extensionOf?_fileName (key : String) :
    Path.extensionOf? (fileName key) = some "json" := by
  unfold fileName
  exact Path.extensionOf?_append (stem_ne_empty key) (by decide) (by decide)

theorem extensionOf?_temporaryName (key : String) :
    Path.extensionOf? (temporaryName key) = some "tmp" := by
  unfold temporaryName
  exact Path.extensionOf?_append (stem_ne_empty key) (by decide) (by decide)

theorem isOwn_fileName (key : String) : isOwn (fileName key) = true := by
  unfold isOwn
  rw [extensionOf?_fileName]
  rfl

theorem isOwn_temporaryName (key : String) : isOwn (temporaryName key) = true := by
  unfold isOwn
  rw [extensionOf?_temporaryName]
  rfl

theorem fileName_ne_temporaryName (key other : String) : fileName key ≠ temporaryName other := by
  intro h
  have hextension := extensionOf?_fileName key
  rw [h, extensionOf?_temporaryName] at hextension
  exact absurd hextension (by decide)

/-! ## Contents -/

open Json

theorem toJson_eq (r : Record) : r.toJson = .record
    ([("key", .text r.key), ("value", r.value), ("inserted_at", nat r.inserted),
      ("expires_at", nat r.expires)] ++ optionalField "version" .text r.version) := by
  unfold toJson
  cases r.version <;> rfl

theorem fits {r : Record} {depth : Nat} (h : Fits depth r.value) : Fits (depth + 1) r.toJson := by
  rw [toJson_eq]
  apply fits_record.2
  simp only [List.forall_mem_append, List.forall_mem_cons]
  exact ⟨⟨fits_text _ _, h, fits_nat _ _, fits_nat _ _, by simp⟩, fits_optionalField (fits_text _)⟩

theorem asNat64_nat {n : Nat} (h : n < 2 ^ 64) : asNat64 (nat n) = some n := by
  unfold asNat64
  exact asNatBelow_nat (Nat.le_refl _) h

theorem optional_asText (version : Option String) :
    optional asText (version.map .text) = some version := by
  cases version <;> rfl

/-- A written record is decoded to the same record, if its value is tidy and its moments are such
as a record can name. -/
theorem ofJson?_toJson_eq {r : Record} (hvalue : r.value.tidy? = some r.value) :
    ofJson? r.toJson = (asNat64 (nat r.inserted)).bind fun inserted =>
      (asNat64 (nat r.expires)).map fun expires => { r with inserted, expires } := by
  obtain ⟨key, value, inserted, expires, version⟩ := r
  have hnodup : (([("key", .text key), ("value", value), ("inserted_at", nat inserted),
      ("expires_at", nat expires)] ++ optionalField "version" .text version).map
        Prod.fst).Nodup := by
    cases version <;> simp [optionalField]
  rw [toJson_eq, ofJson?, slots_eq_lookup hnodup]
  simp only [List.map_cons, List.map_nil, List.lookup_append, lookup_field,
    lookup_optionalField, List.lookup_nil, String.reduceEq, reduceIte, Option.none_or,
    Option.or_none]
  simp only [Option.bind_eq_bind, Option.bind_some, required, asText, hvalue, optional_asText]
  cases asNat64 (nat inserted) with
  | none => rfl
  | some inserted => cases asNat64 (nat expires) <;> rfl

theorem ofJson?_toJson {r : Record} (hvalue : r.value.tidy? = some r.value)
    (hinserted : r.inserted < 2 ^ 64) (hexpires : r.expires < 2 ^ 64) :
    ofJson? r.toJson = some r := by
  rw [ofJson?_toJson_eq hvalue, asNat64_nat hinserted, asNat64_nat hexpires]
  rfl

/-- The text of a record is read back as the same record. -/
theorem read_written {r : Record} (hvalue : r.value.tidy? = some r.value)
    (hfits : Fits 126 r.value) (hinserted : r.inserted < 2 ^ 64) (hexpires : r.expires < 2 ^ 64) :
    (Json.parse r.toJson.compact).bind ofJson? = some r := by
  rw [parse_compact (fits hfits), Option.bind_some]
  exact ofJson?_toJson hvalue hinserted hexpires

/-- Whatever is read from the text of a record has its value and its version tag. -/
theorem of_read_written {r read : Record} (hvalue : r.value.tidy? = some r.value)
    (hfits : Fits 126 r.value) (h : (Json.parse r.toJson.compact).bind ofJson? = some read) :
    read.value = r.value ∧ read.version = r.version := by
  rw [parse_compact (fits hfits), Option.bind_some, ofJson?_toJson_eq hvalue,
    Option.bind_eq_some_iff] at h
  obtain ⟨inserted, -, h⟩ := h
  obtain ⟨expires, -, rfl⟩ := Option.map_eq_some_iff.1 h
  exact ⟨rfl, rfl⟩

end Cache.Record

end SymbolAtlas
