import SymbolAtlas.Proofs.Json.Tidy
import SymbolAtlas.Symbol.Coding

/-!
# Decoding symbols

A written symbol is decoded to the same symbol, as it is and after it was tidied.
-/

namespace SymbolAtlas

open Json

theorem decodes_texts (xs : List String) : Decodes (asList asText) (texts xs) xs :=
  decodes_list fun x _ => decodes_text x

section OptionalField

variable {α : Type} {encode : α → Json} {o : Option α} {name : String}

theorem lookup_field (j : Json) (fields : List (String × Json)) (asked : String) :
    ((name, j) :: fields).lookup asked =
      if asked = name then some j else fields.lookup asked := by
  rw [List.lookup_cons]
  by_cases h : asked = name
  · rw [beq_iff_eq.2 h, if_pos h]
  · rw [beq_eq_false_iff_ne.2 h, if_neg h]

theorem lookup_optionalField (asked : String) :
    (optionalField name encode o).lookup asked = if asked = name then o.map encode else none := by
  cases o with
  | none => simp [optionalField]
  | some a => exact lookup_field (encode a) [] asked

theorem arrives_optionalField {decode : Json → Option α} (h : ∀ a, Decodes decode (encode a) a) :
    ∀ f ∈ optionalField name encode o, f.2.Arrives := by
  cases o with
  | none => simp [optionalField]
  | some a => simpa [optionalField] using (h a).arrives

theorem fits_optionalField {depth : Nat} (h : ∀ a, Fits depth (encode a)) :
    ∀ f ∈ optionalField name encode o, Fits depth f.2 := by
  cases o with
  | none => simp [optionalField]
  | some a => simpa [optionalField] using h a

end OptionalField

theorem fits_texts (depth : Nat) (xs : List String) : Fits (depth + 1) (texts xs) := by
  apply fits_list.2
  intro j hj
  obtain ⟨x, -, rfl⟩ := List.mem_map.1 hj
  exact fits_text depth x

/-! ## Parameters -/

namespace Parameter

theorem decodes (p : Parameter) : Decodes ofJson? p.toJson p := by
  obtain ⟨name, typeName, isRef, isOut, isParams, defaultValue⟩ := p
  apply decodes_record
  · cases defaultValue <;> simp [optionalField]
  · simp only [List.forall_mem_append, List.forall_mem_cons]
    exact ⟨⟨(decodes_text name).arrives, (decodes_text typeName).arrives,
      (decodes_bool isRef).arrives, (decodes_bool isOut).arrives, (decodes_bool isParams).arrives,
      by simp⟩,
      arrives_optionalField decodes_text⟩
  · intro route seen hseen
    have hdefault := optional_of_decodes rfl decodes_text defaultValue route
    rw [ofJson?, slots_eq_lookup hseen.nodup]
    simp only [hseen.lookup, List.map_cons, List.map_nil, List.lookup_append, lookup_field,
      lookup_optionalField, List.lookup_nil, String.reduceEq, reduceIte, Option.none_or,
      Option.or_none]
    simp only [Option.bind_eq_bind, Option.bind_some, (decodes_text name).required,
      (decodes_text typeName).required, (decodes_bool isRef).defaulted,
      (decodes_bool isOut).defaulted,
      (decodes_bool isParams).defaulted, hdefault]
    rfl

theorem fits (p : Parameter) (depth : Nat) : Fits (depth + 1) p.toJson := by
  apply fits_record.2
  simp only [List.forall_mem_append, List.forall_mem_cons]
  exact ⟨⟨fits_text _ _, fits_text _ _, fits_bool _ _, fits_bool _ _, fits_bool _ _, by simp⟩,
    fits_optionalField (fits_text depth)⟩

end Parameter

/-! ## Details -/

namespace Kind

theorem decodes (k : Kind) : Decodes ofJson? k.toJson k :=
  fun route => ⟨.text k.name, along_text k.name route, ofName?_name k⟩

end Kind

namespace Visibility

theorem decodes (v : Visibility) : Decodes ofJson? v.toJson v :=
  fun route => ⟨.text v.name, along_text v.name route, ofName?_name v⟩

end Visibility

namespace Details

/-- Details are decoded by their tag, which is a field like the others. -/
theorem ofJson?_of_lookup {seen : List (String × Json)} {tag : String}
    (hnames : (seen.map Prod.fst).Nodup) (h : seen.lookup "detail" = some (.text tag)) :
    ofJson? (.record seen) = ofTagged? tag (.record (seen.filter fun f => f.1 != "detail")) := by
  rw [ofJson?, filter_eq_lookup hnames, h]
  rfl

/-- The details that go with a tag are decoded from the fields after it. -/
theorem decodes_tagged {tag : String} {fields : List (String × Json)} {d : Details}
    (hnodup : ((("detail", .text tag) :: fields).map Prod.fst).Nodup)
    (harrives : ∀ f ∈ fields, f.2.Arrives)
    (hdecode : ∀ route seen, Seen (("detail", .text tag) :: fields) route seen →
      ofTagged? tag (.record (seen.filter fun f => f.1 != "detail")) = some d) :
    Decodes ofJson? (.record (("detail", .text tag) :: fields)) d := by
  apply decodes_record hnodup
  · exact List.forall_mem_cons.2 ⟨(decodes_text tag).arrives, harrives⟩
  · intro route seen hseen
    have htag : seen.lookup "detail" = some (.text tag) := by
      rw [hseen.lookup, lookup_field, if_pos rfl]
      exact along_text tag route
    rw [ofJson?_of_lookup hseen.nodup htag]
    exact hdecode route seen hseen

theorem decodes_none : Decodes ofJson? (toJson .none) .none := by
  apply decodes_tagged
  · simp
  · simp
  · intro route seen _
    rfl

theorem decodes_method (d : MethodDetails) : Decodes ofJson? (toJson (.method d)) (.method d) := by
  obtain ⟨returnType, parameters, typeParameters, modifiers, visibility⟩ := d
  have hparameters := decodes_list fun p (_ : p ∈ parameters) => p.decodes
  have hreturn := optional_of_decodes rfl decodes_text returnType
  show Decodes ofJson? (.record (("detail", .text "method") ::
    (optionalField "return_type" .text returnType ++
      [("parameters", .list (parameters.map Parameter.toJson)),
        ("type_parameters", texts typeParameters), ("modifiers", texts modifiers),
        ("visibility", visibility.toJson)]))) _
  apply decodes_tagged
  · cases returnType <;> simp [optionalField]
  · simp only [List.forall_mem_append, List.forall_mem_cons]
    exact ⟨arrives_optionalField decodes_text, hparameters.arrives,
      (decodes_texts typeParameters).arrives, (decodes_texts modifiers).arrives,
      visibility.decodes.arrives, by simp⟩
  · intro route seen hseen
    have hmethod : methodOfJson? (.record (seen.filter fun f => f.1 != "detail")) =
        some ⟨returnType, parameters, typeParameters, modifiers, visibility⟩ := by
      rw [methodOfJson?, slots_filter_ne (by decide), slots_eq_lookup hseen.nodup]
      simp only [hseen.lookup, List.map_cons, List.map_nil, List.lookup_append, lookup_field,
        lookup_optionalField, List.lookup_nil, String.reduceEq, reduceIte, Option.none_or,
        Option.or_none]
      simp only [Option.bind_eq_bind, Option.bind_some, hreturn, hparameters.defaulted,
        (decodes_texts typeParameters).defaulted, (decodes_texts modifiers).defaulted,
        visibility.decodes.defaulted]
      rfl
    rw [ofTagged?, hmethod]
    rfl

theorem decodes_type (d : TypeDetails) : Decodes ofJson? (toJson (.type d)) (.type d) := by
  obtain ⟨baseTypes, members, modifiers, visibility⟩ := d
  apply decodes_tagged
  · simp
  · simp only [List.forall_mem_cons]
    exact ⟨(decodes_texts baseTypes).arrives, (decodes_texts members).arrives,
      (decodes_texts modifiers).arrives, visibility.decodes.arrives, by simp⟩
  · intro route seen hseen
    have htype : typeOfJson? (.record (seen.filter fun f => f.1 != "detail")) =
        some ⟨baseTypes, members, modifiers, visibility⟩ := by
      rw [typeOfJson?, slots_filter_ne (by decide), slots_eq_lookup hseen.nodup]
      simp only [hseen.lookup, List.map_cons, List.map_nil, lookup_field, String.reduceEq,
        reduceIte]
      simp only [Option.bind_eq_bind, Option.bind_some, (decodes_texts baseTypes).defaulted,
        (decodes_texts members).defaulted, (decodes_texts modifiers).defaulted,
        visibility.decodes.defaulted]
      rfl
    rw [ofTagged?, htype]
    rfl

theorem decodes_property (d : PropertyDetails) :
    Decodes ofJson? (toJson (.property d)) (.property d) := by
  obtain ⟨propertyType, hasGetter, hasSetter, modifiers, visibility⟩ := d
  apply decodes_tagged
  · simp
  · simp only [List.forall_mem_cons]
    exact ⟨(decodes_text propertyType).arrives, (decodes_bool hasGetter).arrives,
      (decodes_bool hasSetter).arrives, (decodes_texts modifiers).arrives,
      visibility.decodes.arrives, by simp⟩
  · intro route seen hseen
    have hproperty : propertyOfJson? (.record (seen.filter fun f => f.1 != "detail")) =
        some ⟨propertyType, hasGetter, hasSetter, modifiers, visibility⟩ := by
      rw [propertyOfJson?, slots_filter_ne (by decide), slots_eq_lookup hseen.nodup]
      simp only [hseen.lookup, List.map_cons, List.map_nil, lookup_field, String.reduceEq,
        reduceIte]
      simp only [Option.bind_eq_bind, Option.bind_some, (decodes_text propertyType).required,
        (decodes_bool hasGetter).defaulted, (decodes_bool hasSetter).defaulted,
        (decodes_texts modifiers).defaulted, visibility.decodes.defaulted]
      rfl
    rw [ofTagged?, hproperty]
    rfl

theorem decodes (d : Details) : Decodes ofJson? d.toJson d := by
  cases d with
  | none => exact decodes_none
  | method d => exact decodes_method d
  | type d => exact decodes_type d
  | property d => exact decodes_property d

theorem fits (d : Details) (depth : Nat) : Fits (depth + 3) d.toJson := by
  have htexts : ∀ xs, Fits (depth + 2) (texts xs) := fits_texts (depth + 1)
  cases d with
  | none =>
      apply fits_record.2
      simp only [List.forall_mem_cons]
      exact ⟨fits_text _ _, by simp⟩
  | method d =>
      have hparameters : Fits (depth + 2) (.list (d.parameters.map Parameter.toJson)) := by
        apply fits_list.2
        intro j hj
        obtain ⟨p, -, rfl⟩ := List.mem_map.1 hj
        exact p.fits depth
      apply fits_record.2
      simp only [List.forall_mem_append, List.forall_mem_cons]
      exact ⟨⟨⟨fits_text _ _, by simp⟩, fits_optionalField (fits_text _)⟩, hparameters,
        htexts _, htexts _, fits_text _ _, by simp⟩
  | type d =>
      apply fits_record.2
      simp only [List.forall_mem_cons]
      exact ⟨fits_text _ _, htexts _, htexts _, htexts _, fits_text _ _, by simp⟩
  | property d =>
      apply fits_record.2
      simp only [List.forall_mem_cons]
      exact ⟨fits_text _ _, fits_text _ _, fits_bool _ _, fits_bool _ _, htexts _,
        fits_text _ _, by simp⟩

end Details

/-! ## Symbols -/

namespace SourceRange

theorem decodes (r : SourceRange) : Decodes ofJson? r.toJson r := by
  obtain ⟨startLine, startColumn, endLine, endColumn⟩ := r
  have hnumber : ∀ n : UInt32, Decodes asNat32 (.nat n.toNat) n.toNat :=
    fun n => decodes_nat (by decide) n.toNat_lt
  apply decodes_record
  · simp
  · simp only [List.forall_mem_cons]
    exact ⟨(hnumber startLine).arrives, (hnumber startColumn).arrives, (hnumber endLine).arrives,
      (hnumber endColumn).arrives, by simp⟩
  · intro route seen hseen
    rw [ofJson?, slots_eq_lookup hseen.nodup]
    simp only [hseen.lookup, List.map_cons, List.map_nil, lookup_field, String.reduceEq, reduceIte]
    simp only [Option.bind_eq_bind, Option.bind_some, (hnumber startLine).required,
      (hnumber startColumn).required, (hnumber endLine).required, (hnumber endColumn).required]
    simp

theorem fits (r : SourceRange) (depth : Nat) : Fits (depth + 1) r.toJson := by
  apply fits_record.2
  simp only [List.forall_mem_cons]
  exact ⟨fits_nat _ _, fits_nat _ _, fits_nat _ _, fits_nat _ _, by simp⟩

end SourceRange

namespace Path

theorem decodes (p : Path) : Decodes ofJson? p.toJson p :=
  fun route => ⟨.text p.spelling, along_text p.spelling route, rfl⟩

end Path

namespace Symbol

theorem decodes (s : Symbol) : Decodes ofJson? s.toJson s := by
  obtain ⟨name, qualifiedName, kind, file, range, project, details⟩ := s
  apply decodes_record
  · cases qualifiedName <;> simp [optionalField]
  · simp only [List.forall_mem_append, List.forall_mem_cons]
    exact ⟨⟨⟨(decodes_text name).arrives, by simp⟩, arrives_optionalField decodes_text⟩,
      kind.decodes.arrives, file.decodes.arrives, range.decodes.arrives,
      (decodes_text project).arrives, details.decodes.arrives, by simp⟩
  · intro route seen hseen
    have hqualified := optional_of_decodes rfl decodes_text qualifiedName route
    rw [ofJson?, slots_eq_lookup hseen.nodup]
    simp only [hseen.lookup, List.map_cons, List.map_nil, List.lookup_append, lookup_field,
      lookup_optionalField, List.lookup_nil, String.reduceEq, reduceIte, Option.none_or,
      Option.or_none]
    simp only [Option.bind_eq_bind, Option.bind_some, (decodes_text name).required, hqualified,
      kind.decodes.required, file.decodes.required, range.decodes.defaulted,
      (decodes_text project).required, details.decodes.defaulted]
    rfl

theorem fits (s : Symbol) (depth : Nat) : Fits (depth + 4) s.toJson := by
  apply fits_record.2
  simp only [List.forall_mem_append, List.forall_mem_cons]
  exact ⟨⟨⟨fits_text _ _, by simp⟩, fits_optionalField (fits_text _)⟩, fits_text _ _,
    fits_text _ _, s.range.fits (depth + 2), fits_text _ _, s.details.fits depth, by simp⟩

end Symbol

end SymbolAtlas
