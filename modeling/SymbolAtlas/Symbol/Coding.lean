import SymbolAtlas.Json.Decode
import SymbolAtlas.Symbol.Basic

/-!
# Symbols as JSON

How a symbol is written as a JSON record and read back. Absent optional values are left out when
a record is written; when it is read, everything that has a default may be missing.
-/

namespace SymbolAtlas

open Json

/-- A field that is left out where there is nothing to write. -/
def Json.optionalField {α : Type} (name : String) (f : α → Json) :
    Option α → List (String × Json)
  | none => []
  | some a => [(name, f a)]

def Json.texts (xs : List String) : Json := .list (xs.map .text)

namespace Kind

def toJson (k : Kind) : Json := .text k.name

def ofJson? : Json → Option Kind := asNamed ofName?

end Kind

namespace Visibility

def toJson (v : Visibility) : Json := .text v.name

def ofJson? : Json → Option Visibility := asNamed ofName?

end Visibility

namespace Parameter

def toJson (p : Parameter) : Json := .record <|
  [("name", .text p.name), ("type_name", .text p.typeName), ("is_ref", .bool p.isRef),
    ("is_out", .bool p.isOut), ("is_params", .bool p.isParams)] ++
  optionalField "default_value" .text p.defaultValue

def ofJson? (j : Json) : Option Parameter := do
  match ← slots ["name", "type_name", "is_ref", "is_out", "is_params", "default_value"] j with
  | [name, typeName, isRef, isOut, isParams, defaultValue] =>
    return {
      name := ← required asText name
      typeName := ← required asText typeName
      isRef := ← defaulted false asBool isRef
      isOut := ← defaulted false asBool isOut
      isParams := ← defaulted false asBool isParams
      defaultValue := ← optional asText defaultValue }
  | _ => none

end Parameter

namespace Details

/-- The fields of a record of details, after the one that tells which details they are. -/
def toJson : Details → Json
  | .none => .record [("detail", .text "none")]
  | .method d => .record <|
    [("detail", .text "method")] ++ optionalField "return_type" .text d.returnType ++
    [("parameters", .list (d.parameters.map Parameter.toJson)),
      ("type_parameters", texts d.typeParameters), ("modifiers", texts d.modifiers),
      ("visibility", d.visibility.toJson)]
  | .type d => .record
    [("detail", .text "type"), ("base_types", texts d.baseTypes), ("members", texts d.members),
      ("modifiers", texts d.modifiers), ("visibility", d.visibility.toJson)]
  | .property d => .record
    [("detail", .text "property"), ("property_type", .text d.propertyType),
      ("has_getter", .bool d.hasGetter), ("has_setter", .bool d.hasSetter),
      ("modifiers", texts d.modifiers), ("visibility", d.visibility.toJson)]

def methodOfJson? (j : Json) : Option MethodDetails := do
  match ← slots ["return_type", "parameters", "type_parameters", "modifiers", "visibility"] j with
  | [returnType, parameters, typeParameters, modifiers, visibility] =>
    return {
      returnType := ← optional asText returnType
      parameters := ← defaulted [] (asList Parameter.ofJson?) parameters
      typeParameters := ← defaulted [] (asList asText) typeParameters
      modifiers := ← defaulted [] (asList asText) modifiers
      visibility := ← defaulted .privateAccess Visibility.ofJson? visibility }
  | _ => Option.none

def typeOfJson? (j : Json) : Option TypeDetails := do
  match ← slots ["base_types", "members", "modifiers", "visibility"] j with
  | [baseTypes, members, modifiers, visibility] =>
    return {
      baseTypes := ← defaulted [] (asList asText) baseTypes
      members := ← defaulted [] (asList asText) members
      modifiers := ← defaulted [] (asList asText) modifiers
      visibility := ← defaulted .privateAccess Visibility.ofJson? visibility }
  | _ => Option.none

def propertyOfJson? (j : Json) : Option PropertyDetails := do
  match ← slots ["property_type", "has_getter", "has_setter", "modifiers", "visibility"] j with
  | [propertyType, hasGetter, hasSetter, modifiers, visibility] =>
    return {
      propertyType := ← required asText propertyType
      hasGetter := ← defaulted false asBool hasGetter
      hasSetter := ← defaulted false asBool hasSetter
      modifiers := ← defaulted [] (asList asText) modifiers
      visibility := ← defaulted .privateAccess Visibility.ofJson? visibility }
  | _ => Option.none

/-- The details that go with a tag, from the other fields. -/
def ofTagged? (tag : String) (rest : Json) : Option Details :=
  match tag with
  | "none" => some .none
  | "method" => (methodOfJson? rest).map .method
  | "type" => (typeOfJson? rest).map .type
  | "property" => (propertyOfJson? rest).map .property
  | _ => Option.none

/-- The tag is a field of the record, or the first item of a list. -/
def ofJson? : Json → Option Details
  | .record fields =>
    match fields.filter (·.1 == "detail") with
    | [(_, .text tag)] => ofTagged? tag (.record (fields.filter (·.1 != "detail")))
    | _ => Option.none
  | .list (.text tag :: rest) => ofTagged? tag (.list rest)
  | _ => Option.none

end Details

namespace SourceRange

def toJson (r : SourceRange) : Json := .record
  [("start_line", .nat r.startLine.toNat), ("start_column", .nat r.startColumn.toNat),
    ("end_line", .nat r.endLine.toNat), ("end_column", .nat r.endColumn.toNat)]

def ofJson? (j : Json) : Option SourceRange := do
  match ← slots ["start_line", "start_column", "end_line", "end_column"] j with
  | [startLine, startColumn, endLine, endColumn] =>
    return {
      startLine := (← required asNat32 startLine).toUInt32
      startColumn := (← required asNat32 startColumn).toUInt32
      endLine := (← required asNat32 endLine).toUInt32
      endColumn := (← required asNat32 endColumn).toUInt32 }
  | _ => none

end SourceRange

namespace Path

def toJson (p : Path) : Json := .text p.spelling

def ofJson? (j : Json) : Option Path := (asText j).map Path.mk

end Path

namespace Symbol

def toJson (s : Symbol) : Json := .record <|
  [("name", .text s.name)] ++ optionalField "fully_qualified_name" .text s.qualifiedName ++
  [("kind", s.kind.toJson), ("file_path", s.file.toJson), ("range", s.range.toJson),
    ("project_name", .text s.project), ("details", s.details.toJson)]

def ofJson? (j : Json) : Option Symbol := do
  match ← slots ["name", "fully_qualified_name", "kind", "file_path", "range", "project_name",
      "details"] j with
  | [name, qualifiedName, kind, file, range, project, details] =>
    return {
      name := ← required asText name
      qualifiedName := ← optional asText qualifiedName
      kind := ← required Kind.ofJson? kind
      file := ← required Path.ofJson? file
      range := ← defaulted {} SourceRange.ofJson? range
      project := ← required asText project
      details := ← defaulted .none Details.ofJson? details }
  | _ => none

end Symbol

end SymbolAtlas
