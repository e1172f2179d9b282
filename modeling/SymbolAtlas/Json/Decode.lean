import SymbolAtlas.Json.Basic

/-!
# Decoding records

Strict decoding of JSON values. A record may be given by its fields in any order, where unknown
fields are passed over and a known field may not be repeated, or as a list of its fields in
order. A value of the wrong kind is refused.
-/

namespace SymbolAtlas.Json

/-- The values given for the named fields, in the order of the names. -/
def slots (names : List String) : Json → Option (List (Option Json))
  | .record fields =>
    names.mapM fun name =>
      match fields.filter (·.1 == name) with
      | [] => some none
      | [(_, j)] => some (some j)
      | _ => none
  | .list items =>
    if items.length ≤ names.length then
      some (items.map some ++ List.replicate (names.length - items.length) none)
    else none
  | _ => none

variable {α : Type}

/-- A field that must be given. -/
def required (decode : Json → Option α) (slot : Option Json) : Option α := slot.bind decode

/-- A field with a default for where it is missing. -/
def defaulted (default : α) (decode : Json → Option α) : Option Json → Option α
  | none => some default
  | some j => decode j

/-- A field that may be missing or `null`. -/
def optional (decode : Json → Option α) : Option Json → Option (Option α)
  | none => some none
  | some .null => some none
  | some j => (decode j).map some

def asText : Json → Option String
  | .text s => some s
  | _ => none

def asBool : Json → Option Bool
  | .bool b => some b
  | _ => none

/-- A whole number below a bound. -/
def asNatBelow (bound : Nat) : Json → Option Nat
  | .number n => n.toNat?.bind fun k => if k < bound then some k else none
  | _ => none

def asNat32 : Json → Option Nat := asNatBelow UInt32.size

def asNat64 : Json → Option Nat := asNatBelow UInt64.size

/-- A 32-bit float: a whole number is rounded once, any other number through 64 bits. -/
def asFloat32 : Json → Option Float32
  | .number n =>
    match n.toNat?, n.toInt? with
    | some k, _ => some k.toUInt64.toFloat32
    | none, some i => some (-(i.natAbs.toUInt64.toFloat32))
    | none, none => n.toFloat?.map Float.toFloat32
  | _ => none

def asFloat : Json → Option Float
  | .number n => n.toFloat?
  | _ => none

def asList (decode : Json → Option α) : Json → Option (List α)
  | .list items => items.mapM decode
  | _ => none

/-- One of a list of names; a name may also be given as a record with `null` under it. -/
def asNamed (find : String → Option α) : Json → Option α
  | .text s => find s
  | .record [(s, .null)] => find s
  | _ => none

end SymbolAtlas.Json
