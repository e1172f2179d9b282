import SymbolAtlas.Decimal.Reader
import SymbolAtlas.Decimal.Shortest
import SymbolAtlas.Text.Lowercase
import SymbolAtlas.Toml.Basic

/-!
# Settings

What a source of configuration says, and the values that it is taken for. A setting is taken for
another kind of value where that makes sense: a text that writes out a number is a number, and any
number is a truth value.
-/

namespace SymbolAtlas

inductive Setting where
  /-- A place in a list that nothing was said about. -/
  | absent
  | boolean (b : Bool)
  | integer (n : Int)
  | float (f : Float)
  | text (s : String)
  | list (items : List Setting)
  | table (fields : List (String × Setting))
deriving Inhabited

namespace Setting

mutual

/-- A setting from a file. -/
def ofToml : Toml → Setting
  | .text s => .text s
  | .integer n => .integer n
  | .float f => .float f
  | .boolean b => .boolean b
  | .moment spelling => .text spelling
  | .list items => .list (ofTomlItems items)
  | .table fields => .table (ofTomlFields fields)

def ofTomlItems : List Toml → List Setting
  | [] => []
  | t :: rest => ofToml t :: ofTomlItems rest

def ofTomlFields : List (String × Toml) → List (String × Setting)
  | [] => []
  | (key, t) :: rest => (key, ofToml t) :: ofTomlFields rest

end

/-! ## Values -/

/-- The truth value that a word stands for. -/
def wordBool? (s : String) : Option Bool :=
  let word := Text.lowercase s
  if ["true", "on", "yes"].contains word then some true
  else if ["false", "off", "no"].contains word then some false
  else none

def asBool? : Setting → Option Bool
  | .boolean b => some b
  | .integer n => some (n != 0)
  | .float f => some (f != 0)
  | .text s => if s == "1" then some true else if s == "0" then some false else wordBool? s
  | _ => none

/-- A whole number of 64 bits. A float is rounded, and moved into the range. -/
def asNat64? : Setting → Option Nat
  | .boolean b => some b.toNat
  | .integer n => if 0 ≤ n then some n.toNat else none
  | .float f => some f.round.toUInt64.toNat
  | .text s => (wordBool? s).map Bool.toNat |>.or (Decimal.readNat64? s)
  | _ => none

def asFloat? : Setting → Option Float
  | .boolean b => some (if b then 1 else 0)
  | .integer n => some (if n < 0 then -n.natAbs.toUInt64.toFloat else n.natAbs.toUInt64.toFloat)
  | .float f => some f
  | .text s => (wordBool? s).map (fun b => if b then 1 else 0) |>.or (Decimal.readFloat? s)
  | _ => none

def asText? : Setting → Option String
  | .boolean b => some (if b then "true" else "false")
  | .integer n => some (toString n)
  | .float f => some (Decimal.text f)
  | .text s => some s
  | _ => none

def asTexts? : Setting → Option (List String)
  | .list items => items.mapM asText?
  | _ => none

/-- A value that may be absent. -/
def asOptional? {α : Type} (read : Setting → Option α) : Setting → Option (Option α)
  | .absent => some none
  | s => (read s).map some

/-- The settings of a record's fields, in the order of their keys: those of a table by their keys,
those of a list in their order. -/
def slots? (keys : List String) : Setting → Option (List (Option Setting))
  | .table fields => some (keys.map fun key => fields.lookup key)
  | .list items => some (keys.zipIdx.map fun (_, i) => items[i]?)
  | _ => none

/-- The value of a field, or what counts if nothing is said. -/
def orDefault {α : Type} (default : α) (read : Setting → Option α) : Option Setting → Option α
  | none => some default
  | some s => read s

end Setting

end SymbolAtlas
