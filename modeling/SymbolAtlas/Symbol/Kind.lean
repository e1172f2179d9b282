import Std.Data.TreeMap
import SymbolAtlas.Text.Blank
import SymbolAtlas.Text.Lowercase

/-!
# Kinds of symbols

The kind of a declaration and its name. Kinds are ordered as they are listed here.
-/

namespace SymbolAtlas

inductive Kind where
  | nameSpace
  | classType
  | interface
  | struct
  | enum
  | enumMember
  | field
  | property
  | method
  | constructor
  | destructor
  | event
  | delegate
  | localVariable
  | parameter
  | typeParameter
  | moduleUnit
  | other
deriving Repr, DecidableEq, Inhabited

namespace Kind

def all : List Kind := [.nameSpace, .classType, .interface, .struct, .enum, .enumMember, .field,
  .property, .method, .constructor, .destructor, .event, .delegate, .localVariable, .parameter,
  .typeParameter, .moduleUnit, .other]

def name : Kind → String
  | .nameSpace => "namespace"
  | .classType => "class"
  | .interface => "interface"
  | .struct => "struct"
  | .enum => "enum"
  | .enumMember => "enum_member"
  | .field => "field"
  | .property => "property"
  | .method => "method"
  | .constructor => "constructor"
  | .destructor => "destructor"
  | .event => "event"
  | .delegate => "delegate"
  | .localVariable => "local_variable"
  | .parameter => "parameter"
  | .typeParameter => "type_parameter"
  | .moduleUnit => "module"
  | .other => "other"

/-- The position of a kind in the list of all kinds. -/
def index (k : Kind) : Nat := all.idxOf k

/-- Whether declarations of this kind declare a type. -/
def isType : Kind → Bool
  | .classType | .interface | .struct | .enum | .delegate => true
  | _ => false

/-- The kind with exactly the given name. -/
def ofName? (s : String) : Option Kind := all.find? (·.name == s)

theorem ofName?_name (k : Kind) : ofName? k.name = some k := by cases k <;> decide

/-- The kind that a text names: blanks around it and letter case in ASCII do not count, and
hyphens stand for underscores. -/
def ofText? (s : String) : Option Kind :=
  ofName? ((Text.asciiLowercase (Text.trim s)).map fun c => if c = '-' then '_' else c)

theorem index_injective {a b : Kind} (h : a.index = b.index) : a = b := by
  revert h; cases a <;> cases b <;> decide

instance : Ord Kind := ⟨compareOn index⟩

instance : Std.TransOrd Kind := inferInstanceAs (Std.TransCmp (compareOn index))

instance : Std.LawfulEqOrd Kind where
  eq_of_compare h := index_injective (Std.LawfulEqOrd.eq_of_compare h)

end Kind

/-- A text that names no kind of symbol. -/
structure UnknownKind where
  text : String
deriving Repr, DecidableEq

def UnknownKind.message (e : UnknownKind) : String := "unknown symbol kind: " ++ e.text

def Kind.ofText (s : String) : Except UnknownKind Kind :=
  match ofText? s with
  | some k => .ok k
  | none => .error ⟨s⟩

end SymbolAtlas
