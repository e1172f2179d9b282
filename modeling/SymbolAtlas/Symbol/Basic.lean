import SymbolAtlas.Path
import SymbolAtlas.Symbol.Kind

/-!
# Symbols

A symbol records one declaration: its name, its place in a file, the project that owns it, and
facts that only its kind has. Two records are of the same declaration when their identities
agree, whatever else differs.
-/

namespace SymbolAtlas

inductive Visibility where
  | publicAccess
  | internalAccess
  | protectedAccess
  | protectedInternal
  | privateProtected
  | privateAccess
deriving Repr, DecidableEq, Inhabited

namespace Visibility

def all : List Visibility :=
  [.publicAccess, .internalAccess, .protectedAccess, .protectedInternal, .privateProtected,
    .privateAccess]

def name : Visibility → String
  | .publicAccess => "public"
  | .internalAccess => "internal"
  | .protectedAccess => "protected"
  | .protectedInternal => "protected_internal"
  | .privateProtected => "private_protected"
  | .privateAccess => "private"

def ofName? (s : String) : Option Visibility := all.find? (·.name == s)

theorem ofName?_name (v : Visibility) : ofName? v.name = some v := by cases v <;> decide

end Visibility

/-- A formal parameter of a method. -/
structure Parameter where
  name : String
  typeName : String
  isRef : Bool := false
  isOut : Bool := false
  isParams : Bool := false
  defaultValue : Option String := none
deriving Repr, DecidableEq

structure MethodDetails where
  returnType : Option String := none
  parameters : List Parameter := []
  typeParameters : List String := []
  modifiers : List String := []
  visibility : Visibility := .privateAccess
deriving Repr, DecidableEq

structure TypeDetails where
  baseTypes : List String := []
  /-- The names of nested members, in the order of their declarations. -/
  members : List String := []
  modifiers : List String := []
  visibility : Visibility := .privateAccess
deriving Repr, DecidableEq

structure PropertyDetails where
  propertyType : String
  hasGetter : Bool := false
  hasSetter : Bool := false
  modifiers : List String := []
  visibility : Visibility := .privateAccess
deriving Repr, DecidableEq

/-- What only some kinds of symbols have. -/
inductive Details where
  | none
  | method (d : MethodDetails)
  | type (d : TypeDetails)
  | property (d : PropertyDetails)
deriving Repr, DecidableEq, Inhabited

namespace Details

def visibility? : Details → Option Visibility
  | .none => Option.none
  | .method d => some d.visibility
  | .type d => some d.visibility
  | .property d => some d.visibility

def modifiers : Details → List String
  | .none => []
  | .method d => d.modifiers
  | .type d => d.modifiers
  | .property d => d.modifiers

end Details

/-- A stretch of a file. Lines and columns count from one. -/
structure SourceRange where
  startLine : UInt32 := 1
  startColumn : UInt32 := 1
  endLine : UInt32 := 1
  endColumn : UInt32 := 1
deriving Repr, DecidableEq, Inhabited

/-- Ranges are ordered by their start, then by their end. -/
instance : Ord SourceRange :=
  ⟨compareLex (compareOn SourceRange.startLine) (compareLex (compareOn SourceRange.startColumn)
    (compareLex (compareOn SourceRange.endLine) (compareOn SourceRange.endColumn)))⟩

instance : Std.TransOrd SourceRange :=
  inferInstanceAs (Std.TransCmp (compareLex (compareOn SourceRange.startLine)
    (compareLex (compareOn SourceRange.startColumn)
      (compareLex (compareOn SourceRange.endLine) (compareOn SourceRange.endColumn)))))

/-- A declared symbol. -/
structure Symbol where
  name : String
  qualifiedName : Option String := none
  kind : Kind
  file : Path
  range : SourceRange := {}
  project : String
  details : Details := .none
deriving Repr, DecidableEq, Inhabited

/-- Where a symbol without a qualified name stands: its name and where it starts. -/
structure Anchor where
  name : String
  startLine : UInt32
  startColumn : UInt32
deriving Repr, DecidableEq, Inhabited

/-- Anchors are ordered by their names, then by their positions. -/
instance : Ord Anchor :=
  ⟨compareLex (compareOn Anchor.name)
    (compareLex (compareOn Anchor.startLine) (compareOn Anchor.startColumn))⟩

instance : Std.TransOrd Anchor :=
  inferInstanceAs (Std.TransCmp (compareLex (compareOn Anchor.name)
    (compareLex (compareOn Anchor.startLine) (compareOn Anchor.startColumn))))

instance : Std.LawfulEqOrd Anchor where
  eq_of_compare {a b} h := by
    have h' : (compareOn Anchor.name a b).then ((compareOn Anchor.startLine a b).then
        (compareOn Anchor.startColumn a b)) = .eq := h
    simp only [Ordering.then_eq_eq] at h'
    obtain ⟨an, al, ac⟩ := a
    obtain ⟨bn, bl, bc⟩ := b
    have hn : an = bn := Std.LawfulEqOrd.eq_of_compare h'.1
    have hl : al = bl := Std.LawfulEqOrd.eq_of_compare h'.2.1
    have hc : ac = bc := Std.LawfulEqOrd.eq_of_compare h'.2.2
    rw [hn, hl, hc]

/-- What decides whether two records are of the same declaration. A symbol without a qualified
name is told apart by its name and where it starts. -/
structure Identity where
  qualifiedName : Option String
  kind : Kind
  file : Place
  anchor : Option Anchor
deriving Repr, DecidableEq, Inhabited

namespace Identity

/-- Identities are ordered by their qualified names, where none comes first, then by their kinds,
files and anchors. -/
instance : Ord Identity :=
  ⟨compareLex (compareOn qualifiedName) (compareLex (compareOn kind)
    (compareLex (compareOn file) (compareOn anchor)))⟩

instance : Std.TransOrd Identity :=
  inferInstanceAs (Std.TransCmp (compareLex (compareOn qualifiedName) (compareLex (compareOn kind)
    (compareLex (compareOn file) (compareOn anchor)))))

instance : Std.LawfulEqOrd Identity where
  eq_of_compare {a b} h := by
    have h' : (compareOn qualifiedName a b).then ((compareOn kind a b).then
        ((compareOn file a b).then (compareOn anchor a b))) = .eq := h
    simp only [Ordering.then_eq_eq] at h'
    obtain ⟨aq, ak, af, aa⟩ := a
    obtain ⟨bq, bk, bf, ba⟩ := b
    have hq : aq = bq := Std.LawfulEqOrd.eq_of_compare h'.1
    have hk : ak = bk := Std.LawfulEqOrd.eq_of_compare h'.2.1
    have hf : af = bf := Std.LawfulEqOrd.eq_of_compare h'.2.2.1
    have ha : aa = ba := Std.LawfulEqOrd.eq_of_compare h'.2.2.2
    rw [hq, hk, hf, ha]

end Identity

namespace Symbol

def identity (s : Symbol) : Identity where
  qualifiedName := s.qualifiedName
  kind := s.kind
  file := s.file.place
  anchor := match s.qualifiedName with
    | some _ => none
    | none => some ⟨s.name, s.range.startLine, s.range.startColumn⟩

/-- Whether two records are of the same declaration. -/
def same (s t : Symbol) : Bool := s.identity == t.identity

/-- Cuts a qualified name at dots, colons and plus signs, empty pieces included. -/
def pieces : List Char → List (List Char)
  | [] => [[]]
  | c :: rest =>
    if c = '.' ∨ c = ':' ∨ c = '+' then [] :: pieces rest
    else match pieces rest with
      | [] => [[c]]
      | p :: more => (c :: p) :: more

/-- The segments of the qualified name: what stands between dots, colons and plus signs. -/
def segments (s : Symbol) : List String :=
  match s.qualifiedName with
  | none => []
  | some q => ((pieces q.toList).filter (!·.isEmpty)).map String.ofList

def lastSegment? (s : Symbol) : Option String := s.segments.getLast?

/-- The qualified name, or the name where there is none. -/
def shownName (s : Symbol) : String := s.qualifiedName.getD s.name

/-- One line about a symbol: its kind, its name and where it starts. -/
def describe (s : Symbol) : String :=
  s.kind.name ++ " " ++ s.shownName ++ " (" ++ s.file.spelling ++ ":" ++
    toString s.range.startLine.toNat ++ ":" ++ toString s.range.startColumn.toNat ++ ")"

end Symbol

end SymbolAtlas
