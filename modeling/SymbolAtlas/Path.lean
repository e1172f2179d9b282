import Std.Data.TreeMap

/-!
# File paths

A path keeps the spelling it was given. Two paths are the same place when their components agree:
repeated and trailing separators and inner `.` components do not count, a leading `.` and every
`..` do. Paths are ordered by their components, so a directory comes before the names that merely
start with its own.
-/

namespace SymbolAtlas

/-- A component of a path. -/
inductive Component where
  | root
  /-- A leading `.` component. -/
  | here
  | up
  | name (s : String)
deriving Repr, DecidableEq, Inhabited

namespace Component

/-- The root comes first, then `.`, then `..`, then the names. -/
def rank : Component → Nat
  | root => 0
  | here => 1
  | up => 2
  | name _ => 3

def text : Component → String
  | root => "/"
  | here => "."
  | up => ".."
  | name s => s

/-- Components are ordered by rank, and names among themselves by their text. -/
instance : Ord Component := ⟨compareLex (compareOn rank) (compareOn text)⟩

instance : Std.TransOrd Component :=
  inferInstanceAs (Std.TransCmp (compareLex (compareOn rank) (compareOn text)))

theorem eq_of_rank_text {a b : Component} (hr : a.rank = b.rank) (ht : a.text = b.text) :
    a = b := by
  cases a <;> cases b <;> simp_all [rank, text]

instance : Std.LawfulEqOrd Component where
  eq_of_compare {a b} h := by
    have h' : (compareOn rank a b).then (compareOn text a b) = .eq := h
    rw [Ordering.then_eq_eq] at h'
    exact eq_of_rank_text (Std.LawfulEqOrd.eq_of_compare h'.1)
      (Std.LawfulEqOrd.eq_of_compare h'.2)

end Component

/-- A path as it is spelled. -/
structure Path where
  spelling : String
deriving Repr, DecidableEq, Inhabited

/-- Where a path leads, apart from its spelling. -/
abbrev Place := List Component

instance : LawfulBEq Place := inferInstance

namespace Path

def isAbsolute (p : Path) : Bool := p.spelling.toList.head? == some '/'

/-- What stands between the separators of a path. -/
def pieces (p : Path) : List String := (p.spelling.toList.splitOn '/').map String.ofList

/-- The component that a piece between separators stands for, after the first piece. -/
def ofPiece (piece : String) : Option Component :=
  if piece == "" || piece == "." then none
  else if piece == ".." then some .up
  else some (.name piece)

/-- The components of a path. -/
def place (p : Path) : Place :=
  match p.pieces with
  | [] => []
  | first :: rest =>
    let start := if p.isAbsolute then [Component.root]
      else if first == "." then [.here]
      else (ofPiece first).toList
    start ++ rest.filterMap ofPiece

/-- Whether two spellings lead to the same place. -/
def same (p q : Path) : Bool := p.place == q.place

def compare (p q : Path) : Ordering := Ord.compare p.place q.place

/-- The last component, if it is a name. -/
def fileName? (p : Path) : Option String :=
  match p.place.getLast? with
  | some (.name s) => some s
  | _ => none

/-- The part of a file name after its last dot; a name has none if its only dot comes first. -/
def extensionOf? (name : String) : Option String :=
  let cs := name.toList.reverse
  let tail := cs.takeWhile (· ≠ '.')
  if tail.length + 1 < cs.length then some (String.ofList tail.reverse) else none

def extension? (p : Path) : Option String := p.fileName?.bind extensionOf?

/-- The path of `q` as seen from the directory `p`. -/
def join (p q : Path) : Path :=
  if q.isAbsolute || p.spelling == "" then q
  else if p.spelling.toList.getLast? == some '/' then ⟨p.spelling ++ q.spelling⟩
  else ⟨p.spelling ++ "/" ++ q.spelling⟩

/-- The path that goes down from a directory by some names. -/
def down (p : Path) (names : List String) : Path := names.foldl (fun q name => q.join ⟨name⟩) p

/-- Whether `q` is `p` or a directory that holds it. -/
def startsWith (p q : Path) : Bool := q.place.isPrefixOf p.place

end Path

end SymbolAtlas
