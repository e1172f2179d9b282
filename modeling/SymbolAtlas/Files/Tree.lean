import SymbolAtlas.Path

/-!
# File trees

A tree of folders and text files, with the moments of their last changes. Paths are looked up
name by name from the root or from the working folder, and every name but the last must be that
of a folder.
-/

namespace SymbolAtlas

inductive FileNode where
  | file (text : String) (modified : Nat)
  | folder (modified : Nat)
deriving Repr, DecidableEq, Inhabited

/-- The names on the way from the root to a node. -/
abbrev Address := List String

/-- The addresses on the way from the root to an address, with both ends. -/
def Address.way (a : Address) : List Address := (List.range (a.length + 1)).map a.take

/-- Why a path leads nowhere. -/
inductive PathFault where
  | missing
  /-- A file stands where a folder is needed. -/
  | notFolder
deriving Repr, DecidableEq

structure FileTree where
  /-- All nodes but the root. The folder of a node is always there. -/
  nodes : Std.TreeMap Address FileNode := {}
  workingFolder : Address := []

namespace FileTree

def node? (t : FileTree) : Address → Option FileNode
  | [] => some (.folder 0)
  | a => t.nodes[a]?

/-- Goes on from an address by one piece of a path. -/
def step (t : FileTree) (a : Address) (piece : String) : Except PathFault Address :=
  match t.node? a with
  | none => .error .missing
  | some (.file ..) => .error .notFolder
  | some (.folder _) =>
    if piece == "" || piece == "." then .ok a
    else if piece == ".." then .ok a.dropLast
    else .ok (a ++ [piece])

/-- Where a path leads. Nothing need stand there. -/
def resolve (t : FileTree) (p : Path) : Except PathFault Address :=
  if p.spelling == "" then .error .missing
  else
    p.pieces.foldlM t.step (if p.isAbsolute then [] else t.workingFolder)

/-- Where a place is, whether anything stands there or not. -/
def addressOf (t : FileTree) (place : Place) : Address :=
  place.foldl (fun a c =>
    match c with
    | .root => []
    | .here => a
    | .up => a.dropLast
    | .name s => a ++ [s]) t.workingFolder

/-- Where a node of a path would stand. Its folders need not be there. -/
def target (t : FileTree) (p : Path) : Address := t.addressOf p.place

def lookup (t : FileTree) (p : Path) : Except PathFault FileNode :=
  match t.resolve p with
  | .error e => .error e
  | .ok a => match t.node? a with
    | none => .error .missing
    | some n => .ok n

def isFile (t : FileTree) (p : Path) : Bool :=
  match t.lookup p with
  | .ok (.file ..) => true
  | _ => false

def readText? (t : FileTree) (p : Path) : Option String :=
  match t.lookup p with
  | .ok (.file text _) => some text
  | _ => none

/-- The text of the file at an address. -/
def textAt? (t : FileTree) (a : Address) : Option String :=
  match t.node? a with
  | some (.file text _) => some text
  | _ => none

def isFolderAt (t : FileTree) (a : Address) : Bool :=
  match t.node? a with
  | some (.folder _) => true
  | _ => false

/-- The addresses of the files below a folder, as seen from it. -/
def filesBelow (t : FileTree) (folder : Address) : List Address :=
  t.nodes.toList.filterMap fun (a, n) =>
    match n with
    | .file .. => if folder.isPrefixOf a then some (a.drop folder.length) else none
    | .folder _ => none

/-! ## Changing a tree -/

/-- Puts a node in its folder. -/
def put (t : FileTree) (a : Address) (n : FileNode) : FileTree :=
  { t with nodes := t.nodes.insert a n }

/-- Marks a folder as changed. -/
def touch (t : FileTree) (now : Nat) (folder : Address) : FileTree :=
  match t.node? folder with
  | some (.folder _) =>
    if folder.isEmpty then t else t.put folder (.folder now)
  | _ => t

/-- Creates a folder where nothing stands, if there is a folder for it. -/
def addFolder (t : FileTree) (now : Nat) (a : Address) : FileTree :=
  if (t.node? a).isNone && t.isFolderAt a.dropLast then
    (t.touch now a.dropLast).put a (.folder now)
  else t

/-- Creates a folder and those above it, where they are missing. -/
def makeFolder (t : FileTree) (now : Nat) (folder : Address) : FileTree :=
  (Address.way folder).foldl (fun t a => t.addFolder now a) t

/-- Writes a file, unless a folder stands in its place or a file in the place of its folder. -/
def write (t : FileTree) (now : Nat) (a : Address) (text : String) (modified : Nat) : FileTree :=
  let t := t.makeFolder now a.dropLast
  let t := if (t.node? a).isNone then t.touch now a.dropLast else t
  match t.node? a.dropLast, t.node? a with
  | some (.folder _), some (.folder _) => t
  | some (.folder _), _ => t.put a (.file text modified)
  | _, _ => t

/-- Creates a folder and those above it, unless a file stands in the place of one of them. -/
def createFolder? (t : FileTree) (now : Nat) (folder : Address) : Option FileTree :=
  if (Address.way folder).any fun a => (t.textAt? a).isSome then none
  else some (t.makeFolder now folder)

/-- Writes the file of a path, whose folder must be there. -/
def writeText? (t : FileTree) (now : Nat) (p : Path) (text : String) : Option FileTree :=
  match t.resolve p with
  | .error _ => none
  | .ok a => if t.isFolderAt a then none else some (t.write now a text now)

/-- Removes a node and everything below it. -/
def remove (t : FileTree) (now : Nat) (a : Address) : FileTree :=
  let t := t.touch now a.dropLast
  { t with nodes := t.nodes.filter fun b _ => !a.isPrefixOf b }

/-- Moves a node and everything below it, in place of what stood there. -/
def move (t : FileTree) (now : Nat) (a b : Address) : FileTree :=
  let moved := t.nodes.toList.filterMap fun (c, n) =>
    if a.isPrefixOf c then some (b ++ c.drop a.length, n) else none
  let t := (((t.remove now a).remove now b).makeFolder now b.dropLast).touch now b.dropLast
  { t with nodes := moved.foldl (fun m (c, n) => m.insert c n) t.nodes }

end FileTree

end SymbolAtlas
