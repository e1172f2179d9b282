import SymbolAtlas.Cache.Disk
import SymbolAtlas.Files.Tree

/-!
# The durable tier in a file tree

The directory of the durable tier is a folder of the file tree that the program works in.
-/

namespace SymbolAtlas.FileTree

/-- Where the folder of the durable tier is. The empty path means the working folder. -/
def diskAddress (t : FileTree) (p : Path) : Address :=
  if p.spelling == "" then t.workingFolder else t.target p

/-- What a node is to the durable tier. -/
def diskNode : FileNode → Cache.Node
  | .file text _ => .file text
  | .folder _ => .folder

/-- The nodes directly in a folder, by their names. -/
def children (t : FileTree) (folder : Address) : List (String × FileNode) :=
  t.nodes.toList.filterMap fun (a, n) =>
    match a.getLast? with
    | some name => if a.dropLast = folder then some (name, n) else none
    | none => none

/-- The directory of the durable tier at a path. -/
def disk (t : FileTree) (p : Path) : Cache.Disk :=
  let a := t.diskAddress p
  if (Address.way a).any fun b => (t.textAt? b).isSome then { site := .blocked }
  else if t.isFolderAt a then
    { site := .directory (.ofList ((t.children a).map fun (name, n) => (name, diskNode n))) }
  else {}

/-- The tree with a directory of the durable tier at a path. -/
def withDisk (t : FileTree) (now : Nat) (p : Path) (d : Cache.Disk) : FileTree :=
  match d.site with
  | .directory nodes =>
    let a := t.diskAddress p
    let t := t.makeFolder now a
    let gone := (t.children a).filter fun (name, _) => !nodes.contains name
    let t := gone.foldl (fun t (name, _) => t.remove now (a ++ [name])) t
    nodes.toList.foldl (fun t (name, n) =>
      match n with
      | .folder => t
      | .file text =>
        if t.textAt? (a ++ [name]) == some text then t
        else t.write now (a ++ [name]) text now) t
  | _ => t

end SymbolAtlas.FileTree
