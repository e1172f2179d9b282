import SymbolAtlas.Files.Tree
import SymbolAtlas.Solution

/-!
# Sources

What the rest of the library asks about source files: which files a project has, what can be seen
of a file from outside, and which symbols it declares.
-/

namespace SymbolAtlas

/-- What can be seen of a file without reading it. -/
structure Fingerprint where
  modified : Nat
  size : Nat
deriving Repr, DecidableEq, Inhabited

structure Sources where
  /-- The source files of a project, or why they cannot be listed. -/
  list : Project → Except String (List Path)
  isSource : Path → Bool
  fingerprint : Path → Except PathFault Fingerprint
  isFile : Path → Bool
  /-- Whether the parser takes files of this kind. -/
  supports : Path → Bool
  /-- The symbols that a file declares for a project, or why it cannot be parsed. -/
  parse : Path → String → Except String (List Symbol)

/-- The fingerprint of a node. A folder has the size of one block. -/
def FileNode.fingerprint : FileNode → Fingerprint
  | .file text modified => { modified, size := text.utf8ByteSize }
  | .folder modified => { modified, size := 4096 }

def FileTree.fingerprint (t : FileTree) (p : Path) : Except PathFault Fingerprint :=
  (t.lookup p).map FileNode.fingerprint

end SymbolAtlas
