import SymbolAtlas.Extensions
import SymbolAtlas.Files.Ignore
import SymbolAtlas.Solution
import SymbolAtlas.Text.Quoted

/-!
# Listing source files

The source files of a project: those below its folder that have one of some extensions. Folders
that hold no sources, hidden files, and what ignore files keep out are passed over.
-/

namespace SymbolAtlas

/-- Which files are taken for sources. -/
structure SourceRules where
  /-- The extensions in their plain form. -/
  extensions : List String
  ignore : Ignore.Options := {}

/-- Why the source files of a project cannot be listed. -/
inductive ListingFault where
  | notFolder (root : Path)
deriving Repr, DecidableEq

def ListingFault.message : ListingFault → String
  | .notFolder root => "project root " ++ Text.Quoted.quote root.spelling ++ " is not a directory"

namespace SourceRules

/-- Rules for extensions as they are given in a configuration. -/
def ofExtensions (extensions : List String) (versionControl : Bool) : SourceRules where
  extensions := extensions.map Extensions.plain
  ignore := { versionControl }

def isSource (r : SourceRules) (p : Path) : Bool := Extensions.lists r.extensions p

/-- Names of nodes that are never looked at. -/
def skippedNames : List String := ["target", "node_modules", ".git", "vendor", "bin", "obj"]

/-- Whether a walk from the folder `start` that is in the folder `folder` goes all the way down the
names that follow. -/
def reaches (r : SourceRules) (t : FileTree) (start : Address) : Address → List String → Bool
  | _, [] => true
  | folder, name :: rest =>
    let letIn := (Ignore.decide? t r.ignore start folder name (!rest.isEmpty)).getD
      (name.toList.head? != some '.')
    letIn && !skippedNames.contains name && reaches r t start (folder ++ [name]) rest

/-- The source files of a project, in the order of their paths. -/
def list (r : SourceRules) (t : FileTree) (p : Project) : Except ListingFault (List Path) :=
  match t.resolve p.root with
  | .error _ => .error (.notFolder p.root)
  | .ok start =>
    if !t.isFolderAt start then .error (.notFolder p.root)
    else
      let paths := (t.filesBelow start).filterMap fun names =>
        let path := p.root.down names
        if r.isSource path && r.reaches t start start names then some path else none
      .ok (paths.mergeSort fun p q => (p.compare q).isLE)

end SourceRules

end SymbolAtlas
