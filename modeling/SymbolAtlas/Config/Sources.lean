import SymbolAtlas.Config.Basic
import SymbolAtlas.Files.Listing
import SymbolAtlas.Json.Reader

/-!
# Configured sources

The sources that a configuration sets up: files of the configured extensions, each of which holds
the symbols of one source file as a JSON list. Every symbol is taken for one of the file it is
read from and of the project it is read for, whatever it says itself.
-/

namespace SymbolAtlas

/-- Why the symbols of a file cannot be read. -/
inductive SymbolFileFault where
  | unreadable (p : Path)
  | malformed (p : Path)
deriving Repr, DecidableEq

def SymbolFileFault.message : SymbolFileFault → String
  | .unreadable p => "Failed to read " ++ Text.Quoted.quote p.spelling
  | .malformed p => "Failed to parse symbols in " ++ Text.Quoted.quote p.spelling

/-- The symbols in the text of a file, taken for those of a project. -/
def symbolsInText (p : Path) (text : Option String) (project : String) :
    Except SymbolFileFault (List Symbol) :=
  match text with
  | none => .error (.unreadable p)
  | some text =>
    match (Json.parse text).bind (Json.asList Symbol.ofJson?) with
    | none => .error (.malformed p)
    | some symbols => .ok (symbols.map fun s => { s with file := p, project })

namespace Config

def sourceRules (c : Config) : SourceRules :=
  .ofExtensions c.collector.extensions c.collector.versionControl

/-- The sources in a file tree. -/
def sources (c : Config) (t : FileTree) : Sources where
  list p := (c.sourceRules.list t p).mapError ListingFault.message
  isSource := c.sourceRules.isSource
  fingerprint := t.fingerprint
  isFile := t.isFile
  supports := Extensions.lists (c.collector.extensions.map Extensions.plain)
  parse p project := (symbolsInText p (t.readText? p) project).mapError SymbolFileFault.message

end Config

end SymbolAtlas
