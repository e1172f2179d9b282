import SymbolAtlas.Config.Sources
import SymbolAtlas.Proofs.Collect
import SymbolAtlas.Proofs.Files.Tree

/-!
# Scanners

A scanner says how the sources of a solution are read off a file tree: which files a walk lists,
which kinds of files the parser takes, and what it finds in a text.
-/

namespace SymbolAtlas

/-- How source files are found in a file tree, and how symbols are read from their texts. -/
structure Scanner where
  rules : SourceRules
  /-- The extensions that the parser takes, in their plain form. -/
  supported : List String
  parse : Path → Option String → String → Except String (List Symbol)
  attributes : ∀ p text project symbols, parse p text project = .ok symbols →
    ∀ t ∈ symbols, t.file.place = p.place

namespace Scanner

def sources (k : Scanner) (t : FileTree) : Sources where
  list p := (k.rules.list t p).mapError ListingFault.message
  isSource := k.rules.isSource
  fingerprint := t.fingerprint
  isFile := t.isFile
  supports := Extensions.lists k.supported
  parse p project := k.parse p (t.readText? p) project

theorem attributes_sources (k : Scanner) (t : FileTree) : (k.sources t).Attributes :=
  fun p project symbols h => k.attributes p (t.readText? p) project symbols h

theorem list_sources {k : Scanner} {t : FileTree} {p : Project} {files : List Path} :
    (k.sources t).list p = .ok files ↔ k.rules.list t p = .ok files := by
  change (k.rules.list t p).mapError ListingFault.message = .ok files ↔ _
  cases k.rules.list t p <;> simp [Except.mapError]

/-- What a file declares depends on its text alone. -/
theorem declared_congr (k : Scanner) {t u : FileTree} {p : Path}
    (h : t.readText? p = u.readText? p) (project : String) :
    (k.sources t).declared project p = (k.sources u).declared project p := by
  have hparse : (k.sources t).parse p project = (k.sources u).parse p project := by
    change k.parse p (t.readText? p) project = k.parse p (u.readText? p) project
    rw [h]
  have hfile : (k.sources t).isFile p = (k.sources u).isFile p := by
    change t.isFile p = u.isFile p
    rw [t.isFile_eq, u.isFile_eq, h]
  have hsupports : (k.sources t).supports p = (k.sources u).supports p := rfl
  unfold Sources.declared Sources.parsed
  rw [hparse]
  simp only [hfile, hsupports]

end Scanner

/-- Whatever the symbols in a file say, they are taken for symbols of this file. -/
theorem file_of_mem_symbolsInText {p : Path} {text : Option String} {project : String}
    {symbols : List Symbol} (h : symbolsInText p text project = .ok symbols) {t : Symbol}
    (ht : t ∈ symbols) : t.file = p := by
  unfold symbolsInText at h
  split at h
  · simp at h
  · split at h
    · simp at h
    · rw [← Except.ok.inj h, List.mem_map] at ht
      obtain ⟨u, -, rfl⟩ := ht
      rfl

/-- The scanner that a configuration sets up. -/
def Config.scanner (c : Config) : Scanner where
  rules := c.sourceRules
  supported := c.collector.extensions.map Extensions.plain
  parse p text project := (symbolsInText p text project).mapError SymbolFileFault.message
  attributes p text project symbols h t ht := by
    cases hsymbols : symbolsInText p text project with
    | error e =>
        rw [hsymbols] at h
        cases h
    | ok symbols' =>
        rw [hsymbols] at h
        cases h
        rw [file_of_mem_symbolsInText hsymbols ht]

theorem Config.sources_eq (c : Config) (t : FileTree) : c.sources t = c.scanner.sources t := rfl

theorem Config.list_sources {c : Config} {t : FileTree} {p : Project} {files : List Path} :
    (c.sources t).list p = .ok files ↔ c.scanner.rules.list t p = .ok files := by
  rw [c.sources_eq, Scanner.list_sources]

end SymbolAtlas
