import SymbolAtlas.Files.Glob
import SymbolAtlas.Files.Tree
import SymbolAtlas.Text.Blank

/-!
# Ignore files

Files that list globs for what is to be passed over. A rule that starts with an exclamation mark
lets paths in again, one that ends with a slash is for folders only, and of the rules of one file
the last one that matches decides. A rule without a slash inside holds at any depth.

The ignore files of the folder of a path come before those of the folders around it. Files named
`.ignore` always count and come first. Those of version control count only within a repository,
and none of a folder around the repository does.
-/

namespace SymbolAtlas.Ignore

structure Rule where
  /-- Whether the rule lets paths in. -/
  allows : Bool
  foldersOnly : Bool
  pattern : Glob.BytePattern

def startsWith (start : String) (cs : List Char) : Bool := start.toList.isPrefixOf cs

def endsWith (stop : String) (cs : List Char) : Bool := stop.toList.isSuffixOf cs

/-- The line without blanks at its end, unless the last one is a space that is escaped. -/
def trimEnd (cs : List Char) : List Char :=
  if endsWith "\\ " cs then cs else (cs.reverse.dropWhile Text.isBlank).reverse

/-- The glob of a rule as a whole path: without a slash inside it holds at any depth, and with a
double star at its end it holds inside the folder alone. -/
def wholeGlob (anchored : Bool) (cs : List Char) : List Char :=
  let cs :=
    if !anchored && !cs.contains '/' && cs ≠ ['*', '*'] then "**/".toList ++ cs else cs
  if endsWith "/**" cs then cs ++ "/*".toList else cs

/-- The rule in a line, if there is one. -/
def ruleOf? (line : String) : Option Rule :=
  let cs := trimEnd line.toList
  if startsWith "#" line.toList || cs.isEmpty then none
  else
    let escaped := startsWith "\\!" cs || startsWith "\\#" cs
    let (allows, cs) :=
      if escaped then (false, cs.drop 1)
      else if startsWith "!" cs then (true, cs.drop 1) else (false, cs)
    let anchored := startsWith "/" cs
    let cs := if anchored then cs.drop 1 else cs
    let (foldersOnly, cs) :=
      if endsWith "/" cs then
        let cs := cs.dropLast
        (true, if endsWith "\\" cs then cs.dropLast else cs)
      else (false, cs)
    (Glob.parse (String.ofList (wholeGlob anchored cs))).map fun pattern =>
      { allows, foldersOnly, pattern }

/-- The rules of an ignore file, after its byte order mark. Lines that are no rules are passed
over. -/
def rulesOf (text : String) : List Rule :=
  let cs := text.toList.dropWhile (· = Char.ofNat 0xFEFF)
  ((String.ofList cs).splitOn "\n").filterMap ruleOf?

/-- What a list of rules says about a path: whether it lets the path in, or nothing. -/
def verdict (rules : List Rule) (path : String) (isFolder : Bool) : Option Bool :=
  let holds (r : Rule) : Bool := (isFolder || !r.foldersOnly) && Glob.isMatch r.pattern path
  match rules.reverse.find? holds with
  | some r => some r.allows
  | none => none

structure Options where
  /-- Whether the ignore files of version control count. -/
  versionControl : Bool := true
deriving Repr, DecidableEq

/-- The rules of the file at an address, none if there is no such file. -/
def rulesAt (t : FileTree) (a : Address) : List Rule := ((t.textAt? a).map rulesOf).getD []

/-- Whether the ignore files of version control see a repository in a folder. Above the folder
where a walk starts they do only if they count. -/
def isRepository (t : FileTree) (o : Options) (start folder : Address) : Bool :=
  (o.versionControl || start.isPrefixOf folder) && (t.node? (folder ++ [".git"])).isSome

/-- What has been decided on the way from a folder to the folders around it. -/
structure Decisions where
  plain : Option Bool := none
  versioned : Option Bool := none
  excluded : Option Bool := none
  /-- Whether the repository of the path has been left. -/
  left : Bool := false

/-- Asks the ignore files of one folder about a path, where nothing has been decided yet. -/
def consult (t : FileTree) (o : Options) (start target : Address) (isFolder inRepository : Bool)
    (d : Decisions) (folder : Address) : Decisions :=
  let path := "/".intercalate (target.drop folder.length)
  let ask (decided : Option Bool) (file : Address) : Option Bool :=
    decided.or (verdict (rulesAt t (folder ++ file)) path isFolder)
  let counts := inRepository && !d.left
  { plain := ask d.plain [".ignore"]
    versioned := if counts && o.versionControl then ask d.versioned [".gitignore"] else d.versioned
    excluded :=
      if counts && t.isFolderAt (folder ++ [".git"]) then ask d.excluded [".git", "info", "exclude"]
      else d.excluded
    left := d.left || isRepository t o start folder }

/-- Whether a walk that starts in the folder `start` is let in to a node of the folder `folder`, or
kept out of it, by ignore files. -/
def decide? (t : FileTree) (o : Options) (start folder : Address) (name : String)
    (isFolder : Bool) : Option Bool :=
  let folders := (Address.way folder).reverse
  let inRepository := folders.any (isRepository t o start)
  let d := folders.foldl (consult t o start (folder ++ [name]) isFolder inRepository) {}
  d.plain.or (d.versioned.or d.excluded)

end SymbolAtlas.Ignore
