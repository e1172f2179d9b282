import SymbolAtlas.Config.Coding
import SymbolAtlas.Config.Location
import SymbolAtlas.Files.Tree
import SymbolAtlas.Toml.Reader
import SymbolAtlas.Toml.Writer

/-!
# Loading and saving configurations

A configuration is put together from the file of the user, a file that is named or the file of the
working folder, and the environment, where later sources win key by key. A file that is not there
counts as empty unless it was named.
-/

namespace SymbolAtlas.Config

open Setting (Table)

/-- The file of the working folder. -/
def localFile : Path := ⟨"symdex.toml"⟩

/-- What the names of variables that are settings start with, in lowercase. -/
def variableStart : String := "symdex__"

/-- The folder of the user's configuration files. -/
def userFolder? (e : Environment) : Option Path :=
  match e["XDG_CONFIG_HOME"]? with
  | some folder =>
    if (Path.mk folder).isAbsolute then some ⟨folder⟩ else ofHome
  | none => ofHome
where
  ofHome : Option Path := e.home?.map fun home => (Path.mk home).join ⟨".config"⟩

/-- The configuration file of the user. -/
def userFile? (e : Environment) : Option Path :=
  (userFolder? e).map fun folder => folder.join ⟨"symdex/config.toml"⟩

/-! ## Sources -/

/-- The text of a configuration file. Where the file is not there, one with `.toml` after its name
is taken. -/
def fileText? (t : FileTree) (p : Path) : Option String :=
  (t.readText? p).or (t.readText? ⟨p.spelling ++ ".toml"⟩)

/-- What a file says; nothing if it cannot be read as TOML. -/
def fileTable? (text : String) : Option Table :=
  (Toml.parse (String.ofList (Toml.dropMark text.toList))).map Setting.ofTomlFields

/-- What a file says that need not be there. -/
def optionalFile? (t : FileTree) (p : Path) : Option Table :=
  match fileText? t p with
  | none => some []
  | some text => fileTable? text

/-- The location of a setting that is given by a variable; two underscores stand for a dot. -/
def variableLocation? (name : String) : Option String :=
  let name := Text.lowercase name
  if variableStart.toList.isPrefixOf name.toList then
    some (".".intercalate ((String.ofList (name.toList.drop variableStart.length)).splitOn "__"))
  else none

/-- What the value of a variable is taken for: a truth value, a whole number, a float, or a text.
The extensions are a list of texts between commas. -/
def variableSetting (place value : String) : Setting :=
  let word := Text.lowercase value
  if word == "true" then .boolean true
  else if word == "false" then .boolean false
  else match Decimal.readInt64? value, Decimal.readFloat? value with
    | some n, _ => .integer n
    | none, some f => .float f
    | none, none =>
      if place == "collector.extensions" then .list ((value.splitOn ",").map .text)
      else .text value

/-- What the environment says. -/
def environmentTable (e : Environment) : Table :=
  e.toList.filterMap fun (name, value) =>
    (variableLocation? name).map fun place => (place, variableSetting place value)

/-- What several sources say, the later ones over the earlier ones. -/
def layered (sources : List Table) : Table := sources.foldl Setting.overlay []

/-! ## Loading and saving -/

/-- Why a configuration cannot be loaded. -/
inductive LoadFault where
  /-- The file that was named is not there. -/
  | missing (p : Path)
  /-- A file is not TOML. -/
  | malformed
  /-- A setting is of a kind that does not fit. -/
  | unfit
deriving Repr, DecidableEq

/-- The configuration of the user's file, a named file if one is given and else the file of the
working folder, and the environment. -/
def load (t : FileTree) (e : Environment) (named : Option Path) : Except LoadFault Config := do
  let user ← match (userFile? e).map (optionalFile? t) with
    | none => .ok []
    | some none => .error .malformed
    | some (some table) => .ok table
  let file ← match named with
    | none => match optionalFile? t localFile with
      | none => .error .malformed
      | some table => .ok table
    | some p => match fileText? t p with
      | none => .error (.missing p)
      | some text => match fileTable? text with
        | none => .error .malformed
        | some table => .ok table
  match ofSetting? (.table (layered [user, file, environmentTable e])) with
  | none => .error .unfit
  | some c => .ok c

/-- Why a configuration cannot be saved. -/
inductive SaveFault where
  /-- The file or its folder cannot be written. -/
  | unwritable
  /-- A number is too great. -/
  | tooGreat
deriving Repr, DecidableEq

/-- The text that a configuration is saved as. -/
def toText? (c : Config) : Option String := c.toToml?.map Toml.document

/-- Saves a configuration in a file, whose folder is created where it is missing. -/
def save (c : Config) (t : FileTree) (now : Nat) (p : Path) : Except SaveFault FileTree :=
  let created :=
    if p.place.length ≤ 1 then some t else t.createFolder? now (t.addressOf p.place.dropLast)
  match created, c.toText? with
  | none, _ => .error .unwritable
  | some _, none => .error .tooGreat
  | some t, some text =>
    match t.writeText? now p text with
    | none => .error .unwritable
    | some t => .ok t

end SymbolAtlas.Config
