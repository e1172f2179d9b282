import SymbolAtlas.Decimal.Reader

/-!
# Arguments of commands

How the arguments of a command line are read. An option is given by its name after two hyphens or by
its letter after one; its value is the next argument, or follows an equals sign or the letter. An
argument that starts with a hyphen is no value, unless it is a lone hyphen. After two hyphens alone
every argument is an operand.
-/

namespace SymbolAtlas.Usage

/-- What an option is given with. -/
inductive Takes where
  | nothing
  | text
  /-- A text that is not empty. -/
  | path
  | number
deriving Repr, DecidableEq

structure Item where
  name : String
  letter : Option Char := none
  takes : Takes := .text
  /-- Whether it may be given several times. -/
  many : Bool := false
  /-- Whether it must be given. -/
  needed : Bool := false
  /-- What stands for the value in the help text. -/
  placeholder : String := ""
  about : String := ""
deriving Repr, DecidableEq

/-- A command: its name, its options, and its operand if it has one, which must be given. -/
structure Form where
  name : String
  about : String
  operand : Option String := none
  items : List Item
deriving Repr, DecidableEq

/-- Why arguments do not make up a command. -/
inductive Refusal where
  /-- They do not fit. -/
  | unfit
  /-- They ask for help, on a command if one is named. -/
  | help (command : Option String)
  /-- They ask for the version of the program. -/
  | version
deriving Repr, DecidableEq

/-- What has been given: the options with their values, and the operands. -/
structure Given where
  options : List (String × String) := []
  operands : List String := []
deriving Repr, DecidableEq

namespace Given

/-- The last value of an option. -/
def value? (g : Given) (name : String) : Option String :=
  ((g.options.filter (·.1 == name)).getLast?).map (·.2)

def values (g : Given) (name : String) : List String :=
  (g.options.filter (·.1 == name)).map (·.2)

def has (g : Given) (name : String) : Bool := (g.value? name).isSome

end Given

/-- Whether an argument is read as an option. -/
def isOption (argument : String) : Bool :=
  argument != "-" && argument.toList.head? == some '-'

/-- Whether a value is one that an option takes. -/
def Takes.accepts : Takes → String → Bool
  | .nothing, _ => true
  | .text, _ => true
  | .path, value => value != ""
  | .number, value => (Decimal.readNat64? value).isSome

/-- Takes a value for an option: the one attached to it, or else the next argument. -/
def takeValue (item : Item) (attached : Option String) (rest : List String) :
    Except Refusal (String × List String) :=
  match item.takes, attached, rest with
  | .nothing, none, rest => .ok ("", rest)
  | .nothing, some _, _ => .error .unfit
  | takes, some value, rest => if takes.accepts value then .ok (value, rest) else .error .unfit
  | takes, none, value :: rest =>
    if !isOption value && takes.accepts value then .ok (value, rest) else .error .unfit
  | _, none, [] => .error .unfit

/-- A text without an equals sign at its start. -/
def dropEquals : List Char → List Char
  | '=' :: rest => rest
  | cs => cs

/-- How an argument names an option, and the value attached to it. -/
def parts (argument : String) : (String ⊕ Char) × Option String :=
  match argument.toList with
  | '-' :: '-' :: body =>
    let attached := if body.contains '=' then
      some (String.ofList ((body.dropWhile (· ≠ '=')).drop 1)) else none
    (.inl (String.ofList (body.takeWhile (· ≠ '='))), attached)
  | '-' :: letter :: tail =>
    (.inr letter, if tail.isEmpty then none else some (String.ofList (dropEquals tail)))
  | cs => (.inl (String.ofList cs), none)

/-- Reads the option that an argument gives. -/
def takeOption (items : List Item) (g : Given) (argument : String) (rest : List String) :
    Except Refusal (Given × List String) :=
  let (name, attached) := parts argument
  match name, attached with
  | .inl "help", none => .error (.help none)
  | .inr 'h', _ => .error (.help none)
  | _, _ =>
    match items.find? fun i => match name with
        | .inl s => i.name == s
        | .inr c => i.letter == some c with
    | none => .error .unfit
    | some item =>
      if g.has item.name && !item.many then .error .unfit
      else do
        let (value, rest) ← takeValue item attached rest
        .ok ({ g with options := g.options ++ [(item.name, value)] }, rest)

/-- Takes an operand, if there may be another one. -/
def takeOperand (operands : Nat) (g : Given) (argument : String) : Except Refusal Given :=
  if g.operands.length < operands then .ok { g with operands := g.operands ++ [argument] }
  else .error .unfit

/-- Reads the arguments of a command that has so many operands. -/
def scan (items : List Item) (operands : Nat) : Nat → Given → List String → Except Refusal Given
  | 0, g, _ => .ok g
  | _ + 1, g, [] => .ok g
  | fuel + 1, g, argument :: rest =>
    if argument == "--" then rest.foldlM (takeOperand operands) g
    else if isOption argument then do
      let (g, rest) ← takeOption items g argument rest
      scan items operands fuel g rest
    else do scan items operands fuel (← takeOperand operands g argument) rest

/-- Reads the arguments of a command. -/
def Form.read (f : Form) (arguments : List String) : Except Refusal Given :=
  match scan f.items f.operand.toList.length (arguments.length + 1) {} arguments with
  | .error (.help _) => .error (.help f.name)
  | .error r => .error r
  | .ok g =>
    let complete := g.operands.length = f.operand.toList.length &&
      f.items.all fun i => !i.needed || g.has i.name
    if complete then .ok g else .error .unfit

/-- The program: its name and version, the options that all commands have, and the commands. -/
structure Program where
  name : String
  version : String
  about : String
  items : List Item
  forms : List Form
deriving Repr, DecidableEq

namespace Program

def form? (p : Program) (name : String) : Option Form :=
  (p.forms.find? (·.name == name)).map fun f => { f with items := p.items ++ f.items }

/-- What a help command asks for. -/
def readHelp (p : Program) : List String → Refusal
  | [] => .help none
  | ["help"] => .help none
  | [name] => if (p.form? name).isSome then .help (some name) else .unfit
  | _ => .unfit

/-- Reads the options before the name of a command, the name, and the arguments of the command.
Options of the program may be given in both places; the last value counts. -/
def read (p : Program) : Nat → Given → List String → Except Refusal (String × Given)
  | 0, _, _ => .error .unfit
  | _ + 1, _, [] => .error .unfit
  | fuel + 1, g, argument :: rest =>
    if argument == "--" then .error .unfit
    else if argument == "--version" || (argument.toList.take 2 == ['-', 'V']) then .error .version
    else if isOption argument then do
      let (g, rest) ← takeOption p.items g argument rest
      read p fuel g rest
    else if argument == "help" then .error (p.readHelp rest)
    else match p.form? argument with
      | none => .error .unfit
      | some form => do
        let h ← form.read rest
        .ok (form.name, { h with options := g.options ++ h.options })

/-! ## Help -/

def Takes.isNothing : Takes → Bool
  | .nothing => true
  | _ => false

/-- An option as the help text shows it. -/
def itemText (i : Item) : String :=
  let letter := match i.letter with
    | some c => "-" ++ String.singleton c ++ ", "
    | none => "    "
  letter ++ "--" ++ i.name ++
    if Takes.isNothing i.takes then "" else " <" ++ i.placeholder ++ ">"

/-- Lines of two columns. -/
def columns (rows : List (String × String)) : List String :=
  let width := (rows.map (·.1.length)).foldl max 0
  rows.map fun (a, b) => "  " ++ a ++ "".pushn ' ' (width - a.length + 2) ++ b

def helpItem : Item :=
  { name := "help", letter := some 'h', takes := .nothing, about := "Print help" }

def versionItem : Item :=
  { name := "version", letter := some 'V', takes := .nothing, about := "Print version" }

def itemRows (items : List Item) : List (String × String) :=
  items.map fun i => (itemText i, i.about)

/-- The help text of a command. -/
def formHelp (p : Program) (f : Form) : List String :=
  let needed := (f.items.filter (·.needed)).map fun i =>
    " --" ++ i.name ++ " <" ++ i.placeholder ++ ">"
  let operands := f.operand.toList.map fun o => "<" ++ o ++ ">"
  [f.about, "",
    "Usage: " ++ p.name ++ " " ++ f.name ++ " [OPTIONS]" ++ String.join needed ++
      String.join (operands.map (" " ++ ·)), ""] ++
  (if operands.isEmpty then [] else ["Arguments:"] ++ columns (operands.map (·, "")) ++ [""]) ++
  ["Options:"] ++ columns (itemRows (f.items ++ [helpItem]))

/-- The help text of a command, or of the program. -/
def help (p : Program) (command : Option String) : List String :=
  match command.bind p.form? with
  | some f => p.formHelp f
  | none =>
    [p.about, "", "Usage: " ++ p.name ++ " [OPTIONS] <COMMAND>", "", "Commands:"] ++
    columns (p.forms.map (fun f => (f.name, f.about)) ++
      [("help", "Print this message or the help of the given subcommand(s)")]) ++
    ["", "Options:"] ++ columns (itemRows (p.items ++ [helpItem, versionItem]))

end Program

end SymbolAtlas.Usage
