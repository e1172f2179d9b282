import SymbolAtlas.CommandLine.Command
import SymbolAtlas.CommandLine.Report
import SymbolAtlas.Config.Load
import SymbolAtlas.Index.Query
import SymbolAtlas.Search.Searcher
import SymbolAtlas.Watch.Session

/-!
# Running commands

What a command line comes to: the lines that are printed and the changed file tree, a session that
goes on watching, or the fault that ends the program.
-/

namespace SymbolAtlas

/-- The world that a command works in. -/
structure World where
  tree : FileTree
  environment : Environment := {}
  /-- Milliseconds since the epoch. -/
  now : Nat

/-- The files that commands read. -/
inductive InputFile where
  | solution
  | snapshot
deriving Repr, DecidableEq

/-- What ends the program before its work is done. -/
inductive Fault where
  | refused (r : Usage.Refusal)
  | config (f : Config.LoadFault)
  | unreadable (file : InputFile) (p : Path)
  | malformed (file : InputFile) (p : Path)
  | unknownSort (e : UnknownSortKey)
  | unknownKind (e : UnknownKind)
  | invalidPattern (e : InvalidPattern)
  | unwritable (p : Path)
  | session (f : SessionFault)
deriving Repr, DecidableEq

/-- What a command comes to. -/
inductive Effect where
  | done (lines : List String) (tree : FileTree)
  | watching (s : Session)

namespace Fault

/-- The first line of what is said about a pattern that cannot be read. -/
def patternMessage (e : InvalidPattern) : String :=
  "Invalid name pattern " ++ Text.Quoted.quote e.pattern ++ ": " ++
    match e.flaw with
    | .tooLarge =>
      "Compiled regex exceeds size limit of " ++ toString Pattern.maxWeight ++ " bytes."
    | _ => "regex parse error:"

/-- The first line of what is said about a fault; nothing for one that is explained at length. -/
def message? : Fault → Option String
  | .refused _ => none
  | .config _ => some "Failed to load configuration"
  | .unreadable .solution p => some ("Failed to read solution " ++ Text.Quoted.quote p.spelling)
  | .unreadable .snapshot p => some ("Failed to read snapshot " ++ Text.Quoted.quote p.spelling)
  | .malformed .solution p => some ("Invalid solution file " ++ Text.Quoted.quote p.spelling)
  | .malformed .snapshot p => some ("Invalid snapshot " ++ Text.Quoted.quote p.spelling)
  | .unknownSort e => some e.message
  | .unknownKind e => some e.message
  | .invalidPattern e => some (patternMessage e)
  | .unwritable p => some ("Failed to write " ++ Text.Quoted.quote p.spelling)
  | .session .clockOverflow => none
  | .session (.unlisted project) => some ("Failed to list files of project " ++ project)

/-- The exit code of the program. Help and the version are not faults to its caller. -/
def exitCode : Fault → Nat
  | .refused .unfit => 2
  | .refused _ => 0
  | .session .clockOverflow => 101
  | _ => 1

/-- What is printed as an answer: help, or the version. -/
def lines : Fault → List String
  | .refused (.help command) => Command.program.help command
  | .refused .version => [Command.program.name ++ " " ++ Command.program.version]
  | _ => []

end Fault

namespace World

def readSolution (w : World) (p : Path) : Except Fault Solution :=
  match w.tree.readText? p with
  | none => .error (.unreadable .solution p)
  | some text =>
    match (Json.parse text).bind Solution.ofJson? with
    | none => .error (.malformed .solution p)
    | some s => .ok s

/-- The index of a snapshot file. -/
def readSnapshot (w : World) (p : Path) : Except Fault Snapshot :=
  match w.tree.readText? p with
  | none => .error (.unreadable .snapshot p)
  | some text =>
    match (Json.parse text).bind Collection.ofJson? with
    | none => .error (.malformed .snapshot p)
    | some c => .ok (({} : Snapshot).rebuild c)

end World

/-- The options of a search: what is asked for, and else what is configured. -/
def SearchRequest.options (r : SearchRequest) (c : Config) :
    Except Fault (SearchOptions Float32) := do
  let base ← c.searchOptions.mapError .unknownSort
  let sort ← match r.sort with
    | none => .ok base.sort
    | some s => (SortKey.ofText s).mapError .unknownSort
  let kinds ← r.kinds.mapM fun k => (Kind.ofText k).mapError Fault.unknownKind
  return { base with
    maxResults := r.maxResults.getD base.maxResults
    sort
    exact := r.exact
    caseSensitive := r.caseSensitive || base.caseSensitive
    kinds := SearchOptions.asSet kinds
    projects := SearchOptions.asSet r.projects }

def LookupRequest.query (r : LookupRequest) : Except Fault Query := do
  let kind ← r.kind.mapM fun k => (Kind.ofText k).mapError Fault.unknownKind
  return {
    qualifiedName := r.qualifiedName
    name := r.name
    start := r.start
    kind
    project := r.project
    file := r.file
    namePattern := r.pattern }

/-- The lines of a lookup. Without a condition that picks some symbols out, they are sorted. -/
def lookupLines (x : Snapshot) (q : Query) : Except Fault (List String) := do
  let lines := (← (x.query q).mapError Fault.invalidPattern).map Report.symbolLine
  if { q with namePattern := none }.isEmpty then
    return lines.mergeSort fun a b => decide (a ≤ b)
  return lines

namespace Command

/-- Collects a solution and writes its snapshot. -/
def runCollect (w : World) (c : Config) (solution output : Path) (version : Option String) :
    Except Fault Effect := do
  let s ← w.readSolution solution
  let session := Session.new c w.environment s w.tree w.now
  let (collected, session) ← (session.load version).mapError Fault.session
  match session.tree.writeText? w.now output collected.toJson.pretty with
  | none => throw (.unwritable output)
  | some tree =>
    return .done [toString collected.size ++ " symbols written to " ++ output.spelling] tree

def runSearch (w : World) (c : Config) (snapshot : Path) (r : SearchRequest) :
    Except Fault Effect := do
  let x ← w.readSnapshot snapshot
  let o ← r.options c
  let searcher : Searcher Float32 := {}
  return .done ((searcher.search x r.query o).1.map Report.hitLine) w.tree

def runLookup (w : World) (snapshot : Path) (r : LookupRequest) : Except Fault Effect := do
  let x ← w.readSnapshot snapshot
  return .done (← lookupLines x (← r.query)) w.tree

def runStats (w : World) (snapshot : Path) : Except Fault Effect := do
  let x ← w.readSnapshot snapshot
  return .done ((Report.statsJson x.stats).pretty.splitOn "\n") w.tree

def runWatch (w : World) (c : Config) (solution : Path) : Except Fault Effect := do
  let s ← w.readSolution solution
  return .watching (← (Session.new c w.environment s w.tree w.now).start.mapError Fault.session)

def run (w : World) (c : Config) : Command → Except Fault Effect
  | .collect solution output version => runCollect w c solution output version
  | .search snapshot r => runSearch w c snapshot r
  | .lookup snapshot r => runLookup w snapshot r
  | .stats snapshot => runStats w snapshot
  | .watch solution => runWatch w c solution

end Command

/-- Runs the program with the arguments of its command line. -/
def World.run (w : World) (arguments : List String) : Except Fault Effect := do
  let r ← (Request.ofArguments arguments).mapError Fault.refused
  let c ← (Config.load w.tree w.environment r.config).mapError Fault.config
  r.command.run w c

end SymbolAtlas
