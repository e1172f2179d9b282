import Std.Time.DateTime.Timestamp
import SymbolAtlas.CommandLine.Run

/-!
# The program

The outer layer: it reads the folders that a command works in into a file tree, runs the command on
it, writes the files back that have changed, and prints the lines of the answer.
-/

namespace SymbolAtlas.Outer

/-- The environment of the process. -/
def environment : IO Environment := do
  let bytes ← IO.FS.readBinFile "/proc/self/environ"
  let entries := ((String.fromUTF8? bytes).getD "").splitOn (String.singleton (Char.ofNat 0))
  return .ofList <| entries.filterMap fun entry =>
    match entry.splitOn "=" with
    | name :: value => if name == "" then none else some (name, "=".intercalate value)
    | [] => none

def milliseconds (t : IO.FS.SystemTime) : Nat := t.sec.toNat * 1000 + t.nsec.toNat / 1000000

/-- Adds a node and everything below it to a tree. What is not text or cannot be read is left out,
and links to folders are not followed. -/
partial def addNode (t : FileTree) (a : Address) (entry : IO.FS.DirEntry) : IO FileTree := do
  try
    let data ← entry.path.metadata
    let time := milliseconds data.modified
    match data.type, (← entry.path.symlinkMetadata).type with
    | .dir, .symlink => return t
    | .dir, _ =>
      let mut t := t.makeFolder time a
      for child in ← entry.path.readDir do
        t ← addNode t (a ++ [child.fileName]) child
      return t
    | _, _ => return t.write time a (← IO.FS.readFile entry.path) time
  catch _ => return t

/-- Adds what a path leads to. -/
def addPath (t : FileTree) (p : Path) : IO FileTree :=
  addNode t (t.target p) { root := ".", fileName := p.spelling }

/-- The paths of the files that a request names, without those that only may be there. -/
def named (r : Request) : List Path :=
  r.config.toList ++
    match r.command with
    | .collect solution _ _ => [solution]
    | .search snapshot _ => [snapshot]
    | .lookup snapshot _ => [snapshot]
    | .stats snapshot => [snapshot]
    | .watch solution => [solution]

/-- The folders that a request works in: none for those that only read a snapshot. -/
def folders (w : World) (r : Request) : List Path :=
  let solution? := match r.command with
    | .collect solution _ _ => some solution
    | .watch solution => some solution
    | _ => none
  match solution? with
  | none => []
  | some solution =>
    let roots := match w.readSolution solution with
      | .ok s => s.projects.map (·.root)
      | .error _ => []
    let cache := match Config.load w.tree w.environment r.config with
      | .ok c => (c.cache.directory w.environment).toList
      | .error _ => []
    [⟨"."⟩] ++ cache ++ roots

/-- The world of the process, as far as a request looks at it. -/
def world (r : Request) : IO World := do
  let e ← environment
  let here := ((← IO.currentDir).toString.splitOn "/").filter (· != "")
  let now := (← Std.Time.Timestamp.now).toMillisecondsSinceUnixEpoch.val.toNat
  let start : FileTree := { workingFolder := here }
  let files := named r ++ [Config.localFile] ++ (Config.userFile? e).toList
  let candidates := files ++ files.map fun p => ⟨p.spelling ++ ".toml"⟩
  let tree ← candidates.foldlM addPath (start.makeFolder now here)
  let w : World := { tree, environment := e, now }
  return { w with tree := ← (folders w r).foldlM addPath tree }

/-- Makes the edits in the file system. -/
def store (edits : List Edit) : IO Unit :=
  for e in edits do
    match e with
    | .write a text _ =>
      IO.FS.createDirAll ("/" ++ "/".intercalate a.dropLast)
      IO.FS.writeFile ("/" ++ "/".intercalate a) text
    | .remove a => IO.FS.removeFile ("/" ++ "/".intercalate a)
    | .move a b =>
      IO.FS.rename ("/" ++ "/".intercalate a) ("/" ++ "/".intercalate b)

/-- Follows the changes of the files until the process is interrupted. -/
partial def follow (r : Request) (s : Session) (printed : Nat) : IO Unit := do
  for message in s.messages.drop printed do
    IO.println message
  (← IO.getStdout).flush
  let began ← IO.monoMsNow
  IO.sleep 50
  let w ← world r
  let t := (s.tree.edits w.tree).foldl Session.edit s
  follow r (t.sleep ((← IO.monoMsNow) - began)) s.messages.length

/-- Runs a request and gives the exit code. -/
def run (r : Request) (arguments : List String) : IO UInt32 := do
  let w ← world r
  match w.run arguments with
  | .error f =>
    if let some m := f.message? then IO.eprintln ("Error: " ++ m)
    return f.exitCode.toUInt32
  | .ok (.done lines tree) =>
    store (w.tree.edits tree)
    lines.forM fun l => IO.println l
    return 0
  | .ok (.watching s) =>
    store (w.tree.edits s.tree)
    follow r s 0
    return 0

end SymbolAtlas.Outer

/-- Runs the program with its arguments. -/
def main (arguments : List String) : IO UInt32 := do
  match SymbolAtlas.Request.ofArguments arguments with
  | .ok r => SymbolAtlas.Outer.run r arguments
  | .error refusal =>
    let f := SymbolAtlas.Fault.refused refusal
    f.lines.forM fun l => IO.println l
    return f.exitCode.toUInt32
