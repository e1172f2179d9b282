import SymbolAtlas.Files.Edit
import SymbolAtlas.Watch.Forwarder

/-!
# Watchers

A watcher takes notice of the edits below a folder and forwards the changes they mean once the
files have been quiet. Nodes are reported by absolute paths: the root of the watcher, seen from the
working folder where it is relative, and the names below it.
-/

namespace SymbolAtlas

structure Watcher.Settings where
  /-- How long a file must be quiet, in milliseconds. -/
  debounce : Nat := 200
  /-- The extensions of the files that count. -/
  extensions : List String := ["cs", "vb", "fs"]
deriving Repr, DecidableEq

structure Watcher where
  root : Path
  settings : Watcher.Settings
  /-- Where the root stands. -/
  address : Address
  /-- The root as nodes below it are reported. -/
  reported : Path
  forwarder : Forwarder
  /-- Changes that the forwarder has not yet taken in. -/
  queue : List FileChange := []
  /-- When the forwarder last looked at its files. -/
  looked : Nat := 0

namespace FileTree

/-- The path of the working folder. -/
def workingPath (t : FileTree) : Path := ⟨"/" ++ "/".intercalate t.workingFolder⟩

end FileTree

namespace Watcher

/-- A watcher of a folder or a file; nothing if neither stands there. -/
def start? (t : FileTree) (root : Path) (settings : Settings) : Option Watcher :=
  match t.resolve root with
  | .error _ => none
  | .ok address =>
    if (t.node? address).isNone then none
    else some {
      root, settings, address
      reported := t.workingPath.join root
      forwarder := { debounce := settings.debounce } }

/-- The path by which a node below the root is reported. -/
def reportedPath (w : Watcher) (a : Address) : Path :=
  (a.drop w.address.length).foldl (fun p name => p.join ⟨name⟩) w.reported

/-- Takes notice of an edit if all of its nodes are below the root. -/
def sight (w : Watcher) (s : Sighting) : Watcher :=
  if s.addresses.all w.address.isPrefixOf then
    let notice : Notice := { kind := s.kind, paths := s.addresses.map w.reportedPath }
    { w with queue := w.queue ++ notice.fileChanges w.settings.extensions }
  else w

/-- Lets the forwarder take in what has been noticed. -/
def takeIn (w : Watcher) (now : Nat) : List FileChange × Watcher :=
  if w.queue.isEmpty then ([], w)
  else
    let (out, forwarder) := w.forwarder.receiveAll now w.queue
    (out, { w with forwarder, queue := [], looked := now })

/-- The first tick at which some file has been quiet for long enough. -/
def due? (w : Watcher) : Option Nat :=
  match w.forwarder.held.values.map HeldChange.seen with
  | [] => none
  | first :: others =>
    let ready := others.foldl min first + w.settings.debounce
    let tick := w.forwarder.tick
    let ticks := max 1 ((ready - w.looked + tick - 1) / tick)
    some (w.looked + ticks * tick)

/-- Forwards what is quiet. -/
def look (w : Watcher) (now : Nat) : List FileChange × Watcher :=
  let (out, forwarder) := w.forwarder.release now
  (out, { w with forwarder, looked := now })

end Watcher

end SymbolAtlas
