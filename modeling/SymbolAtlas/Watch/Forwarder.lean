import Std.Data.TreeMap
import SymbolAtlas.Watch.Notice

/-!
# The forwarder

Changes of a file are held back and merged until the file has been quiet for a while. Files are
looked at one by one, after each change that comes in and at regular ticks between them.
-/

namespace SymbolAtlas

/-- What a file's changes come to since it was last forwarded. -/
structure HeldChange where
  path : Path
  change : Change
  /-- When the last change came in. -/
  seen : Nat
deriving Repr, DecidableEq

structure Forwarder where
  /-- How long a file must be quiet. -/
  debounce : Nat
  held : Std.TreeMap Place HeldChange := {}

namespace Forwarder

/-- How often the forwarder looks for files that have become quiet: at least every 50
milliseconds, and not more than once in one. -/
def tick (f : Forwarder) : Nat := min 50 (max f.debounce 1)

/-- Holds back a change, merged with what is held back for its file. -/
def hold (f : Forwarder) (now : Nat) (c : FileChange) : Forwarder :=
  { f with
    held := f.held.alter c.path.place fun
      | some h => some { h with change := h.change.andThen c.change, seen := now }
      | none => some { path := c.path, change := c.change, seen := now } }

def HeldChange.isQuiet (debounce now : Nat) (h : HeldChange) : Bool := debounce ≤ now - h.seen

/-- The changes of the files that have been quiet for long enough, and the others. -/
def release (f : Forwarder) (now : Nat) : List FileChange × Forwarder :=
  let quiet := f.held.values.filter (HeldChange.isQuiet f.debounce now)
  (quiet.map fun h => ⟨h.path, h.change⟩,
    { f with held := quiet.foldl (fun m h => m.erase h.path.place) f.held })

/-- Takes in a change and forwards what is quiet. -/
def receive (f : Forwarder) (now : Nat) (c : FileChange) : List FileChange × Forwarder :=
  (f.hold now c).release now

/-- All that is held back, when no more changes can come in. -/
def close (f : Forwarder) : List FileChange :=
  f.held.values.map fun h => ⟨h.path, h.change⟩

/-- Takes in changes that come at one moment, and forwards what is quiet after each. -/
def receiveAll (f : Forwarder) (now : Nat) : List FileChange → List FileChange × Forwarder
  | [] => ([], f)
  | c :: rest =>
    let (first, f) := f.receive now c
    let (others, f) := f.receiveAll now rest
    (first ++ others, f)

end Forwarder

end SymbolAtlas
