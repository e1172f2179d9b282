/-!
# Changes of a file

What can happen to a file, and what several changes in a row come to.
-/

namespace SymbolAtlas

inductive Change where
  | created
  | contentChanged
  | deleted
deriving Repr, DecidableEq, Inhabited

namespace Change

def all : List Change := [.created, .contentChanged, .deleted]

def name : Change → String
  | .created => "created"
  | .contentChanged => "content_changed"
  | .deleted => "deleted"

def ofName? (s : String) : Option Change := all.find? (·.name == s)

theorem ofName?_name (c : Change) : ofName? c.name = some c := by cases c <;> decide

/-- What an earlier and a later change come to. A deletion at the end wins, a file that comes back
after a deletion has changed, and a creation stays one whatever is edited afterwards. -/
def andThen (earlier later : Change) : Change :=
  match earlier, later with
  | _, .deleted => .deleted
  | .deleted, _ => .contentChanged
  | .created, _ => .created
  | _, .created => .created
  | .contentChanged, .contentChanged => .contentChanged

end Change

end SymbolAtlas
