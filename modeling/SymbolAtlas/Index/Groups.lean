import SymbolAtlas.Symbol.Basic

/-!
# Groups

Symbols gathered under keys. Under each key the symbols stand in the order in which they came,
and a key that has lost all its symbols is gone.
-/

namespace SymbolAtlas

/-- The symbols of each key. -/
abbrev Groups (κ : Type) [Ord κ] := Std.TreeMap κ (List Symbol)

namespace Groups

variable {κ : Type} [Ord κ]

/-- The symbols under a key, none if the key is not there. -/
def under (g : Groups κ) (k : κ) : List Symbol := (g[k]?).getD []

/-- Puts a symbol at the end of those under a key. -/
def add (g : Groups κ) (k : κ) (s : Symbol) : Groups κ :=
  g.alter k fun old => some (old.getD [] ++ [s])

/-- A list, unless it is empty. -/
def unlessEmpty : List Symbol → Option (List Symbol)
  | [] => none
  | l => some l

/-- Keeps under one key only the symbols that satisfy `keep`. -/
def retain (g : Groups κ) (k : κ) (keep : Symbol → Bool) : Groups κ :=
  g.alter k fun old => unlessEmpty ((old.getD []).filter keep)

theorem getD_unlessEmpty (l : List Symbol) : (unlessEmpty l).getD [] = l := by
  cases l <;> rfl

variable [DecidableEq κ] [Std.TransOrd κ] [Std.LawfulEqOrd κ]

theorem under_retain (g : Groups κ) (k k' : κ) (keep : Symbol → Bool) :
    under (retain g k keep) k' = if k = k' then (under g k').filter keep else under g k' := by
  by_cases h : k = k'
  · subst h; simp [under, retain, getD_unlessEmpty]
  · simp [under, retain, Std.TreeMap.getElem?_alter, h]

end Groups

end SymbolAtlas
