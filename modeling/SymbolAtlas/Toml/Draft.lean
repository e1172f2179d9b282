import SymbolAtlas.Toml.Basic

/-!
# Tables under construction

The tables of a TOML document are put together from headers and keys. How a table came to be
decides what may still be added to it: a table whose header was read is not opened again, and
dotted keys only go on with tables that dotted keys have made.
-/

namespace SymbolAtlas.Toml

/-- How a table came to be. -/
inductive Origin where
  /-- By a header of its own. -/
  | header
  /-- By the header of a table in it. -/
  | implied
  /-- By a dotted key. -/
  | dotted
deriving Repr, DecidableEq

inductive Draft where
  /-- A value that nothing is added to. -/
  | closed (value : Toml)
  | table (origin : Origin) (fields : List (String × Draft))
  /-- A list of tables, each with a header of its own. -/
  | tables (elements : List (List (String × Draft)))
deriving Inhabited

namespace Draft

abbrev Fields := List (String × Draft)

/-- Puts something in the place of a field. -/
def replace (fields : Fields) (key : String) (d : Draft) : Fields :=
  fields.map fun (k, old) => if k = key then (k, d) else (k, old)

/-- Changes the table that a path of headers leads to. Tables that are missing are implied; of a
list of tables the last one is meant. -/
def within (f : Fields → Option Fields) : List String → Fields → Option Fields
  | [], fields => f fields
  | key :: path, fields =>
    match fields.lookup key with
    | none => (within f path []).map fun inner => fields ++ [(key, .table .implied inner)]
    | some (.table origin inner) =>
      (within f path inner).map fun inner => replace fields key (.table origin inner)
    | some (.tables elements) =>
      match elements.getLast? with
      | none => none
      | some last =>
        (within f path last).map fun last =>
          replace fields key (.tables (elements.dropLast ++ [last]))
    | some (.closed _) => none

/-- Opens a table by its header. A table that was implied is opened once. -/
def openTable (key : String) (fields : Fields) : Option Fields :=
  match fields.lookup key with
  | none => some (fields ++ [(key, .table .header [])])
  | some (.table .implied inner) => some (replace fields key (.table .header inner))
  | some _ => none

/-- Opens a new table of a list of tables. -/
def openElement (key : String) (fields : Fields) : Option Fields :=
  match fields.lookup key with
  | none => some (fields ++ [(key, .tables [[]])])
  | some (.tables elements) => some (replace fields key (.tables (elements ++ [[]])))
  | some _ => none

/-- Adds a value under a key that is not taken. -/
def add (key : String) (value : Toml) (fields : Fields) : Option Fields :=
  if (fields.lookup key).isSome then none else some (fields ++ [(key, .closed value)])

/-- Adds a value under a dotted key, the last part of which is given apart. The table that the
value goes into must have been made by dotted keys. -/
def addDotted (key : String) (value : Toml) : List String → Fields → Option Fields
  | [], fields => add key value fields
  | part :: path, fields =>
    match fields.lookup part with
    | none => (addDotted key value path []).map fun inner =>
        fields ++ [(part, .table .dotted inner)]
    | some (.table origin inner) =>
      if origin = .header || (path.isEmpty && origin ≠ .dotted) then none
      else (addDotted key value path inner).map fun inner =>
        replace fields part (.table origin inner)
    | some (.tables elements) =>
      match elements.getLast? with
      | none => none
      | some last =>
        if path.isEmpty then none
        else (addDotted key value path last).map fun last =>
          replace fields part (.tables (elements.dropLast ++ [last]))
    | some (.closed _) => none

mutual

/-- The finished value. -/
def finish : Draft → Toml
  | .closed value => value
  | .table _ fields => .table (finishFields fields)
  | .tables elements => .list (finishElements elements)

def finishFields : List (String × Draft) → List (String × Toml)
  | [] => []
  | (key, d) :: rest => (key, d.finish) :: finishFields rest

def finishElements : List (List (String × Draft)) → List Toml
  | [] => []
  | fields :: rest => .table (finishFields fields) :: finishElements rest

end

end Draft

end SymbolAtlas.Toml
