/-!
# TOML values

The values of TOML documents. A table keeps its fields in order.
-/

namespace SymbolAtlas

inductive Toml where
  | text (s : String)
  | integer (n : Int)
  | float (f : Float)
  | boolean (b : Bool)
  /-- A date, a time, or both, in its standard spelling. -/
  | moment (spelling : String)
  | list (items : List Toml)
  | table (fields : List (String × Toml))
deriving Inhabited

end SymbolAtlas
