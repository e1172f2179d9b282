/-!
# Tries

A trie holds items under words, the words being lists of letters. The items of a word stand in
the order in which they were put there, and the branches of a node in the order of their letters.
A branch that no longer leads to any item is cut off.
-/

namespace SymbolAtlas

/-- The branches below a node: for each letter the items of the word that ends there, the
branches further down, and the branches of the letters that follow. -/
inductive Branches (α : Type) where
  | none
  | branch (letter : Char) (here : List α) (below next : Branches α)
deriving Repr, DecidableEq

namespace Branches

variable {α : Type}

/-- The branch that holds one item, under the word `c :: cs`, before the branches `next`. -/
def chain (a : α) (c : Char) (next : Branches α) : List Char → Branches α
  | [] => branch c [a] none next
  | d :: ds => branch c [] (chain a d none ds) next

/-- Puts an item at the end of those of the word `c :: cs`. -/
def insert (a : α) (c : Char) (cs : List Char) : Branches α → Branches α
  | none => chain a c none cs
  | branch letter here below next =>
    if c < letter then chain a c (branch letter here below next) cs
    else if c = letter then
      match cs with
      | [] => branch letter (here ++ [a]) below next
      | d :: ds => branch letter here (insert a d ds below) next
    else branch letter here below (insert a c cs next)

/-- The branch before `next`, unless nothing hangs on it. -/
def prune (letter : Char) (here : List α) (below next : Branches α) : Branches α :=
  match here, below with
  | [], none => next
  | _, _ => branch letter here below next

/-- Removes the items of the word `c :: cs` that satisfy `drop`. -/
def remove (drop : α → Bool) (c : Char) (cs : List Char) : Branches α → Branches α
  | none => none
  | branch letter here below next =>
    if c = letter then
      match cs with
      | [] => prune letter (here.filter (!drop ·)) below next
      | d :: ds => prune letter here (remove drop d ds below) next
    else branch letter here below (remove drop c cs next)

/-- The node of the word `c :: cs`: its items and the branches below it. -/
def node? (c : Char) (cs : List Char) : Branches α → Option (List α × Branches α)
  | none => Option.none
  | branch letter here below next =>
    if c = letter then
      match cs with
      | [] => some (here, below)
      | d :: ds => node? d ds below
    else node? c cs next

/-- All items, those of a word before those of its extensions. -/
def toList : Branches α → List α
  | none => []
  | branch _ here below next => here ++ toList below ++ toList next

/-- The number of nodes. -/
def nodeCount : Branches α → Nat
  | none => 0
  | branch _ _ below next => 1 + nodeCount below + nodeCount next

end Branches

/-- A trie: the items of the empty word, and the branches of its first letters. -/
structure Trie (α : Type) where
  here : List α := []
  below : Branches α := .none
deriving Repr, DecidableEq

namespace Trie

variable {α : Type}

def insert (t : Trie α) (word : List Char) (a : α) : Trie α :=
  match word with
  | [] => { t with here := t.here ++ [a] }
  | c :: cs => { t with below := t.below.insert a c cs }

/-- Removes the items of a word that satisfy `drop`. -/
def remove (t : Trie α) (word : List Char) (drop : α → Bool) : Trie α :=
  match word with
  | [] => { t with here := t.here.filter (!drop ·) }
  | c :: cs => { t with below := t.below.remove drop c cs }

/-- The node of a word, if any item lies there or below. -/
def node? (t : Trie α) (word : List Char) : Option (List α × Branches α) :=
  match word with
  | [] => some (t.here, t.below)
  | c :: cs => t.below.node? c cs

/-- The items of exactly this word. -/
def exact (t : Trie α) (word : List Char) : List α :=
  match t.node? word with
  | none => []
  | some (here, _) => here

/-- The items of every word that starts with this one. -/
def extending (t : Trie α) (word : List Char) : List α :=
  match t.node? word with
  | none => []
  | some (here, below) => here ++ below.toList

/-- How many items `remove` would take away. -/
def removable (t : Trie α) (word : List Char) (drop : α → Bool) : Nat :=
  (t.exact word).countP drop

/-- The number of nodes, the root included. -/
def nodeCount (t : Trie α) : Nat := 1 + t.below.nodeCount

def isEmpty (t : Trie α) : Bool :=
  match t.here, t.below with
  | [], .none => true
  | _, _ => false

end Trie

end SymbolAtlas
