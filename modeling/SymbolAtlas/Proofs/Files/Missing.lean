import SymbolAtlas.Proofs.Files.Tree
import SymbolAtlas.Sources

/-!
# Places where nothing is

Empty pieces of a path and single dots lead nowhere new, but they ask for a folder: a file is not
found by a path that ends in a slash. They never make a file missing, though, so whether nothing is
at a place does not depend on how the path is spelled.
-/

namespace SymbolAtlas

namespace FileTree

variable {t : FileTree} {a : Address} {p q : Path} {pieces : List String}

/-- The node to which the pieces of a path lead from an address. -/
def follow (t : FileTree) (a : Address) (pieces : List String) : Except PathFault FileNode :=
  match pieces.foldlM t.step a with
  | .error e => .error e
  | .ok b => match t.node? b with
    | none => .error .missing
    | some n => .ok n

/-- Whether a piece of a path leads on. -/
def LeadsOn (piece : String) : Prop := piece ≠ "" ∧ piece ≠ "."

instance (piece : String) : Decidable (LeadsOn piece) := inferInstanceAs (Decidable (_ ∧ _))

theorem lookup_eq_follow (hp : p.spelling ≠ "") :
    t.lookup p = t.follow (t.origin p) p.pieces := by
  unfold lookup follow
  rewrite [resolve_eq t hp]
  rfl

theorem follow_cons (t : FileTree) (a : Address) (piece : String) (pieces : List String) :
    t.follow a (piece :: pieces) =
      match t.step a piece with
      | .error e => .error e
      | .ok b => t.follow b pieces := by
  unfold follow
  rw [List.foldlM_cons]
  cases t.step a piece <;> rfl

theorem follow_nil (t : FileTree) (a : Address) :
    t.follow a [] = match t.node? a with
      | none => .error .missing
      | some n => .ok n := rfl

/-- Where nothing is nothing is found further down. -/
theorem follow_of_node?_eq_none (h : t.node? a = none) : t.follow a pieces = .error .missing := by
  cases pieces with
  | nil => rw [follow_nil, h]
  | cons piece pieces =>
      rw [follow_cons]
      unfold step
      rw [h]

/-- Below a file it is not that something is missing. -/
theorem follow_of_file {text : String} {m : Nat} (h : t.node? a = some (.file text m)) :
    t.follow a pieces ≠ .error .missing := by
  cases pieces with
  | nil =>
      rw [follow_nil, h]
      nofun
  | cons piece pieces =>
      rw [follow_cons]
      unfold step
      rw [h]
      nofun

/-- Only the pieces that lead on tell whether something is missing. -/
theorem follow_eq_missing_iff (t : FileTree) (a : Address) (pieces : List String) :
    t.follow a pieces = .error .missing ↔
    t.follow a (pieces.filter LeadsOn) = .error .missing := by
  induction pieces generalizing a with
  | nil => rfl
  | cons piece pieces ih =>
      by_cases hpiece : LeadsOn piece
      · rw [List.filter_cons_of_pos (by simpa using hpiece), follow_cons, follow_cons]
        cases t.step a piece with
        | error e => rfl
        | ok b => exact ih b
      · rw [List.filter_cons_of_neg (by simpa using hpiece)]
        cases hnode : t.node? a with
        | none => simp only [follow_of_node?_eq_none hnode]
        | some n =>
            cases n with
            | file text m => exact iff_of_false (follow_of_file hnode) (follow_of_file hnode)
            | folder m =>
                have hstep : t.step a piece = .ok a := by
                  unfold LeadsOn at hpiece
                  unfold step
                  rw [hnode]
                  dsimp only
                  rw [if_pos]
                  simpa [Classical.or_iff_not_imp_left] using hpiece
                rw [follow_cons, hstep]
                exact ih a

end FileTree

namespace Path

variable {p q : Path}

/-- The piece by which a component leads on. -/
def pieceOf : Component → Option String
  | .root | .here => none
  | .up => some ".."
  | .name s => some s

theorem pieceOf_ofPiece (piece : String) :
    (ofPiece piece).bind pieceOf = if FileTree.LeadsOn piece then some piece else none := by
  unfold ofPiece
  by_cases hon : FileTree.LeadsOn piece
  · rw [if_pos hon, if_neg (by simpa [FileTree.LeadsOn] using hon)]
    by_cases hup : piece = ".."
    · subst hup
      rfl
    · rw [if_neg (by simpa using hup)]
      rfl
  · rw [if_neg hon, if_pos (by simpa [FileTree.LeadsOn, Classical.or_iff_not_imp_left] using hon)]
    rfl

theorem filterMap_pieceOf (pieces : List String) :
    (pieces.filterMap ofPiece).filterMap pieceOf = pieces.filter FileTree.LeadsOn := by
  rw [List.filterMap_filterMap, ← List.filterMap_eq_filter]
  refine List.filterMap_congr fun piece _ => ?_
  rw [pieceOf_ofPiece]
  simp [Option.guard]

/-- The pieces that lead on are told by the place. -/
theorem filter_pieces (p : Path) :
    p.pieces.filter FileTree.LeadsOn = p.place.filterMap pieceOf := by
  obtain ⟨first, rest, hpieces, hplace⟩ := exists_pieces p
  rw [hpieces, hplace, List.filterMap_append, filterMap_pieceOf, ← List.singleton_append,
    List.filter_append]
  congr 1
  by_cases habsolute : p.isAbsolute
  · obtain ⟨cs, hcs⟩ := isAbsolute_iff.mp habsolute
    have hsplit : p.pieces = "" :: pieces ⟨String.ofList cs⟩ := by
      rw [show p = ⟨p.spelling⟩ from rfl, hcs]
      exact pieces_separated "" cs
    rw [if_pos habsolute, (List.cons.inj (hpieces.symm.trans hsplit)).1]
    rfl
  · rw [if_neg habsolute]
    by_cases hhere : first = "."
    · rw [hhere]
      rfl
    · rw [if_neg (by simpa using hhere), ← filterMap_pieceOf]
      cases hfirst : ofPiece first <;> simp [hfirst]

end Path

namespace FileTree

variable {t : FileTree} {p q : Path}

/-- Whether nothing is at a place does not depend on its spelling. -/
theorem fingerprint_eq_missing_congr (h : p.place = q.place) :
    t.fingerprint p = .error .missing ↔ t.fingerprint q = .error .missing := by
  have hlookup : ∀ r, t.fingerprint r = .error .missing ↔ t.lookup r = .error .missing := by
    intro r
    unfold FileTree.fingerprint
    cases t.lookup r <;> simp [Except.map]
  rw [hlookup, hlookup]
  by_cases hp : p.spelling = ""
  · have hq : q.spelling = "" := by
      by_contra hq
      refine Path.place_ne_nil hq ?_
      rw [← h, show p = ⟨""⟩ from congrArg Path.mk hp]
      rfl
    have heq : p = q := by
      rw [show p = ⟨p.spelling⟩ from rfl, hp, ← hq]
    rw [heq]
  · have hq : q.spelling ≠ "" := by
      intro hq
      refine Path.place_ne_nil hp ?_
      rw [h, show q = ⟨""⟩ from congrArg Path.mk hq]
      rfl
    have horigin : t.origin p = t.origin q := by
      have hplace : p.place <+: q.place := ⟨[], by rw [List.append_nil, h]⟩
      rw [origin, origin, Path.isAbsolute_of_prefix hp hplace]
    have hpieces : p.pieces.filter LeadsOn = q.pieces.filter LeadsOn := by
      rw [Path.filter_pieces, h, ← Path.filter_pieces]
    rw [lookup_eq_follow hp, lookup_eq_follow hq, follow_eq_missing_iff, horigin, hpieces,
      ← follow_eq_missing_iff]

end FileTree

end SymbolAtlas
