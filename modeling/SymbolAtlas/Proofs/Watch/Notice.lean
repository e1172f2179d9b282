import SymbolAtlas.Proofs.Extensions
import SymbolAtlas.Watch.Notice

/-!
# What a notice means

The changes that a notice means are those of all its paths, each by its place among them. Which
extensions are watched decides which of the changes are passed on, and nothing else about them.
-/

namespace SymbolAtlas

namespace Extensions

/-- A path is watched if its extension has the letters of a watched one. -/
theorem watch_of_extension? {p : Path} {e : String} (he : p.extension? = some e)
    (extensions : List String) :
    watch extensions p =
      extensions.any fun x => x.toList.map Char.toLower == e.toList.map Char.toLower := by
  have hletters (x : String) : (Text.asciiLowercase x == Text.asciiLowercase e) =
      (x.toList.map Char.toLower == e.toList.map Char.toLower) := by
    rw [Bool.eq_iff_iff, beq_iff_eq, beq_iff_eq, ← String.toList_inj, Text.toList_asciiLowercase,
      Text.toList_asciiLowercase]
  unfold watch
  rw [he]
  dsimp only
  simp only [hletters]

/-- What is watched is still watched where there are more extensions. -/
theorem watch_of_subset {extensions more : List String} (h : extensions ⊆ more) {p : Path}
    (hp : watch extensions p = true) : watch more p = true := by
  obtain ⟨e, he, x, hx, heq⟩ := watch_iff.mp hp
  exact watch_iff.mpr ⟨e, he, x, h hx, heq⟩

end Extensions

namespace Notice

/-- The changes of all paths of a notice. Of two names of a renamed file the old one is gone and the
new one is created, and so is every path after them. -/
def Kind.meaning : Kind → List Path → List FileChange
  | .renameBoth, [] => []
  | .renameBoth, old :: others => ⟨old, .deleted⟩ :: others.map (⟨·, .created⟩)
  | .create, paths | .renameTo, paths => paths.map (⟨·, .created⟩)
  | .remove, paths | .renameFrom, paths => paths.map (⟨·, .deleted⟩)
  | .data, paths | .renameAny, paths | .modifyAny, paths | .modifyOther, paths =>
    paths.map (⟨·, .contentChanged⟩)
  | .any, _ | .access, _ | .metadata, _ | .other, _ => []

def meaning (n : Notice) : List FileChange := n.kind.meaning n.paths

/-- Whether a change is one of a path with a watched extension. -/
def watched (extensions : List String) (c : FileChange) : Bool :=
  Extensions.watch extensions c.path

/-! ## Changes by their places -/

/-- The changes of some paths, the first of which stands in some place. -/
def assign (changes : List Change) (place : Nat) (paths : List Path) : List FileChange :=
  (paths.zipIdx place).filterMap fun (path, i) =>
    (changeAt? changes i).map fun change => { path, change }

theorem assign_cons (changes : List Change) (place : Nat) (p : Path) (paths : List Path) :
    assign changes place (p :: paths) =
      ((changeAt? changes place).map fun change => FileChange.mk p change).toList ++
        assign changes (place + 1) paths := by
  unfold assign
  rw [List.zipIdx_cons, List.filterMap_cons]
  dsimp only
  cases changeAt? changes place with
  | none => rfl
  | some change => rfl

/-- From the last of its changes on, a notice means this one for every path. -/
theorem assign_of_last {changes : List Change} {place : Nat} {last : Change}
    (hlast : ∀ i ≥ place, changeAt? changes i = some last) (paths : List Path) :
    assign changes place paths = paths.map (⟨·, last⟩) := by
  induction paths generalizing place with
  | nil => rfl
  | cons p paths ih =>
      have hrest := ih fun i hi => hlast i (Nat.le_of_succ_le hi)
      rw [assign_cons, hlast place (Nat.le_refl place), hrest]
      rfl

theorem assign_nil (place : Nat) (paths : List Path) : assign [] place paths = [] := by
  induction paths generalizing place with
  | nil => rfl
  | cons p paths ih =>
      rw [assign_cons, ih]
      rfl

theorem changeAt?_singleton (c : Change) (i : Nat) : changeAt? [c] i = some c := by
  cases i <;> rfl

theorem changeAt?_second (c d : Change) {i : Nat} (hi : 1 ≤ i) : changeAt? [c, d] i = some d := by
  obtain _ | _ | i := i
  · omega
  · rfl
  · rfl

theorem assign_changes (kind : Kind) (paths : List Path) :
    assign kind.changes 0 paths = kind.meaning paths := by
  have hone (c : Change) : assign [c] 0 paths = paths.map (⟨·, c⟩) :=
    assign_of_last (fun i _ => changeAt?_singleton c i) paths
  have hnone : assign [] 0 paths = [] := assign_nil 0 paths
  cases kind with
  | create | renameTo => exact hone .created
  | remove | renameFrom => exact hone .deleted
  | data | renameAny | modifyAny | modifyOther => exact hone .contentChanged
  | any | access | metadata | other => exact hnone
  | renameBoth =>
      cases paths with
      | nil => rfl
      | cons old others =>
          have hothers : assign [.deleted, .created] 1 others = others.map (⟨·, .created⟩) :=
            assign_of_last (fun i hi => changeAt?_second .deleted .created hi) others
          rw [Kind.changes, assign_cons, hothers]
          rfl

/-! ## Filtering -/

theorem map_path_map (c : Change) (paths : List Path) :
    (paths.map (FileChange.mk · c)).map FileChange.path = paths := by
  rw [List.map_map]
  exact List.map_id paths

/-- A notice means something for all of its paths or for none. -/
theorem map_path_meaning (kind : Kind) (paths : List Path) :
    kind.meaning paths = [] ∨ (kind.meaning paths).map FileChange.path = paths := by
  cases kind with
  | create | renameTo => exact .inr (map_path_map .created paths)
  | remove | renameFrom => exact .inr (map_path_map .deleted paths)
  | data | renameAny | modifyAny | modifyOther => exact .inr (map_path_map .contentChanged paths)
  | any | access | metadata | other => exact .inl rfl
  | renameBoth =>
      cases paths with
      | nil => exact .inl rfl
      | cons old others =>
          right
          rw [Kind.meaning, List.map_cons, map_path_map]

theorem path_mem_of_mem_meaning {n : Notice} {c : FileChange} (hc : c ∈ n.meaning) :
    c.path ∈ n.paths := by
  have hmem : c.path ∈ (n.kind.meaning n.paths).map FileChange.path := List.mem_map_of_mem hc
  rcases map_path_meaning n.kind n.paths with hnone | hpaths
  · rw [hnone] at hmem
    cases hmem
  · rwa [hpaths] at hmem

theorem filter_watched_map (extensions : List String) (c : Change) (paths : List Path) :
    (paths.map (FileChange.mk · c)).filter (watched extensions) =
      (paths.filter (Extensions.watch extensions)).map (FileChange.mk · c) := List.filter_map

theorem fileChanges_eq_filter (n : Notice) (extensions : List String) :
    n.fileChanges extensions = n.meaning.filter (watched extensions) := by
  unfold fileChanges meaning
  rw [← assign_changes, assign, List.filter_filterMap]
  apply List.filterMap_congr
  rintro ⟨p, i⟩ _
  dsimp only
  cases changeAt? n.kind.changes i with
  | none => exact ite_self none
  | some change => rfl

/-- Which extensions are watched does not change what a notice means. Of the changes that a notice
means for all its paths, those of the paths with a watched extension are passed on, in their order;
so all of them are where every path has one, and fewer extensions leave fewer of the changes that
more extensions let through. The old name of a renamed file is passed on as deleted and the new one
as created, each if it has a watched extension itself, and so is every further path as created. -/
theorem fileChanges_filters (n : Notice) (extensions : List String) :
    n.fileChanges extensions = n.meaning.filter (watched extensions) ∧
    (n.fileChanges extensions).Sublist n.meaning ∧
    ((∀ p ∈ n.paths, Extensions.watch extensions p = true) →
      n.fileChanges extensions = n.meaning) ∧
    (∀ more, extensions ⊆ more →
      n.fileChanges extensions = (n.fileChanges more).filter (watched extensions)) ∧
    (∀ old new further, n = ⟨.renameBoth, old :: new :: further⟩ →
      n.fileChanges extensions =
        (if Extensions.watch extensions old then [⟨old, .deleted⟩] else []) ++
        (if Extensions.watch extensions new then [⟨new, .created⟩] else []) ++
        (further.filter (Extensions.watch extensions)).map (⟨·, .created⟩)) := by
  have hfilter := fileChanges_eq_filter n extensions
  refine ⟨hfilter, ?_, ?_, ?_, ?_⟩
  · rw [hfilter]
    exact List.filter_sublist
  · intro hall
    rw [hfilter, List.filter_eq_self]
    intro c hc
    exact hall c.path (path_mem_of_mem_meaning hc)
  · intro more hmore
    rw [hfilter, fileChanges_eq_filter, List.filter_filter]
    apply List.filter_congr
    intro c _
    unfold watched
    cases hc : Extensions.watch extensions c.path with
    | false => rfl
    | true => rw [Extensions.watch_of_subset hmore hc, Bool.and_self]
  · rintro old new further rfl
    have hmeaning : meaning ⟨.renameBoth, old :: new :: further⟩ =
        ⟨old, .deleted⟩ :: ⟨new, .created⟩ :: further.map (⟨·, .created⟩) := rfl
    rw [hfilter, hmeaning, List.filter_cons, List.filter_cons, filter_watched_map]
    change (if Extensions.watch extensions old = true then _ else _) = _
    have hnew : watched extensions ⟨new, .created⟩ = Extensions.watch extensions new := rfl
    rw [hnew]
    split_ifs <;> rfl

/-- A file that is renamed to one without a watched extension is passed on as deleted only, and a
further path as created. -/
theorem fileChanges_filters_of_rename :
    let old : Path := ⟨"p/Old.CS"⟩
    let new : Path := ⟨"p/New.txt"⟩
    let further : Path := ⟨"p/More.cs"⟩
    let n : Notice := ⟨.renameBoth, [old, new, further]⟩
    (∀ p ∈ n.paths, Extensions.watch ["cs", "txt"] p = true) ∧
    n.meaning = [⟨old, .deleted⟩, ⟨new, .created⟩, ⟨further, .created⟩] ∧
    n.fileChanges ["cs", "txt"] = n.meaning ∧
    n.fileChanges ["cs"] = (n.fileChanges ["cs", "txt"]).filter (watched ["cs"]) ∧
    n.fileChanges ["cs"] = [⟨old, .deleted⟩, ⟨further, .created⟩] := by
  intro old new further n
  have hold := Extensions.watch_of_extension? (show old.extension? = some "CS" by decide +kernel)
  have hnew := Extensions.watch_of_extension? (show new.extension? = some "txt" by decide +kernel)
  have hfurther :=
    Extensions.watch_of_extension? (show further.extension? = some "cs" by decide +kernel)
  have hall : ∀ p ∈ n.paths, Extensions.watch ["cs", "txt"] p = true := by
    intro p hp
    rcases List.mem_cons.mp hp with rfl | hp
    · exact (hold _).trans (by decide)
    rcases List.mem_cons.mp hp with rfl | hp
    · exact (hnew _).trans (by decide)
    · rw [List.mem_singleton.mp hp]
      exact (hfurther _).trans (by decide)
  obtain ⟨-, -, hunfiltered, -, -⟩ := fileChanges_filters n ["cs", "txt"]
  obtain ⟨-, -, -, hfewer, hrename⟩ := fileChanges_filters n ["cs"]
  have hpassed : Extensions.watch ["cs"] old = true := (hold _).trans (by decide)
  have hheld : ¬ Extensions.watch ["cs"] new = true := by
    rw [hnew]
    decide
  have hpassed' : Extensions.watch ["cs"] further = true := (hfurther _).trans (by decide)
  refine ⟨hall, rfl, hunfiltered hall, hfewer ["cs", "txt"] (by simp), ?_⟩
  rw [hrename old new [further] rfl, if_pos hpassed, if_neg hheld,
    List.filter_cons_of_pos hpassed', List.filter_nil]
  rfl

end Notice

end SymbolAtlas
