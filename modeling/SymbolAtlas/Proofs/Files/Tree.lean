import Mathlib.Data.List.Induction
import SymbolAtlas.Files.Tree
import SymbolAtlas.Proofs.Path

/-!
# Files of a tree

In a tree whose nodes stand in folders, a path below a folder leads to the node that stands there.
Writing or removing one file changes no other, and no folder is lost.
-/

namespace SymbolAtlas

namespace FileTree

/-- Nodes have names and stand in folders. -/
structure Proper (t : FileTree) : Prop where
  ne_nil : ∀ (a : Address) n, t.nodes[a]? = some n → a ≠ []
  isName : ∀ (a : Address) n, t.nodes[a]? = some n → ∀ s ∈ a, Path.IsName s
  inFolder : ∀ a s, (t.node? (a ++ [s])).isSome → t.isFolderAt a

variable {t u : FileTree} {a b : Address} {p : Path} {names : List String}

theorem proper_empty : ({} : FileTree).Proper where
  ne_nil := by simp
  isName := by simp
  inFolder a s h := by
    cases a <;> simp [node?] at h

/-- Where the working folder is does not matter. -/
theorem Proper.of_toList (ht : t.Proper) (h : u.nodes.toList = t.nodes.toList) : u.Proper := by
  have hget : ∀ a : Address, u.nodes[a]? = t.nodes[a]? := by
    intro a
    apply Option.ext
    intro n
    rw [← Std.TreeMap.mem_toList_iff_getElem?_eq_some, h,
      Std.TreeMap.mem_toList_iff_getElem?_eq_some]
  have hnode : ∀ a, u.node? a = t.node? a := by
    intro a
    cases a with
    | nil => rfl
    | cons name rest => exact hget (name :: rest)
  refine ⟨fun a n ha => ht.ne_nil a n (hget a ▸ ha), fun a n ha => ht.isName a n (hget a ▸ ha),
    fun a s ha => ?_⟩
  rw [hnode] at ha
  unfold isFolderAt
  rw [hnode]
  exact ht.inFolder a s ha

theorem node?_append_singleton (t : FileTree) (a : Address) (s : String) :
    t.node? (a ++ [s]) = t.nodes[a ++ [s]]? := by
  unfold node?
  cases a <;> rfl

theorem node?_of_ne_nil (t : FileTree) (h : a ≠ []) : t.node? a = t.nodes[a]? := by
  unfold node?
  cases a with
  | nil => exact absurd rfl h
  | cons s a => rfl

theorem isFolderAt_iff : t.isFolderAt a ↔ ∃ m, t.node? a = some (.folder m) := by
  unfold isFolderAt
  cases h : t.node? a with
  | none => simp
  | some n => cases n <;> simp

theorem textAt?_eq_some_iff {text : String} :
    t.textAt? a = some text ↔ ∃ m, t.node? a = some (.file text m) := by
  unfold textAt?
  cases h : t.node? a with
  | none => simp
  | some n => cases n <;> simp [eq_comm]

theorem textAt?_of_isFolderAt (h : t.isFolderAt a) : t.textAt? a = none := by
  obtain ⟨m, hm⟩ := isFolderAt_iff.mp h
  unfold textAt?
  rw [hm]

/-- Nothing stands below what is no folder. -/
theorem Proper.isFolderAt_of_append (h : t.Proper) (hb : b ≠ [])
    (hnode : (t.node? (a ++ b)).isSome) : t.isFolderAt a := by
  induction b using List.reverseRecOn with
  | nil => exact absurd rfl hb
  | append_singleton b s ih =>
      rw [← List.append_assoc] at hnode
      have hfolder := h.inFolder (a ++ b) s hnode
      by_cases hnil : b = []
      · subst hnil
        simpa using hfolder
      · apply ih hnil
        obtain ⟨m, hm⟩ := isFolderAt_iff.mp hfolder
        rw [hm]
        rfl

/-! ## Following a path -/

theorem step_eq_ok (h : t.isFolderAt a) {name : String} (hn : Path.IsName name) :
    t.step a name = .ok (a ++ [name]) := by
  obtain ⟨m, hm⟩ := isFolderAt_iff.mp h
  unfold step
  rw [hm]
  dsimp only
  rw [if_neg (by simp [hn.ne_empty, hn.ne_here]), if_neg (by simp [hn.ne_up])]

theorem isFolderAt_of_step {piece : String} (h : t.step a piece = .ok b) : t.isFolderAt a := by
  unfold step at h
  rw [isFolderAt_iff]
  split at h
  · simp at h
  · simp at h
  · next m hm => exact ⟨m, hm⟩

/-- Where the way of a path begins. -/
def origin (t : FileTree) (p : Path) : Address := if p.isAbsolute then [] else t.workingFolder

theorem resolve_eq (t : FileTree) (hp : p.spelling ≠ "") :
    t.resolve p = p.pieces.foldlM t.step (t.origin p) := by
  unfold resolve
  rw [if_neg (by simpa using hp)]
  rfl

theorem spelling_ne_empty_of_resolve (h : t.resolve p = .ok a) : p.spelling ≠ "" := by
  intro hempty
  unfold resolve at h
  rw [if_pos (by simpa using hempty)] at h
  cases h

theorem foldlM_singleton (t : FileTree) (a : Address) (piece : String) :
    [piece].foldlM t.step a = t.step a piece := by
  rw [List.foldlM_cons]
  cases t.step a piece <;> rfl

theorem origin_join (t : FileTree) (hp : p.spelling ≠ "") {name : String} (hn : Path.IsName name) :
    t.origin (p.join ⟨name⟩) = t.origin p := by
  unfold origin
  rw [Path.isAbsolute_join hp hn.isAbsolute]

theorem resolve_join {name : String} (hn : Path.IsName name) (h : t.resolve p = .ok a) :
    t.resolve (p.join ⟨name⟩) = t.step a name := by
  have hp := spelling_ne_empty_of_resolve h
  rw [resolve_eq t hp] at h
  rw [resolve_eq t (Path.spelling_join_ne_empty hp hn), origin_join t hp hn]
  rcases Path.pieces_join hp hn with happend | ⟨front, -, hslash, hjoin⟩
  · rw [happend, List.foldlM_append, h]
    exact foldlM_singleton t a name
  · rw [hslash, List.foldlM_append] at h
    rw [hjoin, List.foldlM_append]
    cases hfront : front.foldlM t.step (t.origin p) with
    | error e =>
        rw [hfront] at h
        simp [bind, Except.bind] at h
    | ok b =>
        rw [hfront] at h
        have hstep : t.step b "" = .ok a := (foldlM_singleton t b "").symm.trans h
        have hba : b = a := by
          obtain ⟨m, hm⟩ := isFolderAt_iff.mp (isFolderAt_of_step hstep)
          unfold step at hstep
          rw [hm] at hstep
          simpa using hstep
        rw [hba]
        exact foldlM_singleton t a name

/-- A path that leads nowhere does so further down too, unless a slash at its end is to blame. -/
theorem resolve_join_of_error (hp : p.spelling ≠ "") {name : String} (hn : Path.IsName name)
    (hlast : p.pieces.getLast? ≠ some "") {e : PathFault} (h : t.resolve p = .error e) :
    t.resolve (p.join ⟨name⟩) = .error e := by
  rw [resolve_eq t hp] at h
  rw [resolve_eq t (Path.spelling_join_ne_empty hp hn), origin_join t hp hn]
  rcases Path.pieces_join hp hn with happend | ⟨front, -, hslash, -⟩
  · rw [happend, List.foldlM_append, h]
    rfl
  · rw [hslash] at hlast
    simp at hlast

/-- Going down a path is going down the tree. -/
theorem resolve_down (hn : ∀ n ∈ names, Path.IsName n) (h : t.resolve p = .ok a) :
    t.resolve (p.down names) = names.foldlM t.step a := by
  have hp := spelling_ne_empty_of_resolve h
  induction names using List.reverseRecOn with
  | nil => exact h
  | append_singleton names name ih =>
      have hnames : ∀ n ∈ names, Path.IsName n := fun n hmem => hn n (by simp [hmem])
      have hname : Path.IsName name := hn name (by simp)
      have hdown : p.down (names ++ [name]) = (p.down names).join ⟨name⟩ := by simp [Path.down]
      rw [hdown, List.foldlM_append]
      cases hfold : names.foldlM t.step a with
      | ok b =>
          rw [resolve_join hname ((ih hnames).trans hfold)]
          exact (foldlM_singleton t b name).symm
      | error e =>
          refine resolve_join_of_error (Path.spelling_down_ne_empty hp hnames) hname ?_
            ((ih hnames).trans hfold)
          exact Path.getLast?_pieces_down hp hnames (by rintro rfl; cases hfold)

/-- The file below a folder to which a path leads is the one that stands there. -/
theorem Proper.textAt?_down (ht : t.Proper) (ha : t.isFolderAt a)
    (hn : ∀ n ∈ names, Path.IsName n) :
    (match names.foldlM t.step a with
      | .ok b => t.textAt? b
      | .error _ => none) = t.textAt? (a ++ names) := by
  induction names generalizing a with
  | nil => rw [List.append_nil]; rfl
  | cons name names ih =>
      have hname : Path.IsName name := hn name (by simp)
      have hnames : ∀ n ∈ names, Path.IsName n := fun n hmem => hn n (List.mem_cons_of_mem _ hmem)
      have happend : a ++ name :: names = a ++ [name] ++ names := by simp
      rw [List.foldlM_cons, step_eq_ok ha hname, happend]
      change (match names.foldlM t.step (a ++ [name]) with
        | .ok b => t.textAt? b
        | .error _ => none) = _
      by_cases hfolder : t.isFolderAt (a ++ [name])
      · exact ih hfolder hnames
      · cases names with
        | nil => rw [List.append_nil]; rfl
        | cons next names =>
            have hnone : t.textAt? (a ++ [name] ++ next :: names) = none := by
              by_contra hsome
              obtain ⟨text, htext⟩ := Option.ne_none_iff_exists'.mp hsome
              obtain ⟨m, hm⟩ := textAt?_eq_some_iff.mp htext
              apply hfolder
              apply ht.isFolderAt_of_append (List.cons_ne_nil next names)
              rw [hm]
              rfl
            rw [hnone, List.foldlM_cons]
            cases hstep : t.step (a ++ [name]) next with
            | ok b => exact absurd (isFolderAt_of_step hstep) hfolder
            | error e => rfl

/-- The names on the way to a file lead there. -/
theorem Proper.foldlM_step (ht : t.Proper) (ha : t.isFolderAt a)
    (hn : ∀ n ∈ names, Path.IsName n) (h : (t.textAt? (a ++ names)).isSome) :
    names.foldlM t.step a = .ok (a ++ names) := by
  induction names generalizing a with
  | nil =>
      rw [List.append_nil]
      rfl
  | cons name names ih =>
      have happend : a ++ name :: names = a ++ [name] ++ names := by simp
      rw [happend] at h ⊢
      rw [List.foldlM_cons, step_eq_ok ha (hn name List.mem_cons_self)]
      change names.foldlM t.step (a ++ [name]) = _
      cases names with
      | nil =>
          rw [List.append_nil]
          rfl
      | cons next names =>
          obtain ⟨text, htext⟩ := Option.isSome_iff_exists.mp h
          obtain ⟨m, hm⟩ := textAt?_eq_some_iff.mp htext
          have hfolder : t.isFolderAt (a ++ [name]) := by
            apply ht.isFolderAt_of_append (List.cons_ne_nil next names)
            rw [hm]
            rfl
          exact ih hfolder (fun n hmem => hn n (List.mem_cons_of_mem name hmem)) h

theorem readText?_eq (t : FileTree) (p : Path) :
    t.readText? p = match t.resolve p with
      | .ok a => t.textAt? a
      | .error _ => none := by
  unfold readText? lookup textAt?
  cases t.resolve p with
  | error e => rfl
  | ok a => dsimp only; cases t.node? a with
    | none => rfl
    | some n => cases n <;> rfl

theorem isFile_eq (t : FileTree) (p : Path) : t.isFile p = (t.readText? p).isSome := by
  unfold isFile readText?
  cases t.lookup p with
  | error e => rfl
  | ok n => cases n <;> rfl

/-- Reading a file below a folder. -/
theorem Proper.readText?_down (ht : t.Proper) (h : t.resolve p = .ok a) (ha : t.isFolderAt a)
    (hn : ∀ n ∈ names, Path.IsName n) :
    t.readText? (p.down names) = t.textAt? (a ++ names) := by
  rw [readText?_eq, resolve_down hn h]
  exact ht.textAt?_down ha hn

/-! ## Changing one file -/

/-- A tree with the same files as another one and at least its folders. -/
structure Extends (u t : FileTree) : Prop where
  textAt? : ∀ a, u.textAt? a = t.textAt? a
  isFolderAt : ∀ a, t.isFolderAt a → u.isFolderAt a

theorem Extends.refl (t : FileTree) : t.Extends t := ⟨fun _ => rfl, fun _ h => h⟩

theorem Extends.trans {v : FileTree} (h : v.Extends u) (h' : u.Extends t) : v.Extends t :=
  ⟨fun a => (h.textAt? a).trans (h'.textAt? a), fun a ha => h.isFolderAt a (h'.isFolderAt a ha)⟩

theorem node?_put (t : FileTree) (ha : a ≠ []) (n : FileNode) (b : Address) :
    (t.put a n).node? b = if b = a then some n else t.node? b := by
  cases b with
  | nil => rw [if_neg ha.symm]; rfl
  | cons s b =>
      change (t.nodes.insert a n)[s :: b]? = if s :: b = a then some n else t.nodes[s :: b]?
      rw [Std.TreeMap.getElem?_insert]
      simp only [Std.LawfulEqCmp.compare_eq_iff_eq, eq_comm (a := a)]

theorem isName_of_node? (ht : t.Proper) (ha : (t.node? a).isSome) : ∀ s ∈ a, Path.IsName s := by
  cases a with
  | nil => simp
  | cons s a =>
      obtain ⟨n, hn⟩ := Option.isSome_iff_exists.mp ha
      exact ht.isName _ n hn

/-- A node is put into a folder, and no file in the place of one. -/
theorem Proper.put (ht : t.Proper) (hne : a ≠ []) (ha : t.isFolderAt a.dropLast)
    (hnames : ∀ s ∈ a, Path.IsName s) {n : FileNode}
    (hn : (∃ m, n = .folder m) ∨ ¬ t.isFolderAt a) : (t.put a n).Proper := by
  have hget : ∀ (b : Address) m, (t.put a n).nodes[b]? = some m → b = a ∨ t.nodes[b]? = some m := by
    intro b m hb
    change (t.nodes.insert a n)[b]? = some m at hb
    rw [Std.TreeMap.getElem?_insert] at hb
    split_ifs at hb with heq
    · exact .inl (Std.LawfulEqCmp.compare_eq_iff_eq.mp heq).symm
    · exact .inr hb
  have hfolder : ∀ b, t.isFolderAt b → (t.put a n).isFolderAt b := by
    intro b hb
    unfold isFolderAt
    rw [node?_put t hne]
    split_ifs with heq
    · rcases hn with ⟨m, rfl⟩ | hno
      · rfl
      · rw [heq] at hb
        exact absurd hb hno
    · exact hb
  refine ⟨fun b m hb => ?_, fun b m hb => ?_, fun b r hb => ?_⟩
  · rcases hget b m hb with rfl | hb
    · exact hne
    · exact ht.ne_nil b m hb
  · rcases hget b m hb with rfl | hb
    · exact hnames
    · exact ht.isName b m hb
  · rw [node?_put t hne] at hb
    split_ifs at hb with heq
    · rw [← heq, List.dropLast_concat] at ha
      exact hfolder b ha
    · exact hfolder b (ht.inFolder b r hb)

theorem Proper.isFolderAt_dropLast (ht : t.Proper) (ha : (t.node? a).isSome) :
    t.isFolderAt a.dropLast := by
  by_cases hne : a = []
  · subst hne
    rfl
  · apply ht.inFolder a.dropLast (a.getLast hne)
    rw [List.dropLast_append_getLast]
    exact ha

theorem extends_put_folder (hne : a ≠ []) (ha : t.textAt? a = none) (m : Nat) :
    (t.put a (.folder m)).Extends t := by
  constructor
  · intro b
    unfold textAt?
    rw [node?_put t hne]
    split_ifs with heq
    · rw [heq]
      exact ha.symm
    · rfl
  · intro b hb
    unfold isFolderAt
    rw [node?_put t hne]
    split_ifs
    · rfl
    · exact hb

theorem touch_of_not_isFolderAt (now : Nat) (h : ¬ t.isFolderAt a) : t.touch now a = t := by
  unfold touch
  split
  · next m hm => exact absurd (isFolderAt_iff.mpr ⟨m, hm⟩) h
  · rfl

theorem touch_of_isFolderAt (now : Nat) (hne : a ≠ []) (h : t.isFolderAt a) :
    t.touch now a = t.put a (.folder now) := by
  obtain ⟨m, hm⟩ := isFolderAt_iff.mp h
  unfold touch
  rw [hm]
  dsimp only
  rw [if_neg (by simpa using hne)]

theorem touch_nil (t : FileTree) (now : Nat) : t.touch now [] = t := rfl

theorem Proper.touch (ht : t.Proper) (now : Nat) (a : Address) :
    (t.touch now a).Proper ∧ (t.touch now a).Extends t := by
  by_cases hne : a = []
  · rw [hne, touch_nil]
    exact ⟨ht, .refl t⟩
  · by_cases ha : t.isFolderAt a
    · have hnode : (t.node? a).isSome := by
        obtain ⟨m, hm⟩ := isFolderAt_iff.mp ha
        rw [hm]
        rfl
      rw [touch_of_isFolderAt now hne ha]
      constructor
      · exact ht.put hne (ht.isFolderAt_dropLast hnode) (isName_of_node? ht hnode) (.inl ⟨now, rfl⟩)
      · exact extends_put_folder hne (textAt?_of_isFolderAt ha) now
    · rw [touch_of_not_isFolderAt now ha]
      exact ⟨ht, .refl t⟩

theorem Proper.addFolder (ht : t.Proper) (now : Nat) (hnames : ∀ s ∈ a, Path.IsName s) :
    (t.addFolder now a).Proper ∧ (t.addFolder now a).Extends t := by
  unfold FileTree.addFolder
  split_ifs with hadd
  · rw [Bool.and_eq_true, Option.isNone_iff_eq_none] at hadd
    obtain ⟨hnone, hfolder⟩ := hadd
    obtain ⟨htouch, hextends⟩ := ht.touch now a.dropLast
    have hne : a ≠ [] := by
      rintro rfl
      cases hnone
    have htext : t.textAt? a = none := by
      unfold FileTree.textAt?
      rw [hnone]
    constructor
    · exact htouch.put hne (hextends.isFolderAt _ hfolder) hnames (.inl ⟨now, rfl⟩)
    · exact (extends_put_folder hne ((hextends.textAt? a).trans htext) now).trans hextends
  · exact ⟨ht, .refl t⟩

theorem mem_way {a b : Address} : b ∈ Address.way a ↔ b <+: a := by
  unfold Address.way
  rw [List.mem_map]
  constructor
  · rintro ⟨n, -, rfl⟩
    exact List.take_prefix n a
  · intro h
    refine ⟨b.length, ?_, (List.prefix_iff_eq_take.mp h).symm⟩
    rw [List.mem_range]
    have hlength := h.length_le
    omega

theorem Proper.makeFolder (ht : t.Proper) (now : Nat) (hnames : ∀ s ∈ a, Path.IsName s) :
    (t.makeFolder now a).Proper ∧ (t.makeFolder now a).Extends t := by
  unfold FileTree.makeFolder
  have hway : ∀ b ∈ Address.way a, ∀ s ∈ b, Path.IsName s := fun b hb s hs =>
    hnames s ((mem_way.mp hb).subset hs)
  generalize Address.way a = way at hway ⊢
  induction way generalizing t with
  | nil => exact ⟨ht, .refl t⟩
  | cons b way ih =>
      obtain ⟨hadd, hextends⟩ := ht.addFolder now (hway b (by simp))
      obtain ⟨hrest, hextends'⟩ := ih hadd fun c hc s hs => hway c (List.mem_cons_of_mem b hc) s hs
      exact ⟨hrest, hextends'.trans hextends⟩

/-- A tree that differs from another one in one file at most, and has at least its folders. -/
structure Differs (u t : FileTree) (a : Address) : Prop where
  textAt? : ∀ b, b ≠ a → u.textAt? b = t.textAt? b
  isFolderAt : ∀ b, t.isFolderAt b → u.isFolderAt b

theorem Extends.differs (h : u.Extends t) (a : Address) : u.Differs t a :=
  ⟨fun b _ => h.textAt? b, h.isFolderAt⟩

/-- Writing a file changes this file alone. -/
theorem Proper.write (ht : t.Proper) (now : Nat) (hnames : ∀ s ∈ a, Path.IsName s) (text : String)
    (modified : Nat) :
    (t.write now a text modified).Proper ∧ (t.write now a text modified).Differs t a := by
  have hfront : ∀ s ∈ a.dropLast, Path.IsName s := fun s hs =>
    hnames s (List.dropLast_subset a hs)
  obtain ⟨hmake, hextends⟩ := ht.makeFolder now hfront
  unfold FileTree.write
  set v := t.makeFolder now a.dropLast with hv
  obtain ⟨hw, hwextends⟩ :
      (if (v.node? a).isNone then v.touch now a.dropLast else v).Proper ∧
      (if (v.node? a).isNone then v.touch now a.dropLast else v).Extends t := by
    split_ifs
    · obtain ⟨htouch, htouched⟩ := hmake.touch now a.dropLast
      exact ⟨htouch, htouched.trans hextends⟩
    · exact ⟨hmake, hextends⟩
  dsimp only
  set w := if (v.node? a).isNone then v.touch now a.dropLast else v with hwdef
  split
  · exact ⟨hw, hwextends.differs a⟩
  · next _ m hfolder hno =>
    have hne : a ≠ [] := by
      rintro rfl
      exact hno 0 rfl
    have hplace : ¬ w.isFolderAt a := by
      intro hin
      obtain ⟨m', hm'⟩ := isFolderAt_iff.mp hin
      exact hno m' hm'
    refine ⟨hw.put hne (isFolderAt_iff.mpr ⟨m, hfolder⟩) hnames (.inr hplace), ?_, ?_⟩
    · intro b hb
      rw [← hwextends.textAt? b]
      unfold FileTree.textAt?
      rw [node?_put w hne, if_neg hb]
    · intro b hb
      have hb' := hwextends.isFolderAt b hb
      unfold FileTree.isFolderAt
      rw [node?_put w hne, if_neg]
      · exact hb'
      · rintro rfl
        exact hplace hb'
  · exact ⟨hw, hwextends.differs a⟩

theorem getElem?_filter_isPrefixOf (nodes : Std.TreeMap Address FileNode) (a b : Address) :
    (nodes.filter fun b _ => !a.isPrefixOf b)[b]? = if a <+: b then none else nodes[b]? := by
  rw [Std.TreeMap.getElem?_filter']
  by_cases hbelow : a <+: b
  · rw [if_pos hbelow]
    simp [List.isPrefixOf_iff_prefix.mpr hbelow]
  · rw [if_neg hbelow]
    have hbool : List.isPrefixOf a b = false := by
      rw [Bool.eq_false_iff, ne_eq, List.isPrefixOf_iff_prefix]
      exact hbelow
    cases nodes[b]? <;> simp [hbool]

/-- Nothing stands below a file, so only the file itself is gone without it. -/
theorem Proper.node?_filter (ht : t.Proper) (ha : ¬ t.isFolderAt a) (hb : b ≠ a) :
    ({ t with nodes := t.nodes.filter fun b _ => !a.isPrefixOf b } : FileTree).node? b =
      t.node? b := by
  cases b with
  | nil => rfl
  | cons s rest =>
      change (t.nodes.filter fun b _ => !a.isPrefixOf b)[s :: rest]? = t.nodes[s :: rest]?
      rw [getElem?_filter_isPrefixOf]
      split_ifs with hbelow
      · obtain ⟨c, hc⟩ := hbelow
        symm
        by_contra hsome
        apply ha
        apply ht.isFolderAt_of_append (b := c)
        · rintro rfl
          rw [List.append_nil] at hc
          exact hb hc.symm
        · rw [hc]
          exact Option.isSome_iff_ne_none.mpr hsome
      · rfl

theorem Proper.isFolderAt_filter (ht : t.Proper) (ha : ¬ t.isFolderAt a) (hb : t.isFolderAt b) :
    ({ t with nodes := t.nodes.filter fun b _ => !a.isPrefixOf b } : FileTree).isFolderAt b := by
  have hne : b ≠ a := by
    rintro rfl
    exact ha hb
  unfold FileTree.isFolderAt at hb ⊢
  rw [ht.node?_filter ha hne]
  exact hb

theorem Proper.filter (ht : t.Proper) (ha : ¬ t.isFolderAt a) :
    ({ t with nodes := t.nodes.filter fun b _ => !a.isPrefixOf b } : FileTree).Proper := by
  have hget : ∀ (b : Address) m,
      (t.nodes.filter fun b _ => !a.isPrefixOf b)[b]? = some m → t.nodes[b]? = some m := by
    intro b m hb
    rw [getElem?_filter_isPrefixOf] at hb
    split_ifs at hb
    exact hb
  refine ⟨fun b m hb => ht.ne_nil b m (hget b m hb), fun b m hb => ht.isName b m (hget b m hb),
    fun b s hb => ?_⟩
  have hne : b ++ [s] ≠ a := by
    rintro rfl
    rw [node?_append_singleton] at hb
    change ((t.nodes.filter fun b _ => !_)[_]?).isSome at hb
    rw [getElem?_filter_isPrefixOf, if_pos (List.prefix_refl _)] at hb
    simp at hb
  rw [ht.node?_filter ha hne] at hb
  exact ht.isFolderAt_filter ha (ht.inFolder b s hb)

/-- Removing a file changes this file alone. -/
theorem Proper.remove (ht : t.Proper) (now : Nat) (ha : (t.textAt? a).isSome) :
    (t.remove now a).Proper ∧ (t.remove now a).Differs t a := by
  obtain ⟨htouch, hextends⟩ := ht.touch now a.dropLast
  have hfile : ¬ (t.touch now a.dropLast).isFolderAt a := by
    intro hfolder
    rw [← hextends.textAt? a, textAt?_of_isFolderAt hfolder] at ha
    simp at ha
  unfold FileTree.remove
  refine ⟨htouch.filter hfile, fun b hb => ?_, fun b hb => ?_⟩
  · rw [← hextends.textAt? b]
    unfold FileTree.textAt?
    rw [htouch.node?_filter hfile hb]
  · exact htouch.isFolderAt_filter hfile (hextends.isFolderAt b hb)

theorem step_of_folders (h : ∀ a, t.isFolderAt a → u.isFolderAt a) {piece : String}
    (hstep : t.step a piece = .ok b) : u.step a piece = .ok b := by
  obtain ⟨m, hm⟩ := isFolderAt_iff.mp (isFolderAt_of_step hstep)
  obtain ⟨m', hm'⟩ := isFolderAt_iff.mp (h a (isFolderAt_of_step hstep))
  unfold step at hstep ⊢
  rw [hm] at hstep
  rw [hm']
  exact hstep

theorem foldlM_step_of_folders (h : ∀ a, t.isFolderAt a → u.isFolderAt a) {pieces : List String}
    (hsteps : pieces.foldlM t.step a = .ok b) : pieces.foldlM u.step a = .ok b := by
  induction pieces generalizing a with
  | nil => exact hsteps
  | cons piece rest ih =>
      rw [List.foldlM_cons] at hsteps ⊢
      cases hstep : t.step a piece with
      | error e =>
          rw [hstep] at hsteps
          cases hsteps
      | ok c =>
          rw [hstep] at hsteps
          rw [step_of_folders h hstep]
          exact ih hsteps

/-- A path that leads somewhere leads there as long as no folder is lost. -/
theorem resolve_of_folders (h : ∀ a, t.isFolderAt a → u.isFolderAt a) (hp : p.isAbsolute)
    (hresolve : t.resolve p = .ok a) : u.resolve p = .ok a := by
  have horigin : u.origin p = t.origin p := by
    unfold origin
    rw [if_pos hp, if_pos hp]
  rw [resolve_eq t (Path.spelling_ne_empty hp)] at hresolve
  rw [resolve_eq u (Path.spelling_ne_empty hp), horigin]
  exact foldlM_step_of_folders h hresolve

end FileTree

end SymbolAtlas
