import Mathlib.Data.List.Basic
import Mathlib.Data.List.TakeWhile
import SymbolAtlas.Path

/-!
# Going down from a folder

The pieces of a path below a folder are those of the folder and the names on the way down. So the
places below two folders are different unless one folder holds the other.
-/

namespace SymbolAtlas

namespace Path

/-- What can be the name of a node in a folder. -/
structure IsName (s : String) : Prop where
  ne_empty : s ≠ ""
  ne_here : s ≠ "."
  ne_up : s ≠ ".."
  separator_free : '/' ∉ s.toList

variable {p : Path} {name : String} {names : List String}

theorem IsName.ofPiece (h : IsName name) : ofPiece name = some (.name name) := by
  unfold Path.ofPiece
  rw [if_neg (by simp [h.ne_empty, h.ne_here]), if_neg (by simp [h.ne_up])]

theorem IsName.isAbsolute (h : IsName name) : isAbsolute ⟨name⟩ = false := by
  unfold Path.isAbsolute
  rw [beq_eq_false_iff_ne]
  intro hhead
  exact h.separator_free (List.mem_of_mem_head? hhead)

theorem IsName.splitOn (h : IsName name) : name.toList.splitOn '/' = [name.toList] := by
  rw [List.splitOn_eq_splitOnP]
  apply List.splitOnP_eq_singleton
  intro c hc
  rw [beq_eq_false_iff_ne]
  rintro rfl
  exact h.separator_free hc

/-- The pieces of a text on both sides of a separator. -/
theorem pieces_separated (front : String) (cs : List Char) :
    pieces ⟨front ++ "/" ++ String.ofList cs⟩ = pieces ⟨front⟩ ++ pieces ⟨String.ofList cs⟩ := by
  unfold pieces
  rw [← List.map_append]
  congr 1
  simp only [String.toList_append, String.toList_ofList, List.append_assoc]
  exact List.splitOnP_append_cons front.toList cs rfl

theorem pieces_name (h : IsName name) : pieces ⟨name⟩ = [name] := by
  unfold pieces
  rw [h.splitOn]
  simp

theorem isAbsolute_iff : p.isAbsolute ↔ ∃ cs, p.spelling = "/" ++ String.ofList cs := by
  unfold isAbsolute
  rw [beq_iff_eq]
  constructor
  · intro h
    obtain ⟨cs, hcs⟩ := List.head?_eq_some_iff.mp h
    refine ⟨cs, ?_⟩
    rw [← String.toList_inj, hcs]
    simp
  · rintro ⟨cs, hcs⟩
    rw [hcs]
    simp

/-- A path has a first piece, and its place starts with what this stands for. -/
theorem exists_pieces (p : Path) : ∃ first rest, p.pieces = first :: rest ∧
    p.place = (if p.isAbsolute then [.root] else if first == "." then [.here]
      else (ofPiece first).toList) ++ rest.filterMap ofPiece := by
  unfold place
  cases hpieces : p.pieces with
  | nil =>
      unfold pieces at hpieces
      rw [List.map_eq_nil_iff] at hpieces
      exact absurd hpieces (List.splitOn_ne_nil '/' _)
  | cons first rest => exact ⟨first, rest, rfl, rfl⟩

theorem spelling_ne_empty (hp : p.isAbsolute) : p.spelling ≠ "" := by
  obtain ⟨cs, hcs⟩ := isAbsolute_iff.mp hp
  rw [hcs]
  intro hempty
  simpa using congrArg String.toList hempty

/-- A relative path seen from a folder that has a spelling goes behind it. -/
theorem exists_spelling_join (hp : p.spelling ≠ "") {q : Path} (hq : q.isAbsolute = false) :
    ∃ front : String, (p.spelling = front ++ "/" ∨ p.spelling = front) ∧
      (p.join q).spelling = front ++ "/" ++ q.spelling := by
  unfold join
  rw [if_neg (by simp [hq, hp])]
  split_ifs with hslash
  · rw [beq_iff_eq] at hslash
    obtain ⟨cs, hcs⟩ := List.getLast?_eq_some_iff.mp hslash
    have hfront : p.spelling = String.ofList cs ++ "/" := by
      rw [← String.toList_inj, hcs]
      simp
    exact ⟨String.ofList cs, .inl hfront, by rw [hfront]⟩
  · exact ⟨p.spelling, .inr rfl, rfl⟩

/-- A name goes behind the pieces of a path, in place of an empty last one. -/
theorem pieces_join (hp : p.spelling ≠ "") (hn : IsName name) :
    (p.join ⟨name⟩).pieces = p.pieces ++ [name] ∨
      ∃ front, front ≠ [] ∧ p.pieces = front ++ [""] ∧
        (p.join ⟨name⟩).pieces = front ++ [name] := by
  obtain ⟨front, hfront, hjoin⟩ := exists_spelling_join hp hn.isAbsolute
  have hpieces : (p.join ⟨name⟩).pieces = pieces ⟨front⟩ ++ [name] := by
    rw [show p.join ⟨name⟩ = ⟨(p.join ⟨name⟩).spelling⟩ from rfl, hjoin,
      ← String.ofList_toList (s := name), pieces_separated, String.ofList_toList, pieces_name hn]
  rcases hfront with hslash | hsame
  · refine .inr ⟨pieces ⟨front⟩, ?_, ?_, hpieces⟩
    · obtain ⟨first, rest, hfirst, -⟩ := exists_pieces ⟨front⟩
      rw [hfirst]
      exact List.cons_ne_nil first rest
    · have hsep := pieces_separated front []
      rw [show p = ⟨p.spelling⟩ from rfl, hslash]
      simpa [pieces] using hsep
  · left
    rw [hpieces, ← hsame]

theorem spelling_join_ne_empty (hp : p.spelling ≠ "") (hn : IsName name) :
    (p.join ⟨name⟩).spelling ≠ "" := by
  obtain ⟨front, -, hjoin⟩ := exists_spelling_join hp hn.isAbsolute
  rw [hjoin]
  intro hempty
  simpa using congrArg String.toList hempty

theorem isAbsolute_join (hp : p.spelling ≠ "") {q : Path} (hq : q.isAbsolute = false) :
    (p.join q).isAbsolute = p.isAbsolute := by
  obtain ⟨front, hfront, hjoin⟩ := exists_spelling_join hp hq
  unfold isAbsolute
  rw [hjoin]
  rcases hfront with hslash | hsame
  · rw [hslash]
    cases front.toList <;> simp [*]
  · rw [hsame] at hp ⊢
    have hne : front.toList ≠ [] := fun hnil => hp (by rw [← String.toList_inj, hnil]; rfl)
    obtain ⟨c, cs, hcs⟩ := List.exists_cons_of_ne_nil hne
    simp [hcs]

/-- The place of a name in a folder, however the folder is spelled. -/
theorem place_join (hn : IsName name) : (p.join ⟨name⟩).place = p.place ++ [.name name] := by
  have hlast : [name].filterMap ofPiece = [.name name] := by
    rw [List.filterMap_cons_some hn.ofPiece]
    rfl
  by_cases hp : p.spelling = ""
  · have hempty : p.place = [] := by
      rw [show p = ⟨p.spelling⟩ from rfl, hp]
      rfl
    have hjoin : p.join ⟨name⟩ = ⟨name⟩ := by
      unfold join
      rw [if_pos (by simp [hp])]
    rw [hjoin, hempty, List.nil_append]
    unfold place
    rw [pieces_name hn]
    dsimp only
    rw [hn.isAbsolute, hn.ofPiece, if_neg (by simp), if_neg (by simp [hn.ne_here])]
    rfl
  · obtain ⟨first, rest, hrest, hplace⟩ := exists_pieces p
    obtain ⟨first', rest', hrest', hplace'⟩ := exists_pieces (p.join ⟨name⟩)
    rw [isAbsolute_join hp hn.isAbsolute] at hplace'
    have hpieces : first' = first ∧
        rest'.filterMap ofPiece = rest.filterMap ofPiece ++ [.name name] := by
      rcases pieces_join hp hn with happend | ⟨front, hfront, hslash, hjoin⟩
      · rw [hrest, hrest', List.cons_append] at happend
        obtain ⟨rfl, rfl⟩ := List.cons.inj happend
        exact ⟨rfl, by rw [List.filterMap_append, hlast]⟩
      · obtain ⟨first'', front, rfl⟩ := List.exists_cons_of_ne_nil hfront
        rw [hrest, List.cons_append] at hslash
        rw [hrest', List.cons_append] at hjoin
        obtain ⟨rfl, rfl⟩ := List.cons.inj hslash
        obtain ⟨rfl, rfl⟩ := List.cons.inj hjoin
        have hblank : [""].filterMap ofPiece = [] := rfl
        exact ⟨rfl, by rw [List.filterMap_append, List.filterMap_append, hlast, hblank,
          List.append_nil]⟩
    rw [hplace, hplace', hpieces.1, hpieces.2, List.append_assoc]

theorem down_cons (p : Path) (name : String) (names : List String) :
    p.down (name :: names) = (p.join ⟨name⟩).down names := rfl

theorem spelling_down_ne_empty (hp : p.spelling ≠ "") (hn : ∀ n ∈ names, IsName n) :
    (p.down names).spelling ≠ "" := by
  induction names generalizing p with
  | nil => exact hp
  | cons name names ih =>
      rw [down_cons]
      apply ih
      · exact spelling_join_ne_empty hp (hn name List.mem_cons_self)
      · intro n hmem
        exact hn n (List.mem_cons_of_mem name hmem)

/-- A path below a folder does not end with a slash. -/
theorem getLast?_pieces_down (hp : p.spelling ≠ "") (hn : ∀ n ∈ names, IsName n)
    (hnames : names ≠ []) : (p.down names).pieces.getLast? ≠ some "" := by
  obtain ⟨front, name, rfl⟩ := (List.eq_nil_or_concat' names).resolve_left hnames
  have hname : IsName name := hn name (by simp)
  have hfront := spelling_down_ne_empty hp fun n hmem => hn n (List.mem_append_left [name] hmem)
  have hdown : p.down (front ++ [name]) = (p.down front).join ⟨name⟩ := by simp [down]
  rw [hdown]
  rcases pieces_join hfront hname with happend | ⟨_, -, -, hjoin⟩
  · rw [happend]
    simpa using hname.ne_empty
  · rw [hjoin]
    simpa using hname.ne_empty

/-- The place of a path below a folder. -/
theorem place_down (hn : ∀ n ∈ names, IsName n) :
    (p.down names).place = p.place ++ names.map .name := by
  induction names generalizing p with
  | nil => simp [down]
  | cons name names ih =>
      rw [down_cons, ih fun n hmem => hn n (List.mem_cons_of_mem _ hmem),
        place_join (hn name List.mem_cons_self)]
      simp

theorem eq_of_place_down_eq {names' : List String} (hn : ∀ n ∈ names, IsName n)
    (hn' : ∀ n ∈ names', IsName n) (h : (p.down names).place = (p.down names').place) :
    names = names' := by
  rw [place_down hn, place_down hn', List.append_cancel_left_eq] at h
  refine List.map_injective_iff.mpr ?_ h
  intro a b hab
  exact Component.name.inj hab

/-- A folder around a path below another folder holds this one or is held by it. -/
theorem prefix_or_prefix_of_down {q : Path} (hn : ∀ n ∈ names, IsName n)
    (h : q.place <+: (p.down names).place) : q.place <+: p.place ∨ p.place <+: q.place := by
  rw [place_down hn] at h
  exact List.prefix_or_prefix_of_prefix h (List.prefix_append _ _)

/-! ## Names of files and their extensions -/

theorem separator_free_of_mem_splitOn {cs piece : List Char} (h : piece ∈ cs.splitOn '/') :
    '/' ∉ piece := by
  rw [List.splitOn_eq_splitOnP] at h
  induction cs generalizing piece with
  | nil =>
      rw [List.splitOnP_nil, List.mem_singleton] at h
      rw [h]
      exact List.not_mem_nil
  | cons c rest ih =>
      obtain ⟨first, others, hsplit⟩ :=
        List.exists_cons_of_ne_nil (List.splitOnP_ne_nil (· == '/') rest)
      rw [hsplit] at ih
      rw [List.splitOnP_cons_eq_if_modifyHead, hsplit] at h
      split_ifs at h with hc
      · rcases List.mem_cons.mp h with rfl | hmem
        · exact List.not_mem_nil
        · exact ih hmem
      · rw [List.modifyHead_cons] at h
        rcases List.mem_cons.mp h with rfl | hmem
        · rw [List.mem_cons, not_or]
          exact ⟨fun heq => hc (by simp [← heq]), ih List.mem_cons_self⟩
        · exact ih (List.mem_cons_of_mem _ hmem)

theorem separator_free_of_mem_pieces {piece : String} (h : piece ∈ p.pieces) :
    '/' ∉ piece.toList := by
  unfold pieces at h
  obtain ⟨cs, hcs, rfl⟩ := List.mem_map.mp h
  rw [String.toList_ofList]
  exact separator_free_of_mem_splitOn hcs

theorem separator_free_of_fileName? (h : p.fileName? = some name) : '/' ∉ name.toList := by
  have hpiece : ∀ {piece}, ofPiece piece = some (.name name) → piece = name := by
    intro piece heq
    unfold ofPiece at heq
    split_ifs at heq
    · simp at heq
    · exact Component.name.inj (Option.some.inj heq)
  have hmem : Component.name name ∈ p.place := by
    unfold fileName? at h
    split at h
    · next hlast =>
      rw [← Option.some.inj h]
      exact List.mem_of_getLast? hlast
    · cases h
  obtain ⟨first, rest, hpieces, hplace⟩ := exists_pieces p
  rw [hplace, List.mem_append] at hmem
  apply separator_free_of_mem_pieces (p := p)
  rw [hpieces]
  rcases hmem with hfirst | hrest
  · split_ifs at hfirst
    · simp at hfirst
    · simp at hfirst
    · rw [hpiece (Option.mem_toList.mp hfirst)]
      exact List.mem_cons_self
  · obtain ⟨piece, hin, heq⟩ := List.mem_filterMap.mp hrest
    rw [← hpiece heq]
    exact List.mem_cons_of_mem _ hin

/-- What can be the extension of a file name. -/
structure IsExtension (e : String) : Prop where
  dot_free : '.' ∉ e.toList
  separator_free : '/' ∉ e.toList

theorem isExtension_of_extension? {e : String} (h : p.extension? = some e) : IsExtension e := by
  obtain ⟨name, hname, hextension⟩ := Option.bind_eq_some_iff.mp h
  unfold extensionOf? at hextension
  dsimp only at hextension
  split_ifs at hextension
  rw [← Option.some.inj hextension]
  constructor <;> rw [String.toList_ofList, List.mem_reverse]
  · intro hdot
    simpa using List.mem_takeWhile_imp hdot
  · intro hslash
    have hmem := (List.takeWhile_sublist _).mem hslash
    exact separator_free_of_fileName? hname (List.mem_reverse.mp hmem)

theorem extensionOf?_append {base suffix extension : String} (hbase : base ≠ "")
    (hsuffix : suffix.toList = '.' :: extension.toList) (hdot : '.' ∉ extension.toList) :
    extensionOf? (base ++ suffix) = some extension := by
  have htail : (extension.toList.reverse ++ '.' :: base.toList.reverse).takeWhile (· ≠ '.') =
      extension.toList.reverse := by
    rw [List.takeWhile_append_of_pos]
    · simp
    · intro c hc
      have hmem : c ∈ extension.toList := List.mem_reverse.1 hc
      have hne : c ≠ '.' := fun h => hdot (h ▸ hmem)
      simp [hne]
  have hlength : 0 < base.toList.length := by
    apply List.length_pos_iff.2
    intro h
    exact hbase (String.toList_eq_nil_iff.1 h)
  unfold extensionOf?
  simp only [String.toList_append, hsuffix, List.reverse_append, List.reverse_cons,
    List.append_assoc, List.singleton_append, htail]
  rw [if_pos]
  · rw [List.reverse_reverse, String.ofList_toList]
  · simp only [List.length_append, List.length_reverse, List.length_cons]
    omega

theorem place_name (h : IsName name) : place ⟨name⟩ = [.name name] := by
  have hjoin : join ⟨""⟩ ⟨name⟩ = ⟨name⟩ := by
    unfold join
    rw [if_pos (by simp)]
  rw [← hjoin, place_join h]
  rfl

/-- Some file has a given extension. -/
theorem IsExtension.exists_path {e : String} (h : IsExtension e) :
    ∃ p : Path, p.extension? = some e := by
  have hname : IsName ("a." ++ e) := by
    constructor
    · intro heq
      simpa using congrArg String.toList heq
    · intro heq
      simpa using congrArg String.toList heq
    · intro heq
      simpa using congrArg String.toList heq
    · simpa using h.separator_free
  refine ⟨⟨"a." ++ e⟩, ?_⟩
  unfold extension? fileName?
  rw [place_name hname]
  change extensionOf? ("a." ++ e) = some e
  rw [show "a." ++ e = "a" ++ ("." ++ e) by rw [← String.append_assoc]; rfl]
  exact extensionOf?_append (by decide) (by simp) h.dot_free

/-! ## Absolute and relative paths -/

theorem isAbsolute_down (hp : p.isAbsolute) (names : List String) :
    (p.down names).isAbsolute := by
  induction names generalizing p with
  | nil => exact hp
  | cons name names ih =>
      rw [down_cons]
      apply ih
      by_cases hname : isAbsolute ⟨name⟩
      · unfold join
        rwa [if_pos (by simp [hname])]
      · rw [isAbsolute_join (spelling_ne_empty hp) (Bool.not_eq_true _ ▸ hname)]
        exact hp

/-- The place of an absolute path starts at the root, and no other one does. -/
theorem head?_place (p : Path) : p.place.head? = some .root ↔ p.isAbsolute := by
  have hpiece : ∀ piece, ofPiece piece ≠ some .root := by
    intro piece
    unfold ofPiece
    split_ifs <;> simp
  obtain ⟨first, rest, -, hplace⟩ := exists_pieces p
  rw [hplace]
  constructor
  · intro h
    by_contra habsolute
    rw [if_neg habsolute] at h
    have hmem := List.mem_of_mem_head? h
    split_ifs at hmem
    all_goals
      rcases List.mem_append.mp hmem with hfirst | hrest
    · simp at hfirst
    · obtain ⟨piece, -, hroot⟩ := List.mem_filterMap.mp hrest
      exact hpiece piece hroot
    · exact hpiece first (Option.mem_toList.mp hfirst)
    · obtain ⟨piece, -, hroot⟩ := List.mem_filterMap.mp hrest
      exact hpiece piece hroot
  · intro habsolute
    rw [if_pos habsolute]
    rfl

/-- Only the empty text leads nowhere at all. -/
theorem place_ne_nil (hp : p.spelling ≠ "") : p.place ≠ [] := by
  by_cases habsolute : p.isAbsolute
  · intro hnil
    have hhead := (head?_place p).mpr habsolute
    rw [hnil] at hhead
    cases hhead
  · obtain ⟨first, rest, hpieces, hplace⟩ := exists_pieces p
    have hfirst : first ≠ "" := by
      rintro rfl
      have hne : p.spelling.toList ≠ [] := fun hnil => hp (by rw [← String.toList_inj, hnil]; rfl)
      obtain ⟨c, cs, hcs⟩ := List.exists_cons_of_ne_nil hne
      have hc : c ≠ '/' := by
        rintro rfl
        exact habsolute (by simp [isAbsolute, hcs])
      unfold pieces at hpieces
      rw [hcs, List.splitOn_eq_splitOnP, List.splitOnP_cons_eq_if_modifyHead,
        if_neg (by simpa using hc)] at hpieces
      cases hrest : cs.splitOnP (· == '/') with
      | nil => exact List.splitOnP_ne_nil _ cs hrest
      | cons piece pieces =>
          rw [hrest, List.modifyHead_cons, List.map_cons] at hpieces
          have hempty := congrArg String.toList (List.cons.inj hpieces).1
          simp at hempty
    rw [hplace, if_neg habsolute]
    split_ifs with hhere
    · simp
    · unfold ofPiece
      split_ifs <;> simp_all

/-- A folder around a path is absolute just when the path is. -/
theorem isAbsolute_of_prefix {q : Path} (hp : p.spelling ≠ "") (h : p.place <+: q.place) :
    p.isAbsolute = q.isAbsolute := by
  obtain ⟨c, rest, hplace⟩ := List.exists_cons_of_ne_nil (place_ne_nil hp)
  obtain ⟨below, hbelow⟩ := h
  rw [Bool.eq_iff_iff, ← head?_place, ← head?_place, ← hbelow, hplace]
  rfl

end Path

end SymbolAtlas
