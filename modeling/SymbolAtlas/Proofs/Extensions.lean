import SymbolAtlas.Proofs.Files.Listing
import SymbolAtlas.Proofs.Path
import SymbolAtlas.Proofs.Scanner

/-!
# Which files are watched

Collection takes the dots off the extensions of a configuration and watching does not. Every file
that is watched is a source file, but a source file is not watched if all that stands for its
extension in the configuration is written with a dot.
-/

namespace SymbolAtlas

namespace Text

/-- What comes before the letters is the lowercase form of nothing else. -/
theorem toLower_eq_iff {c d : Char} (hd : d < 'A') : c.toLower = d ↔ c = d := by
  have hbelow : d.val.toNat < 65 := hd
  unfold Char.toLower
  split_ifs with hupper
  · have hlow : 65 ≤ c.val.toNat := hupper.1
    have hhigh : c.val.toNat ≤ 90 := hupper.2
    have hlower : (c.val + ('a'.val - 'A'.val)).toNat = c.val.toNat + 32 := by
      rw [UInt32.toNat_add]
      change (c.val.toNat + 32) % 4294967296 = _
      omega
    refine iff_of_false (fun heq => ?_) (fun heq => ?_)
    · rw [← heq] at hbelow
      dsimp only at hbelow
      omega
    · rw [← heq] at hbelow
      omega
  · rfl

theorem toList_asciiLowercase (s : String) :
    (asciiLowercase s).toList = s.toList.map Char.toLower := String.toList_map

theorem mem_asciiLowercase {s : String} {d : Char} (hd : d < 'A') :
    d ∈ (asciiLowercase s).toList ↔ d ∈ s.toList := by
  rw [toList_asciiLowercase, List.mem_map]
  simp only [toLower_eq_iff hd, exists_eq_right]

end Text

theorem Path.isExtension_asciiLowercase {e : String} :
    IsExtension (Text.asciiLowercase e) ↔ IsExtension e := by
  have hdot := Text.mem_asciiLowercase (s := e) (show '.' < 'A' by decide)
  have hslash := Text.mem_asciiLowercase (s := e) (show '/' < 'A' by decide)
  exact ⟨fun h => ⟨hdot.not.mp h.dot_free, hslash.not.mp h.separator_free⟩,
    fun h => ⟨hdot.not.mpr h.dot_free, hslash.not.mpr h.separator_free⟩⟩

namespace Extensions

/-- Whether an extension is written with its dot. -/
def Dotted (x : String) : Prop := x.toList.head? = some '.'

instance (x : String) : Decidable (Dotted x) := inferInstanceAs (Decidable (_ = _))

variable {extensions : List String} {p : Path} {x e : String}

theorem plain_of_not_dotted (h : ¬ Dotted x) : plain x = Text.asciiLowercase x := by
  have hdrop : x.toList.dropWhile (· = '.') = x.toList := by
    unfold Dotted at h
    cases hx : x.toList with
    | nil => rfl
    | cons c rest =>
        rw [hx] at h
        refine List.dropWhile_cons_of_neg ?_
        simpa using h
  unfold plain
  rw [hdrop, String.ofList_toList]

/-- An extension of a file is never written with a dot. -/
theorem not_dotted (he : Path.IsExtension e) (h : Text.asciiLowercase x = Text.asciiLowercase e) :
    ¬ Dotted x := by
  intro hx
  rw [← Path.isExtension_asciiLowercase, ← h, Path.isExtension_asciiLowercase] at he
  exact he.dot_free (List.mem_of_head? hx)

theorem lists_iff : lists extensions p = true ↔
    ∃ e, p.extension? = some e ∧ Text.asciiLowercase e ∈ extensions := by
  unfold lists
  cases p.extension? <;> simp

theorem watch_iff : watch extensions p = true ↔
    ∃ e, p.extension? = some e ∧
      ∃ x ∈ extensions, Text.asciiLowercase x = Text.asciiLowercase e := by
  unfold watch
  cases p.extension? <;> simp

/-- What is watched is listed. -/
theorem lists_of_watch (h : watch extensions p = true) :
    lists (extensions.map plain) p = true := by
  obtain ⟨e, he, x, hx, heq⟩ := watch_iff.mp h
  have hplain := plain_of_not_dotted (not_dotted (Path.isExtension_of_extension? he) heq)
  rw [lists_iff]
  exact ⟨e, he, List.mem_map.mpr ⟨x, hx, hplain.trans heq⟩⟩

/-- What is listed and not watched has an extension that is only written with its dot. -/
theorem lists_and_not_watch_iff :
    lists (extensions.map plain) p = true ∧ watch extensions p = false ↔
      ∃ e, p.extension? = some e ∧
        (∃ x ∈ extensions, Dotted x ∧ plain x = Text.asciiLowercase e) ∧
        ∀ x ∈ extensions, Text.asciiLowercase x ≠ Text.asciiLowercase e := by
  rw [← Bool.not_eq_true, watch_iff, lists_iff]
  constructor
  · rintro ⟨⟨e, he, hmem⟩, hnot⟩
    have hnone : ∀ x ∈ extensions, Text.asciiLowercase x ≠ Text.asciiLowercase e :=
      fun x hx heq => hnot ⟨e, he, x, hx, heq⟩
    obtain ⟨x, hx, hplain⟩ := List.mem_map.mp hmem
    refine ⟨e, he, ⟨x, hx, ?_, hplain⟩, hnone⟩
    by_contra hdotted
    exact hnone x hx ((plain_of_not_dotted hdotted).symm.trans hplain)
  · rintro ⟨e, he, ⟨x, hx, -, hplain⟩, hnone⟩
    refine ⟨⟨e, he, List.mem_map.mpr ⟨x, hx, hplain⟩⟩, ?_⟩
    rintro ⟨e', he', x', hx', heq⟩
    rw [he, Option.some.injEq] at he'
    subst he'
    exact hnone x' hx' heq

/-- All files that are listed are watched just when each extension that is written with a dot, and
that a file can have, is written without it too. -/
theorem watch_eq_lists_iff :
    (∀ p, watch extensions p = lists (extensions.map plain) p) ↔
      ∀ x ∈ extensions, Dotted x → Path.IsExtension (plain x) →
        ∃ y ∈ extensions, Text.asciiLowercase y = plain x := by
  constructor
  · intro h x hx _ hextension
    -- A file whose extension is this one without its dots, in the letter case in which it stands.
    obtain ⟨e, hplain⟩ : ∃ e, plain x = Text.asciiLowercase e := ⟨_, rfl⟩
    rw [hplain, Path.isExtension_asciiLowercase] at hextension
    obtain ⟨p, hp⟩ := hextension.exists_path
    have hwatch : watch extensions p = true := by
      rw [h p, lists_iff]
      exact ⟨e, hp, List.mem_map.mpr ⟨x, hx, hplain⟩⟩
    obtain ⟨e', he', y, hy, heq⟩ := watch_iff.mp hwatch
    rw [hp, Option.some.injEq] at he'
    rw [← he', ← hplain] at heq
    exact ⟨y, hy, heq⟩
  · intro h p
    rw [Bool.eq_iff_iff]
    refine ⟨lists_of_watch, fun hlists => ?_⟩
    by_contra hwatch
    rw [Bool.not_eq_true] at hwatch
    obtain ⟨e, he, ⟨x, hx, hdotted, hplain⟩, hnone⟩ :=
      lists_and_not_watch_iff.mp ⟨hlists, hwatch⟩
    have hextension : Path.IsExtension (plain x) := by
      rw [hplain, Path.isExtension_asciiLowercase]
      exact Path.isExtension_of_extension? he
    obtain ⟨y, hy, heq⟩ := h x hx hdotted hextension
    exact hnone y hy (heq.trans hplain)

end Extensions

namespace Config

/-- A source file is watched unless its extension is only configured with a dot. A configuration
takes the same files for sources as it parses, those of its extensions, and lists no others for any
project. All files that are watched are among them. A source file is not watched just when some
configured extension is that of the file but for letter case and leading dots, and none but for
letter case alone. So every source file is watched if and only if each extension that is written
with a dot, and that a file can have, is configured without the dot too. -/
theorem watch_eq_isSource_iff (c : Config) (t : FileTree) :
    let s := c.sources t
    let extensions := c.collector.extensions
    let watched := Extensions.watch c.watcherSettings.extensions
    (∀ p, s.supports p = s.isSource p) ∧
    (∀ project files, s.list project = .ok files → ∀ p ∈ files, s.isSource p = true) ∧
    (∀ p, watched p = true → s.isSource p = true) ∧
    (∀ p, s.isSource p = true ∧ watched p = false ↔ ∃ e, p.extension? = some e ∧
      (∃ x ∈ extensions, Extensions.Dotted x ∧ Extensions.plain x = Text.asciiLowercase e) ∧
      ∀ x ∈ extensions, Text.asciiLowercase x ≠ Text.asciiLowercase e) ∧
    ((∀ p, watched p = s.isSource p) ↔
      ∀ x ∈ extensions, Extensions.Dotted x → Path.IsExtension (Extensions.plain x) →
        ∃ y ∈ extensions, Text.asciiLowercase y = Extensions.plain x) := by
  intro s extensions watched
  refine ⟨fun _ => rfl, fun project files hlist p hp => ?_, fun _ => Extensions.lists_of_watch,
    fun _ => Extensions.lists_and_not_watch_iff, Extensions.watch_eq_lists_iff⟩
  have hrules := list_sources.mp hlist
  obtain ⟨start, hresolve, -⟩ := SourceRules.exists_folder_of_list hrules
  obtain ⟨-, -, -, hsource, -⟩ := (SourceRules.mem_list hrules hresolve).mp hp
  exact hsource

/-- A file whose extension is configured with a dot is listed and parsed, but not watched. -/
theorem watch_ne_isSource_of_dot :
    let c : Config := { collector := { extensions := [".SYM"] } }
    let s := c.sources {}
    s.supports ⟨"r/a.sym"⟩ = true ∧ s.isSource ⟨"r/a.sym"⟩ = true ∧
      Extensions.watch c.watcherSettings.extensions ⟨"r/a.sym"⟩ = false := by
  intro c s
  have hplain : Extensions.plain ".SYM" = Text.asciiLowercase "sym" := by
    unfold Extensions.plain
    rw [← String.toList_inj, Text.toList_asciiLowercase, Text.toList_asciiLowercase]
    decide
  have hkept : Text.asciiLowercase ".SYM" ≠ Text.asciiLowercase "sym" := by
    rw [ne_eq, ← String.toList_inj, Text.toList_asciiLowercase, Text.toList_asciiLowercase]
    decide
  obtain ⟨hsupports, -, -, hunwatched, -⟩ := watch_eq_isSource_iff c {}
  obtain ⟨hsource, hwatch⟩ := (hunwatched ⟨"r/a.sym"⟩).mpr
    ⟨"sym", by decide +kernel, ⟨".SYM", List.mem_singleton_self _, by decide, hplain⟩,
      fun x hx => by rwa [List.mem_singleton.mp hx]⟩
  exact ⟨(hsupports _).trans hsource, hsource, hwatch⟩

end Config

end SymbolAtlas
