import Mathlib.Data.List.Nodup
import SymbolAtlas.Collect

/-!
# What files declare

The symbols that collecting yields are those that the files declare, file by file.
-/

namespace SymbolAtlas

/-- What comes of a list of which only one member yields anything. -/
theorem flatMap_eq_of_forall_ne {α β : Type} {l : List α} (hl : l.Nodup) {a : α} (ha : a ∈ l)
    {f : α → List β} (h : ∀ b ∈ l, b ≠ a → f b = []) : l.flatMap f = f a := by
  induction l with
  | nil => simp at ha
  | cons b rest ih =>
      obtain ⟨hb, hrest⟩ := List.nodup_cons.mp hl
      rw [List.flatMap_cons]
      rcases List.mem_cons.mp ha with rfl | hin
      · have hnone : rest.flatMap f = [] := by
          rw [List.flatMap_eq_nil_iff]
          intro c hc
          apply h c (List.mem_cons_of_mem a hc)
          rintro rfl
          exact hb hc
        rw [hnone, List.append_nil]
      · have hne : b ≠ a := by
          rintro rfl
          exact hb hin
        rw [h b (by simp) hne, List.nil_append]
        exact ih hrest hin fun c hc => h c (List.mem_cons_of_mem b hc)

namespace Sources

/-- The symbols of a file that can be parsed for a project, none otherwise. -/
def parsed (s : Sources) (project : String) (p : Path) : List Symbol :=
  match s.parse p project with
  | .ok symbols => symbols
  | .error _ => []

/-- The symbols that a path declares for a project: those of an existing and supported file that
can be parsed, none otherwise. -/
def declared (s : Sources) (project : String) (p : Path) : List Symbol :=
  if s.isFile p && s.supports p then s.parsed project p else []

/-- Whether every symbol of a parsed file is one of this file. -/
def Attributes (s : Sources) : Prop :=
  ∀ p project symbols, s.parse p project = .ok symbols →
    ∀ t ∈ symbols, t.file.place = p.place

end Sources

namespace Outcome

theorem symbols_ofFile (s : Sources) (project : String) (p : Path) :
    (ofFile s project p).symbols = s.parsed project p := by
  unfold ofFile Sources.parsed
  cases s.parse p project <;> rfl

theorem symbols_ofFiles (s : Sources) (project : String) (files : List Path) :
    (ofFiles s project files).symbols = files.flatMap (s.parsed project) := by
  induction files with
  | nil => rfl
  | cons p rest ih =>
      have hcons : (ofFiles s project (p :: rest)).symbols =
          (ofFile s project p).symbols ++ (ofFiles s project rest).symbols := rfl
      rw [hcons, symbols_ofFile, ih, List.flatMap_cons]

end Outcome

namespace Sources

variable {s : Sources}

theorem symbols_collectFiles (s : Sources) (project : String) (files : List Path) :
    (s.collectFiles project files).symbols = files.flatMap (s.declared project) := by
  rw [collectFiles, Outcome.symbols_ofFiles]
  induction files with
  | nil => rfl
  | cons p rest ih =>
      rw [List.flatMap_cons, ← ih, List.filter_cons, declared]
      split_ifs <;> simp

theorem Attributes.of_mem_declared (h : s.Attributes) {project : String} {p : Path} {t : Symbol}
    (ht : t ∈ s.declared project p) : t.file.place = p.place := by
  unfold declared parsed at ht
  split_ifs at ht
  · split at ht
    · next symbols hparse => exact h p project symbols hparse t ht
    · simp at ht
  · simp at ht

/-- Of some files, only the one that stands at a place declares symbols there. -/
theorem Attributes.filter_flatMap_declared (h : s.Attributes) {project : String}
    {files : List Path} (hfiles : (files.map Path.place).Nodup) {p : Path} (hp : p ∈ files) :
    (files.flatMap (s.declared project)).filter (fun t => t.file.place = p.place) =
      s.declared project p := by
  rw [List.filter_flatMap, flatMap_eq_of_forall_ne (List.Nodup.of_map _ hfiles) hp]
  · rw [List.filter_eq_self]
    intro t ht
    exact decide_eq_true (h.of_mem_declared ht)
  · intro q hq hqp
    rw [List.filter_eq_nil_iff]
    intro t ht heq
    have hplaces : q.place = p.place := by
      rw [← h.of_mem_declared ht]
      exact of_decide_eq_true heq
    exact hqp (List.inj_on_of_nodup_map hfiles hq hp hplaces)

theorem Attributes.of_mem_flatMap_declared (h : s.Attributes) {project : String}
    {files : List Path} {t : Symbol} (ht : t ∈ files.flatMap (s.declared project)) :
    t.file.place ∈ files.map Path.place := by
  obtain ⟨p, hp, hdeclared⟩ := List.mem_flatMap.mp ht
  rw [h.of_mem_declared hdeclared]
  exact List.mem_map_of_mem hp

theorem Attributes.filter_flatMap_declared_of_not_mem (h : s.Attributes) {project : String}
    {files : List Path} {k : Place} (hk : k ∉ files.map Path.place) :
    (files.flatMap (s.declared project)).filter (fun t => t.file.place = k) = [] := by
  rw [List.filter_eq_nil_iff]
  intro t ht heq
  apply hk
  rw [← of_decide_eq_true heq]
  exact h.of_mem_flatMap_declared ht

/-- The symbols of a listed project, all of whose files are there. -/
theorem symbols_collectProject {p : Project} {files : List Path} (hlist : s.list p = .ok files)
    (hfiles : ∀ f ∈ files, s.isFile f) :
    (s.collectProject p).symbols = files.flatMap (s.declared p.name) := by
  unfold collectProject
  rw [hlist]
  dsimp only
  rw [Outcome.symbols_ofFiles]
  clear hlist
  induction files with
  | nil => rfl
  | cons f rest ih =>
      have hrest := ih fun f' hf' => hfiles f' (List.mem_cons_of_mem f hf')
      have hfile := hfiles f (by simp)
      rw [List.flatMap_cons, ← hrest, List.filter_cons, declared, hfile, Bool.true_and]
      split_ifs <;> simp

end Sources

end SymbolAtlas
