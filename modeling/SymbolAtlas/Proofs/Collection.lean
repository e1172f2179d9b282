import Mathlib.Algebra.GroupWithZero.Nat
import SymbolAtlas.Collection
import SymbolAtlas.Proofs.Symbol.Coding

/-!
# Decoding collections

A written collection is decoded to the same symbols of the same projects and to the same errors,
from its text, compact or pretty, and from its tidied value. The map of the projects need not be
the same tree.
-/

namespace SymbolAtlas

open Json

/-- Two collections have the same symbols, project by project, and the same errors. -/
structure Collection.Equiv (a b : Collection) : Prop where
  projects : a.projects.Equiv b.projects
  errors : a.errors = b.errors

theorem Collection.Equiv.refl (a : Collection) : a.Equiv a := ⟨.rfl, rfl⟩

namespace CollectionError

theorem decodes (e : CollectionError) : Decodes ofJson? e.toJson e := by
  obtain ⟨project, file, message⟩ := e
  apply decodes_record
  · cases file <;> simp [optionalField]
  · simp only [List.forall_mem_append, List.forall_mem_cons]
    exact ⟨⟨⟨(decodes_text project).arrives, by simp⟩, arrives_optionalField Path.decodes⟩,
      (decodes_text message).arrives, by simp⟩
  · intro route seen hseen
    have hfile := optional_of_decodes rfl Path.decodes file route
    rw [ofJson?, slots_eq_lookup hseen.nodup]
    simp only [hseen.lookup, List.map_cons, List.map_nil, List.lookup_append, lookup_field,
      lookup_optionalField, List.lookup_nil, String.reduceEq, reduceIte, Option.none_or,
      Option.or_none]
    simp only [Option.bind_eq_bind, Option.bind_some, (decodes_text project).required, hfile,
      (decodes_text message).required]
    rfl

theorem fits (e : CollectionError) (depth : Nat) : Fits (depth + 1) e.toJson := by
  apply fits_record.2
  simp only [List.forall_mem_append, List.forall_mem_cons]
  exact ⟨⟨⟨fits_text _ _, by simp⟩, fits_optionalField fun p => fits_text _ p.spelling⟩,
    fits_text _ _, by simp⟩

end CollectionError

/-! ## Projects -/

theorem mapM_eq_map {α β : Type} {read : α → Option β} {f : α → β} {l : List α}
    (h : ∀ a ∈ l, read a = some (f a)) : l.mapM read = some (l.map f) := by
  induction l with
  | nil => rfl
  | cons a l ih =>
      rw [List.forall_mem_cons] at h
      rw [List.mapM_cons, h.1, ih h.2]
      rfl

theorem lookup_map_snd {β γ : Type} (f : β → γ) (l : List (String × β)) (k : String) :
    (l.map fun e => (e.1, f e.2)).lookup k = (l.lookup k).map f := by
  induction l with
  | nil => rfl
  | cons e l ih =>
      rw [List.map_cons, List.lookup_cons, List.lookup_cons, ih]
      cases k == e.1 <;> rfl

namespace Collection

def symbolsToJson (symbols : List Symbol) : Json := .list (symbols.map Symbol.toJson)

def projectsToJson (projects : Std.TreeMap String (List Symbol)) : List (String × Json) :=
  projects.toList.map fun e => (e.1, symbolsToJson e.2)

variable (projects : Std.TreeMap String (List Symbol))

theorem decodes_symbols (symbols : List Symbol) :
    Decodes (asList Symbol.ofJson?) (symbolsToJson symbols) symbols :=
  decodes_list fun s _ => s.decodes

theorem lookup_projectsToJson (name : String) :
    (projectsToJson projects).lookup name = projects[name]?.map symbolsToJson := by
  unfold projectsToJson
  rw [lookup_map_snd, lookup_toList]

theorem nodup_projectsToJson : ((projectsToJson projects).map Prod.fst).Nodup := by
  have hnames : (projectsToJson projects).map Prod.fst = projects.toList.map Prod.fst := by
    unfold projectsToJson
    rw [List.map_map]
    rfl
  rw [hnames]
  exact nodup_keys_toList projects

theorem arrives_projectsToJson : ∀ f ∈ projectsToJson projects, f.2.Arrives := by
  intro f hf
  obtain ⟨⟨name, symbols⟩, -, rfl⟩ := List.mem_map.1 hf
  exact (decodes_symbols symbols).arrives

section Seen

variable {route : Route} {seen : List (String × Json)}
  (hseen : Seen (projectsToJson projects) route seen)

include hseen

/-- What comes under the name of a project is decoded to its symbols. -/
theorem decode_of_mem {name : String} {t : Json} (ht : (name, t) ∈ seen) :
    ∃ symbols, projects[name]? = some symbols ∧ asList Symbol.ofJson? t = some symbols := by
  have hlookup := (lookup_eq_some_iff_mem hseen.nodup).2 ht
  rw [hseen.lookup, lookup_projectsToJson] at hlookup
  cases hname : projects[name]? with
  | none =>
      rw [hname] at hlookup
      exact absurd hlookup (by simp)
  | some symbols =>
      obtain ⟨u, hu, hdecode⟩ := decodes_symbols symbols route
      rw [hname, Option.map_some, Option.bind_some, hu] at hlookup
      obtain rfl := Option.some.inj hlookup
      exact ⟨symbols, rfl, hdecode⟩

theorem mem_of_getElem? {name : String} {symbols : List Symbol}
    (h : projects[name]? = some symbols) : ∃ t, (name, t) ∈ seen := by
  obtain ⟨u, hu, -⟩ := decodes_symbols symbols route
  refine ⟨u, (lookup_eq_some_iff_mem hseen.nodup).1 ?_⟩
  rw [hseen.lookup, lookup_projectsToJson, h, Option.map_some, Option.bind_some, hu]

theorem projectsOfJson?_seen :
    ∃ found, projectsOfJson? (.record seen) = some found ∧ found.Equiv projects := by
  let entry (f : String × Json) : String × List Symbol := (f.1, (projects[f.1]?).getD [])
  have hread : seen.mapM (fun f => do return (f.1, ← asList Symbol.ofJson? f.2)) =
      some (seen.map entry) := by
    apply mapM_eq_map
    rintro ⟨name, t⟩ hmem
    obtain ⟨symbols, hsymbols, hdecode⟩ := decode_of_mem projects hseen hmem
    simp [entry, hsymbols, hdecode]
  refine ⟨(seen.map entry).foldl (fun m e => m.insert e.1 e.2) {}, ?_, ?_⟩
  · let table (entries : List (String × List Symbol)) : Std.TreeMap String (List Symbol) :=
      entries.foldl (fun m e => m.insert e.1 e.2) {}
    exact congrArg (Option.bind · fun entries => some (table entries)) hread
  · apply Std.TreeMap.Equiv.of_forall_constGet?_eq
    intro name
    have hnodup : ((seen.map entry).map Prod.fst).Nodup := by
      rw [List.map_map]
      exact hseen.nodup
    apply Option.ext
    intro symbols
    rw [getElem?_foldl_insert hnodup, List.mem_map]
    constructor
    · rintro ⟨⟨name', t⟩, hmem, heq⟩
      obtain ⟨rfl, rfl⟩ := Prod.mk.inj heq
      obtain ⟨symbols, hsymbols, -⟩ := decode_of_mem projects hseen hmem
      rw [hsymbols]
      rfl
    · intro h
      obtain ⟨t, ht⟩ := mem_of_getElem? projects hseen h
      exact ⟨(name, t), ht, by simp [entry, h]⟩

end Seen

/-! ## Collections -/

theorem toJson_eq (c : Collection) : c.toJson = .record
    [("projects", .record (projectsToJson c.projects)),
      ("errors", .list (c.errors.map CollectionError.toJson))] := rfl

/-- The projects are decoded to the same symbols. The tree of the map depends on the route. -/
theorem decodes_projects (route : Route) :
    ∃ t found, along (.record (projectsToJson projects)) route = some t ∧
      projectsOfJson? t = some found ∧ found.Equiv projects := by
  obtain ⟨seen, hrecord, hseen⟩ := along_record (nodup_projectsToJson projects)
    (arrives_projectsToJson projects) route
  obtain ⟨found, hfound, hequiv⟩ := projectsOfJson?_seen projects hseen
  exact ⟨.record seen, found, hrecord, hfound, hequiv⟩

/-- A written collection is decoded to an equivalent one on every route. -/
theorem decodes (c : Collection) (route : Route) :
    ∃ t found, c.toJson.along route = some t ∧ ofJson? t = some found ∧ found.Equiv c := by
  obtain ⟨t, projects, ht, hread, hequiv⟩ := decodes_projects c.projects route
  have hprojects : defaulted {} projectsOfJson?
      ((Json.record (projectsToJson c.projects)).along route) = some projects := by
    rw [ht]
    exact hread
  have harrives : Arrives (.record (projectsToJson c.projects)) := by
    intro route
    obtain ⟨t, -, ht, -⟩ := decodes_projects c.projects route
    exact ⟨t, ht⟩
  have herrors := decodes_list fun e (_ : e ∈ c.errors) => e.decodes
  have hnodup : ([("projects", Json.record (projectsToJson c.projects)),
      ("errors", Json.list (c.errors.map CollectionError.toJson))].map Prod.fst).Nodup := by simp
  obtain ⟨seen, hrecord, hseen⟩ := along_record hnodup
    (List.forall_mem_cons.2 ⟨harrives, List.forall_mem_singleton.2 herrors.arrives⟩) route
  refine ⟨.record seen, ⟨projects, c.errors⟩, hrecord, ?_, hequiv, rfl⟩
  rw [ofJson?, slots_eq_lookup hseen.nodup]
  simp only [hseen.lookup, List.map_cons, List.map_nil, lookup_field, String.reduceEq, reduceIte]
  simp only [Option.bind_eq_bind, Option.bind_some, hprojects, herrors.defaulted]
  rfl

theorem fits (c : Collection) (depth : Nat) : Fits (depth + 7) c.toJson := by
  have hprojects : Fits (depth + 6) (.record (projectsToJson c.projects)) := by
    apply fits_record.2
    intro f hf
    obtain ⟨⟨name, symbols⟩, -, rfl⟩ := List.mem_map.1 hf
    apply fits_list.2
    intro j hj
    obtain ⟨s, -, rfl⟩ := List.mem_map.1 hj
    exact s.fits depth
  have herrors : Fits (depth + 6) (.list (c.errors.map CollectionError.toJson)) := by
    apply fits_list.2
    intro j hj
    obtain ⟨e, -, rfl⟩ := List.mem_map.1 hj
    exact e.fits (depth + 4)
  rw [toJson_eq]
  apply fits_record.2
  simp only [List.forall_mem_cons]
  exact ⟨hprojects, herrors, by simp⟩

/-! ## Written and read back -/

/-- The forms in which a collection is written. -/
inductive Form where
  | compact
  | pretty
  | value

def ofText? (text : String) : Option Collection := (Json.parse text).bind ofJson?

/-- What is read from a written collection. -/
def reload? (c : Collection) : Form → Option Collection
  | .compact => ofText? c.toJson.compact
  | .pretty => ofText? c.toJson.pretty
  | .value => c.toJson.tidy?.bind ofJson?

/-- Everything that a collection holds. -/
def contents (c : Collection) : List (String × List Symbol) × List CollectionError :=
  (c.projects.toList, c.errors)

theorem exists_reload? (c : Collection) (form : Form) :
    ∃ found, c.reload? form = some found ∧ found.Equiv c := by
  have hfits : Fits maxDepth c.toJson := c.fits 120
  cases form with
  | compact =>
      obtain ⟨t, found, ht, hfound, hequiv⟩ := c.decodes .plain
      obtain rfl := Option.some.inj ht
      exact ⟨found, by rw [reload?, ofText?, parse_compact hfits, Option.bind_some, hfound], hequiv⟩
  | pretty =>
      obtain ⟨t, found, ht, hfound, hequiv⟩ := c.decodes .plain
      obtain rfl := Option.some.inj ht
      exact ⟨found, by rw [reload?, ofText?, parse_pretty hfits, Option.bind_some, hfound], hequiv⟩
  | value =>
      obtain ⟨t, found, ht, hfound, hequiv⟩ := c.decodes .tidied
      rw [along] at ht
      exact ⟨found, by rw [reload?, ht, Option.bind_some, hfound], hequiv⟩

theorem size_eq_sum (c : Collection) :
    c.size = (c.projects.toList.map fun e => e.2.length).sum := by
  unfold size symbols
  rw [List.length_flatMap]

/-- A collection that is written in any form is read back with every field of its symbols and
errors, and whatever is read from a text is read back from its own written forms. -/
theorem reload_restores :
    (∀ (c : Collection) (form : Form), ∃ found, c.reload? form = some found ∧
      found.projects.toList = c.projects.toList ∧ found.errors = c.errors ∧
      found.size = (c.projects.toList.map fun e => e.2.length).sum) ∧
    ∀ (text : String) (form : Form),
      ((ofText? text).bind fun c => c.reload? form).map contents =
        (ofText? text).map contents := by
  constructor
  · intro c form
    obtain ⟨found, hfound, hequiv⟩ := c.exists_reload? form
    have hlist := Std.TreeMap.equiv_iff_toList_eq.1 hequiv.projects
    exact ⟨found, hfound, hlist, hequiv.errors, by rw [size_eq_sum, hlist]⟩
  · intro text form
    cases ofText? text with
    | none => rfl
    | some c =>
        obtain ⟨found, hfound, hequiv⟩ := c.exists_reload? form
        rw [Option.bind_some, hfound, Option.map_some, Option.map_some, contents, contents,
          Std.TreeMap.equiv_iff_toList_eq.1 hequiv.projects, hequiv.errors]

end Collection

end SymbolAtlas
