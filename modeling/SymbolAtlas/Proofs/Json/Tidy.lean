import Mathlib.Algebra.Group.Nat.Defs
import Mathlib.Data.List.Forall2
import Mathlib.Data.List.Nodup
import SymbolAtlas.Cache.Record
import SymbolAtlas.Proofs.Json.RoundTrip
import SymbolAtlas.Proofs.TreeMap

/-!
# Tidied values

A value that is tidied once is tidy and is nested no deeper than before. A decoder is given a
written value as it is, or tidied; where no two fields of a record have one name, tidying only
puts the fields in another order, which decoders do not see.
-/

namespace SymbolAtlas.Json

/-! ## Fields -/

theorem tidyFields?_cons {name : String} {j : Json} {fields : List (String × Json)}
    {m : Std.TreeMap String Json} (h : tidyFields? ((name, j) :: fields) = some m) :
    ∃ t rest, j.tidy? = some t ∧ tidyFields? fields = some rest ∧
      m = rest.insertIfNew name t := by
  rw [tidyFields?] at h
  obtain ⟨t, ht, h⟩ := Option.bind_eq_some_iff.1 h
  obtain ⟨rest, hrest, h⟩ := Option.bind_eq_some_iff.1 h
  exact ⟨t, rest, ht, hrest, (Option.some.inj h).symm⟩

/-- What is under a name after tidying was written under it. -/
theorem of_getElem?_tidyFields? {fields : List (String × Json)} {m : Std.TreeMap String Json}
    (h : tidyFields? fields = some m) {name : String} {t : Json} (ht : m[name]? = some t) :
    ∃ j, (name, j) ∈ fields ∧ j.tidy? = some t := by
  induction fields generalizing m with
  | nil =>
      rw [tidyFields?] at h
      obtain rfl := Option.some.inj h
      simp at ht
  | cons field fields ih =>
      obtain ⟨first, j⟩ := field
      obtain ⟨u, rest, hu, hrest, rfl⟩ := tidyFields?_cons h
      rw [Std.TreeMap.getElem?_insertIfNew] at ht
      split at ht
      · rename_i hnew
        obtain rfl := Option.some.inj ht
        have heq : first = name := Std.LawfulEqCmp.compare_eq_iff_eq.1 hnew.1
        exact ⟨j, heq ▸ List.mem_cons_self, hu⟩
      · obtain ⟨k, hk, htidy⟩ := ih hrest ht
        exact ⟨k, List.mem_cons_of_mem _ hk, htidy⟩

theorem tidyFields?_isSome {fields : List (String × Json)}
    (h : ∀ f ∈ fields, ∃ t, f.2.tidy? = some t) : ∃ m, tidyFields? fields = some m := by
  induction fields with
  | nil => exact ⟨{}, by rw [tidyFields?]⟩
  | cons field fields ih =>
      obtain ⟨name, j⟩ := field
      rw [List.forall_mem_cons] at h
      obtain ⟨t, ht⟩ := h.1
      obtain ⟨m, hm⟩ := ih h.2
      exact ⟨m.insertIfNew name t, by rw [tidyFields?, ht, hm]; rfl⟩

/-- Where no name is repeated, what is under a name is tidied in its place. -/
theorem getElem?_tidyFields? {fields : List (String × Json)} {m : Std.TreeMap String Json}
    (h : tidyFields? fields = some m) (hnodup : (fields.map Prod.fst).Nodup) (name : String) :
    m[name]? = (fields.lookup name).bind tidy? := by
  induction fields generalizing m with
  | nil =>
      obtain rfl : {} = m := Option.some.inj h
      simp
  | cons field fields ih =>
      obtain ⟨first, j⟩ := field
      obtain ⟨t, rest, ht, hrest, rfl⟩ := tidyFields?_cons h
      obtain ⟨hnew, hnodup⟩ := List.nodup_cons.1 hnodup
      rw [Std.TreeMap.getElem?_insertIfNew, List.lookup_cons]
      by_cases hname : name = first
      · subst hname
        have habsent : ¬ name ∈ rest := by
          intro hin
          obtain ⟨v, hv⟩ := Option.isSome_iff_exists.1 (Std.TreeMap.mem_iff_isSome_getElem?.1 hin)
          obtain ⟨i, hi, -⟩ := of_getElem?_tidyFields? hrest hv
          exact hnew (List.mem_map.2 ⟨_, hi, rfl⟩)
        rw [if_pos ⟨Std.ReflCmp.compare_self, habsent⟩, beq_self_eq_true]
        exact ht.symm
      · have hother : ¬ compare first name = .eq :=
          fun hc => hname (Std.LawfulEqCmp.compare_eq_iff_eq.1 hc).symm
        rw [if_neg fun hc => hother hc.1, ih hrest hnodup, beq_eq_false_iff_ne.2 hname]

/-! ## Tidy values stay as they are -/

/-- The fields of a map of tidy values are tidied to the same map. -/
theorem tidyFields?_toList {m : Std.TreeMap String Json}
    (h : ∀ (name : String) (t : Json), m[name]? = some t → t.tidy? = some t) :
    ∃ m', tidyFields? m.toList = some m' ∧ m'.toList = m.toList := by
  have htidy : ∀ f ∈ m.toList, ∃ t, f.2.tidy? = some t := by
    rintro ⟨name, t⟩ hmem
    exact ⟨t, h name t (Std.TreeMap.mem_toList_iff_getElem?_eq_some.1 hmem)⟩
  obtain ⟨m', hm'⟩ := tidyFields?_isSome htidy
  refine ⟨m', hm', Std.TreeMap.equiv_iff_toList_eq.1 (.of_forall_constGet?_eq fun name => ?_)⟩
  rw [getElem?_tidyFields? hm' (nodup_keys_toList m), lookup_toList]
  cases hname : m[name]? with
  | none => rfl
  | some t => exact h name t hname

mutual

/-- What was tidied is tidy. -/
theorem tidy?_of_tidied : ∀ {j t : Json}, j.tidy? = some t → t.tidy? = some t
  | .null, t, h => by
      obtain rfl : Json.null = t := Option.some.inj h
      exact h
  | .bool b, t, h => by
      obtain rfl : Json.bool b = t := Option.some.inj h
      exact h
  | .text s, t, h => by
      obtain rfl : Json.text s = t := Option.some.inj h
      exact h
  | .number n, t, h => by
      rw [tidy?] at h
      split at h
      · rename_i hn
        obtain rfl := Option.some.inj h
        rw [tidy?, if_pos hn]
      · exact absurd h (by simp)
  | .list items, t, h => by
      rw [tidy?] at h
      obtain ⟨ts, hts, rfl⟩ := Option.map_eq_some_iff.1 h
      rw [tidy?, tidyItems?_of_tidied hts]
      rfl
  | .record fields, t, h => by
      rw [tidy?] at h
      obtain ⟨m, hm, rfl⟩ := Option.map_eq_some_iff.1 h
      obtain ⟨m', hm', heq⟩ := tidyFields?_toList (tidy?_of_mem_tidied hm)
      rw [tidy?, hm', Option.map_some, heq]

theorem tidyItems?_of_tidied : ∀ {items ts : List Json}, tidyItems? items = some ts →
    tidyItems? ts = some ts
  | [], ts, h => by
      obtain rfl : [] = ts := Option.some.inj h
      rfl
  | j :: items, ts, h => by
      rw [tidyItems?] at h
      obtain ⟨t, ht, h⟩ := Option.bind_eq_some_iff.1 h
      obtain ⟨rest, hrest, h⟩ := Option.bind_eq_some_iff.1 h
      obtain rfl := Option.some.inj h
      rw [tidyItems?, tidy?_of_tidied ht, tidyItems?_of_tidied hrest]
      rfl

theorem tidy?_of_mem_tidied : ∀ {fields : List (String × Json)} {m : Std.TreeMap String Json},
    tidyFields? fields = some m →
    ∀ (name : String) (t : Json), m[name]? = some t → t.tidy? = some t
  | [], m, h, name, t, ht => by
      obtain rfl : {} = m := Option.some.inj h
      simp at ht
  | (first, j) :: fields, m, h, name, t, ht => by
      obtain ⟨u, rest, hu, hrest, rfl⟩ := tidyFields?_cons h
      rw [Std.TreeMap.getElem?_insertIfNew] at ht
      split at ht
      · obtain rfl := Option.some.inj ht
        exact tidy?_of_tidied hu
      · exact tidy?_of_mem_tidied hrest name t ht

end

/-! ## Depth -/

mutual

theorem fits_of_tidied : ∀ {depth : Nat} {j t : Json}, Fits depth j → j.tidy? = some t →
    Fits depth t
  | depth, .null, t, hfit, h => by
      obtain rfl : Json.null = t := Option.some.inj h
      exact hfit
  | depth, .bool b, t, hfit, h => by
      obtain rfl : Json.bool b = t := Option.some.inj h
      exact hfit
  | depth, .text s, t, hfit, h => by
      obtain rfl : Json.text s = t := Option.some.inj h
      exact hfit
  | depth, .number n, t, hfit, h => by
      rw [tidy?] at h
      split at h
      · obtain rfl := Option.some.inj h
        exact hfit
      · exact absurd h (by simp)
  | depth, .list items, t, hfit, h => by
      rw [tidy?] at h
      obtain ⟨ts, hts, rfl⟩ := Option.map_eq_some_iff.1 h
      exact ⟨hfit.1, itemsFit_of_tidied hfit.2 hts⟩
  | depth, .record fields, t, hfit, h => by
      rw [tidy?] at h
      obtain ⟨m, hm, rfl⟩ := Option.map_eq_some_iff.1 h
      refine ⟨hfit.1, fieldsFit_iff.2 ?_⟩
      rintro ⟨name, t⟩ hmem
      have ht := Std.TreeMap.mem_toList_iff_getElem?_eq_some.1 hmem
      exact fits_of_mem_tidied hfit.2 hm name t ht

theorem itemsFit_of_tidied : ∀ {depth : Nat} {items ts : List Json}, ItemsFit depth items →
    tidyItems? items = some ts → ItemsFit depth ts
  | depth, [], ts, hfit, h => by
      obtain rfl : [] = ts := Option.some.inj h
      exact hfit
  | depth, j :: items, ts, hfit, h => by
      rw [tidyItems?] at h
      obtain ⟨t, ht, h⟩ := Option.bind_eq_some_iff.1 h
      obtain ⟨rest, hrest, h⟩ := Option.bind_eq_some_iff.1 h
      obtain rfl := Option.some.inj h
      exact ⟨fits_of_tidied hfit.1 ht, itemsFit_of_tidied hfit.2 hrest⟩

theorem fits_of_mem_tidied : ∀ {depth : Nat} {fields : List (String × Json)}
    {m : Std.TreeMap String Json}, FieldsFit depth fields → tidyFields? fields = some m →
    ∀ (name : String) (t : Json), m[name]? = some t → Fits depth t
  | depth, [], m, hfit, h, name, t, ht => by
      obtain rfl : {} = m := Option.some.inj h
      simp at ht
  | depth, (first, j) :: fields, m, hfit, h, name, t, ht => by
      obtain ⟨u, rest, hu, hrest, rfl⟩ := tidyFields?_cons h
      rw [Std.TreeMap.getElem?_insertIfNew] at ht
      split at ht
      · obtain rfl := Option.some.inj ht
        exact fits_of_tidied hfit.1 hu
      · exact fits_of_mem_tidied hfit.2 hrest name t ht

end

/-! ## Decoding -/

section Decoding

variable {α : Type} {fields : List (String × Json)}

/-- The value given for one name, unless there are several. -/
def slot (fields : List (String × Json)) (name : String) : Option (Option Json) :=
  match fields.filter fun f => f.1 == name with
  | [] => some none
  | [(_, j)] => some (some j)
  | _ => none

theorem slots_cons (name : String) (names : List String) (fields : List (String × Json)) :
    slots (name :: names) (.record fields) =
      do return (← slot fields name) :: (← slots names (.record fields)) :=
  List.mapM_cons

/-- Where no name is repeated, the value of every field is given. -/
theorem slots_eq_lookup (hnodup : (fields.map Prod.fst).Nodup) (names : List String) :
    slots names (.record fields) = some (names.map fun name => fields.lookup name) := by
  induction names with
  | nil => rfl
  | cons name names ih =>
      have hslot : slot fields name = some (fields.lookup name) := by
        unfold slot
        rw [filter_eq_lookup hnodup]
        cases fields.lookup name <;> rfl
      rw [slots_cons, ih, hslot]
      rfl

/-- A field that is not asked for may be left out. -/
theorem slots_filter_ne {names : List String} {name : String} (hname : name ∉ names) :
    slots names (.record (fields.filter fun f => f.1 != name)) = slots names (.record fields) := by
  induction names with
  | nil => rfl
  | cons asked names ih =>
      have hne : name ≠ asked := List.ne_of_not_mem_cons hname
      have hrest : name ∉ names := List.not_mem_of_not_mem_cons hname
      have hslot : slot (fields.filter fun f => f.1 != name) asked = slot fields asked := by
        have hfilter : (fields.filter fun f => f.1 != name).filter (fun f => f.1 == asked) =
            fields.filter fun f => f.1 == asked := by
          rw [List.filter_filter]
          apply List.filter_congr
          intro f _
          by_cases hf : f.1 = asked
          · simp [hf, hne.symm]
          · simp [hf]
        unfold slot
        rw [hfilter]
      rw [slots_cons, slots_cons, ih hrest, hslot]

/-- How a written value comes to a decoder. -/
inductive Route where
  | plain
  | tidied

def along (j : Json) : Route → Option Json
  | .plain => some j
  | .tidied => j.tidy?

def Arrives (j : Json) : Prop := ∀ route, ∃ t, j.along route = some t

/-- What a value is decoded to on every route. -/
def Decodes (decode : Json → Option α) (j : Json) (a : α) : Prop :=
  ∀ route, ∃ t, j.along route = some t ∧ decode t = some a

theorem Decodes.arrives {decode : Json → Option α} {j : Json} {a : α}
    (h : Decodes decode j a) : j.Arrives := by
  intro route
  obtain ⟨t, ht, -⟩ := h route
  exact ⟨t, ht⟩

/-- The fields with which a record comes: under each name what was written under it. -/
structure Seen (fields : List (String × Json)) (route : Route) (seen : List (String × Json)) :
    Prop where
  nodup : (seen.map Prod.fst).Nodup
  lookup : ∀ name, seen.lookup name = (fields.lookup name).bind fun j => j.along route

theorem along_record (hnodup : (fields.map Prod.fst).Nodup) (harrives : ∀ f ∈ fields, f.2.Arrives)
    (route : Route) :
    ∃ seen, along (.record fields) route = some (.record seen) ∧ Seen fields route seen := by
  cases route with
  | plain => exact ⟨fields, rfl, hnodup, fun name => (Option.bind_fun_some _).symm⟩
  | tidied =>
      obtain ⟨m, hm⟩ := tidyFields?_isSome fun f hf => harrives f hf .tidied
      refine ⟨m.toList, by rw [along, tidy?, hm]; rfl, nodup_keys_toList m, fun name => ?_⟩
      rw [lookup_toList]
      exact getElem?_tidyFields? hm hnodup name

theorem decodes_record {decode : Json → Option α} {a : α}
    (hnodup : (fields.map Prod.fst).Nodup) (harrives : ∀ f ∈ fields, f.2.Arrives)
    (hdecode : ∀ route seen, Seen fields route seen → decode (.record seen) = some a) :
    Decodes decode (.record fields) a := by
  intro route
  obtain ⟨seen, hrecord, hseen⟩ := along_record hnodup harrives route
  exact ⟨.record seen, hrecord, hdecode route seen hseen⟩

theorem Decodes.required {decode : Json → Option α} {j : Json} {a : α} (h : Decodes decode j a)
    (route : Route) : required decode (j.along route) = some a := by
  obtain ⟨t, ht, ha⟩ := h route
  rw [ht]
  exact ha

theorem Decodes.defaulted {decode : Json → Option α} {j : Json} {a : α} (h : Decodes decode j a)
    (route : Route) (default : α) : defaulted default decode (j.along route) = some a := by
  obtain ⟨t, ht, ha⟩ := h route
  rw [ht]
  exact ha

/-- A value that is left out where there is none. No value is written as `null`. -/
theorem optional_of_decodes {decode : Json → Option α} {encode : α → Json}
    (hnull : decode .null = none) (h : ∀ a, Decodes decode (encode a) a) (o : Option α)
    (route : Route) :
    optional decode ((o.map encode).bind fun j => j.along route) = some o := by
  cases o with
  | none => rfl
  | some a =>
      obtain ⟨t, ht, ha⟩ := h a route
      rw [Option.map_some, Option.bind_some, ht]
      unfold optional
      split
      · rename_i heq
        exact absurd heq (by simp)
      · rename_i heq
        obtain rfl := Option.some.inj heq
        rw [hnull] at ha
        exact absurd ha (by simp)
      · rename_i heq
        obtain rfl := Option.some.inj heq
        rw [ha]
        rfl

theorem along_text (s : String) (route : Route) : along (.text s) route = some (.text s) := by
  cases route <;> rfl

theorem along_bool (b : Bool) (route : Route) : along (.bool b) route = some (.bool b) := by
  cases route <;> rfl

theorem decodes_text (s : String) : Decodes asText (.text s) s :=
  fun route => ⟨.text s, along_text s route, rfl⟩

theorem decodes_bool (b : Bool) : Decodes asBool (.bool b) b :=
  fun route => ⟨.bool b, along_bool b route, rfl⟩

theorem toNat?_nat {n : Nat} (hn : n < 2 ^ 64) : Number.toNat? { whole := n } = some n := by
  have hwhole : decide (n < UInt64.size) = true := decide_eq_true hn
  unfold Number.toNat?
  simp only [hwhole, List.isEmpty_nil, Option.isNone_none, Bool.not_false, Bool.and_self, if_true]

theorem asNatBelow_nat {bound n : Nat} (hbound : bound ≤ 2 ^ 64) (hn : n < bound) :
    asNatBelow bound (nat n) = some n := by
  rw [nat, asNatBelow, toNat?_nat (by omega), Option.bind_some, if_pos hn]

theorem decodes_nat {bound n : Nat} (hbound : bound ≤ 2 ^ 64) (hn : n < bound) :
    Decodes (asNatBelow bound) (nat n) n := by
  intro route
  refine ⟨nat n, ?_, asNatBelow_nat hbound hn⟩
  cases route with
  | plain => rfl
  | tidied =>
      rw [along, nat, tidy?, toNat?_nat (by omega)]
      rfl

theorem tidyItems?_eq_mapM (items : List Json) : tidyItems? items = items.mapM tidy? := by
  induction items with
  | nil => rfl
  | cons j items ih => rw [tidyItems?, ih, List.mapM_cons]

theorem along_list (items : List Json) (route : Route) :
    along (.list items) route = (items.mapM fun j : Json => j.along route).map .list := by
  cases route with
  | plain =>
      have hitems : (items.mapM fun j : Json => j.along .plain) = some items := by
        induction items with
        | nil => rfl
        | cons j items ih =>
            rw [List.mapM_cons, ih]
            rfl
      rw [hitems]
      rfl
  | tidied =>
      rw [along, tidy?, tidyItems?_eq_mapM]
      rfl

theorem decodes_list {decode : Json → Option α} {encode : α → Json} {xs : List α}
    (h : ∀ x ∈ xs, Decodes decode (encode x) x) :
    Decodes (asList decode) (.list (xs.map encode)) xs := by
  intro route
  have hitems : ∃ ts, ((xs.map encode).mapM fun j => j.along route) = some ts ∧
      ts.mapM decode = some xs := by
    induction xs with
    | nil => exact ⟨[], rfl, rfl⟩
    | cons x xs ih =>
        rw [List.forall_mem_cons] at h
        obtain ⟨t, ht, hx⟩ := h.1 route
        obtain ⟨ts, hts, hxs⟩ := ih h.2
        refine ⟨t :: ts, ?_, ?_⟩
        · rw [List.map_cons, List.mapM_cons, ht, hts]
          rfl
        · rw [List.mapM_cons, hx, hxs]
          rfl
  obtain ⟨ts, hts, hxs⟩ := hitems
  exact ⟨.list ts, by rw [along_list, hts]; rfl, hxs⟩

end Decoding

end SymbolAtlas.Json
