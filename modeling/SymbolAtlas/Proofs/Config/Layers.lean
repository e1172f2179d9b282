import Mathlib
import SymbolAtlas.Config.Load
import SymbolAtlas.Proofs.Fields

/-!
# Layers of settings

What is found under a key after one source was laid over another: the later source's setting, with
what the earlier one says below it where both are tables.
-/

namespace SymbolAtlas.Setting

variable {t source fields : Table} {key : String}

/-! ## Keys -/

/-- That a key is its own location, in the letters that count. -/
structure IsPlainKey (key : String) : Prop where
  location_eq : location key = (key, [])
  lowercase_eq : Text.lowercase key = key

instance (key : String) : Decidable (IsPlainKey key) :=
  decidable_of_iff (location key = (key, []) ∧ Text.lowercase key = key)
    ⟨fun h => ⟨h.1, h.2⟩, fun h => ⟨h.1, h.2⟩⟩

/-- That keys are plain and none is repeated. -/
def ArePlainKeys (keys : List String) : Prop := keys.Nodup ∧ ∀ key ∈ keys, IsPlainKey key

instance (keys : List String) : Decidable (ArePlainKeys keys) :=
  inferInstanceAs (Decidable (_ ∧ _))

theorem arePlainKeys_cons {keys : List String} :
    ArePlainKeys (key :: keys) ↔ IsPlainKey key ∧ key ∉ keys ∧ ArePlainKeys keys := by
  simp only [ArePlainKeys, List.nodup_cons, List.forall_mem_cons]
  tauto

theorem ArePlainKeys.sublist {keys keys' : List String} (h : ArePlainKeys keys)
    (hsub : keys'.Sublist keys) : ArePlainKeys keys' :=
  ⟨h.1.sublist hsub, fun key hkey => h.2 key (hsub.subset hkey)⟩

theorem lookup_insert (t : Table) (key k : String) (s : Setting) :
    (insert key s t).lookup k = if k = key then some s else t.lookup k := by
  induction t with
  | nil => rw [insert, lookup_cons_eq]
  | cons entry rest ih =>
    obtain ⟨k', old⟩ := entry
    rw [insert]
    split_ifs with hk' hk hk
    · rw [lookup_cons_eq, if_pos (hk.trans hk'.symm)]
    · rw [lookup_cons_eq, lookup_cons_eq, if_neg fun h => hk (h.trans hk'),
        if_neg fun h => hk (h.trans hk')]
    · rw [lookup_cons_eq, ih, if_pos hk, if_neg fun h => hk' (h.symm.trans hk)]
    · rw [lookup_cons_eq, lookup_cons_eq, ih, if_neg hk]

/-- What stands under a key once a source has said something about it, or nothing. -/
def underlaid (old : Option Setting) : Option Setting → Option Setting
  | none => old
  | some s => some (supersede old s)

theorem underlaid_some (old : Option Setting) (s : Setting) :
    underlaid old (some s) = some (supersede old s) := rfl

theorem lookup_merge (hkeys : ArePlainKeys (fields.map Prod.fst)) (old : Table) (key : String) :
    (merge old fields).lookup key = underlaid (old.lookup key) (fields.lookup key) := by
  induction fields generalizing old with
  | nil => rw [merge]; rfl
  | cons f rest ih =>
    obtain ⟨k, s⟩ := f
    obtain ⟨hk, hnew, hrest⟩ := arePlainKeys_cons.mp hkeys
    rw [merge]
    simp only [hk.lowercase_eq]
    rw [ih hrest, lookup_insert, lookup_cons_eq]
    split_ifs with heq
    · subst heq
      rw [lookup_eq_none hnew]
      rfl
    · rfl

theorem put_of_isPlainKey (hkey : IsPlainKey key) (t : Table) (s : Setting) :
    put t key s = insert key (supersede (t.lookup key) s) t := by
  simp only [put, hkey.location_eq, hkey.lowercase_eq, putAt]

/-- A source of plain keys, laid over a table, counts where it says something. -/
theorem lookup_overlay (hkeys : ArePlainKeys (source.map Prod.fst)) (t : Table) (key : String) :
    (overlay t source).lookup key = underlaid (t.lookup key) (source.lookup key) := by
  unfold overlay
  induction source generalizing t with
  | nil => rfl
  | cons f rest ih =>
    obtain ⟨k, s⟩ := f
    obtain ⟨hk, hnew, hrest⟩ := arePlainKeys_cons.mp hkeys
    rw [List.foldl_cons, ih hrest]
    dsimp only
    rw [put_of_isPlainKey hk, lookup_insert, lookup_cons_eq]
    split_ifs with heq
    · subst heq
      rw [lookup_eq_none hnew]
      rfl
    · rfl

end SymbolAtlas.Setting
