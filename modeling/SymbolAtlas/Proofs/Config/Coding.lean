import SymbolAtlas.Proofs.Config.Layers
import SymbolAtlas.Proofs.Decimal.Width

/-!
# Decoding saved configurations

A section that was saved is decoded to the same section, whatever it is laid over. Only an option
that is not set, and so not saved, is taken from below.
-/

namespace SymbolAtlas.Config

open Setting

/-! ## Saved fields -/

theorem keys_ofTomlFields (fields : List (String × Toml)) :
    (ofTomlFields fields).map Prod.fst = fields.map Prod.fst := by
  induction fields with
  | nil => rfl
  | cons f rest ih => rw [ofTomlFields, List.map_cons, List.map_cons, ih]

theorem lookup_ofTomlFields (fields : List (String × Toml)) (key : String) :
    (ofTomlFields fields).lookup key = (fields.lookup key).map ofToml := by
  induction fields with
  | nil => rfl
  | cons f rest ih =>
    rw [ofTomlFields, lookup_cons_eq, lookup_cons_eq, ih, apply_ite (Option.map ofToml)]
    rfl

/-- What stands in a saved table that was laid over a setting. -/
theorem exists_supersede_ofToml {fields : List (String × Toml)} {saved : Toml}
    (hsaved : .table fields = saved) (hne : fields ≠ [])
    (hkeys : ArePlainKeys (fields.map Prod.fst)) (old : Option Setting) :
    ∃ merged : Table, supersede old (ofToml saved) = .table merged ∧
      ∀ key, merged.lookup key =
        underlaid ((fieldsOf old).lookup key) ((fields.lookup key).map ofToml) := by
  refine ⟨merge (fieldsOf old) (ofTomlFields fields), ?_, fun key => ?_⟩
  · obtain ⟨f, rest, rfl⟩ := List.exists_cons_of_ne_nil hne
    simp only [← hsaved, ofToml, ofTomlFields, supersede]
  · rw [lookup_merge (by rwa [keys_ofTomlFields]), lookup_ofTomlFields]

theorem lookup_overlay_ofTomlFields {fields : List (String × Toml)}
    (hkeys : ArePlainKeys (fields.map Prod.fst)) (below : Table) (key : String) :
    (overlay below (ofTomlFields fields)).lookup key =
      underlaid (below.lookup key) ((fields.lookup key).map ofToml) := by
  rw [lookup_overlay (by rwa [keys_ofTomlFields]), lookup_ofTomlFields]

theorem lookup_fieldIfSet (key : String) (value : Option Toml) (asked : String) :
    (fieldIfSet key value).lookup asked = if asked = key then value else none := by
  cases value with
  | none => simp [fieldIfSet]
  | some v => exact lookup_cons_eq asked key v []

/-! ## Sections -/

/-- The value of an option below a saved section. -/
def optionBelow {α : Type} (read : Setting → Option α) (below : Option Setting) (key : String) :
    Option (Option α) :=
  orDefault none (asOptional? read) ((fieldsOf below).lookup key)

theorem of_natToToml? {n : Nat} {t : Toml} (h : natToToml? n = some t) :
    t = .integer n := by
  unfold natToToml? at h
  split_ifs at h
  exact (Option.some.inj h).symm

/-- A number that may be missing is saved as a number that may be missing. -/
theorem of_mapM_natToToml? {o : Option Nat} {saved : Option Toml}
    (h : o.mapM natToToml? = some saved) :
    saved = o.map (fun n => .integer n) ∧ ∀ t ∈ saved, ∃ n, natToToml? n = some t := by
  cases o with
  | none =>
    obtain rfl : none = saved := by simpa using h
    exact ⟨rfl, by simp⟩
  | some n =>
    simp only [Option.mapM_some, Option.map_eq_map, Option.map_eq_some_iff] at h
    obtain ⟨t, ht, rfl⟩ := h
    refine ⟨by rw [of_natToToml? ht]; rfl, ?_⟩
    rintro _ ⟨⟩
    exact ⟨n, ht⟩

theorem asNat64?_natCast (n : Nat) : asNat64? (.integer n) = some n := by
  rw [asNat64?, if_pos (Int.natCast_nonneg n), Int.toNat_natCast]

/-- An option that was saved counts, and any other is taken from below. -/
theorem orDefault_underlaid {α : Type} {read : Setting → Option α} {below : Option Setting}
    {value : Option α} (saved : α → Toml) (o : Option α)
    (hread : ∀ a, asOptional? read (supersede below (ofToml (saved a))) = some (some a))
    (hbelow : orDefault none (asOptional? read) below = some value) :
    orDefault none (asOptional? read) (underlaid below ((o.map saved).map ofToml)) =
      some (o.or value) := by
  cases o with
  | none => exact hbelow
  | some a => exact hread a

theorem orDefault_some {α : Type} (default : α) (read : Setting → Option α) (s : Setting) :
    orDefault default read (some s) = read s := rfl

theorem asTexts?_texts (xs : List String) :
    asTexts? (.list (ofTomlItems (xs.map .text))) = some xs := by
  rw [asTexts?]
  induction xs with
  | nil => rfl
  | cons x xs ih =>
    rw [List.map_cons, ofTomlItems, List.mapM_cons, ih]
    rfl

section Sections

variable {saved : Toml} {below : Option Setting}

theorem cacheOfSetting?_supersede {c : CacheSection} {folder : Option String}
    (h : c.toToml? = some saved) (hbelow : optionBelow asText? below "disk_dir" = some folder) :
    cacheOfSetting? (supersede below (ofToml saved)) =
      some { c with folder := c.folder.or folder } := by
  simp only [CacheSection.toToml?, Option.bind_eq_bind, Option.bind_eq_some_iff, pure,
    Option.some.injEq] at h
  obtain ⟨maxEntries, hmax, defaultTtl, httl, cleanup, hcleanup, hsaved⟩ := h
  obtain rfl := of_natToToml? hmax
  obtain rfl := of_natToToml? httl
  obtain rfl := of_natToToml? hcleanup
  have hplain : ArePlainKeys ["max_entries", "eviction_ratio", "default_ttl_secs",
    "cleanup_interval_secs", "disk_dir"] := by decide +kernel
  obtain ⟨merged, hmerged, hlookup⟩ := exists_supersede_ofToml hsaved (by simp [field])
    (hplain.sublist (by cases c.folder <;> simp [field, fieldIfSet])) below
  have hfolder := orDefault_underlaid .text c.folder (fun _ => rfl) hbelow
  simp only [field, List.cons_append, List.nil_append, lookup_cons_eq, lookup_fieldIfSet]
    at hlookup
  rw [hmerged]
  simp only [cacheOfSetting?, slots?, List.map_cons, List.map_nil, hlookup, String.reduceEq,
    if_false, if_true, Option.map_some, underlaid_some, ofToml, supersede, orDefault_some,
    Option.bind_eq_bind, Option.bind_some, asNat64?_natCast, asFloat?, hfolder]
  rfl

theorem searchOfSetting?_supersede {s : SearchSection} (hscore : s.minScore.isFinite = true)
    (h : s.toToml? = some saved) :
    searchOfSetting? (supersede below (ofToml saved)) = some s := by
  simp only [SearchSection.toToml?, Option.bind_eq_bind, Option.bind_eq_some_iff, pure,
    Option.some.injEq] at h
  obtain ⟨maxResults, hmax, hsaved⟩ := h
  obtain rfl := of_natToToml? hmax
  have hplain : ArePlainKeys ["max_results", "case_sensitive", "sort", "prefix", "fuzzy", "regex",
    "min_score"] := by decide +kernel
  obtain ⟨merged, hmerged, hlookup⟩ := exists_supersede_ofToml hsaved (by simp [field])
    (hplain.sublist (by simp [field])) below
  simp only [field, List.cons_append, List.nil_append, lookup_cons_eq, List.lookup_nil]
    at hlookup
  rw [hmerged]
  simp only [searchOfSetting?, slots?, List.map_cons, List.map_nil, hlookup, String.reduceEq,
    if_false, if_true, Option.map_some, underlaid_some, ofToml, supersede, orDefault_some,
    Option.bind_eq_bind, Option.bind_some, asNat64?_natCast, asFloat?, asBool?, asText?,
    Decimal.narrow_widen hscore]
  rfl

theorem updaterOfSetting?_supersede {u : UpdaterSection} (h : u.toToml? = some saved) :
    updaterOfSetting? (supersede below (ofToml saved)) = some u := by
  simp only [UpdaterSection.toToml?, Option.bind_eq_bind, Option.bind_eq_some_iff, pure,
    Option.some.injEq] at h
  obtain ⟨debounce, hdebounce, grace, hgrace, watch, hwatch, hsaved⟩ := h
  obtain rfl := of_natToToml? hdebounce
  obtain rfl := of_natToToml? hgrace
  obtain rfl := of_natToToml? hwatch
  have hplain : ArePlainKeys ["debounce_ms", "shutdown_grace_secs", "scan_for_new_files",
    "watch_debounce_ms"] := by decide +kernel
  obtain ⟨merged, hmerged, hlookup⟩ := exists_supersede_ofToml hsaved (by simp [field])
    (hplain.sublist (by simp [field])) below
  simp only [field, List.cons_append, List.nil_append, lookup_cons_eq, List.lookup_nil]
    at hlookup
  rw [hmerged]
  simp only [updaterOfSetting?, slots?, List.map_cons, List.map_nil, hlookup, String.reduceEq,
    if_false, if_true, Option.map_some, underlaid_some, ofToml, supersede, orDefault_some,
    Option.bind_eq_bind, Option.bind_some, asNat64?_natCast, asBool?]
  rfl

theorem collectorOfSetting?_supersede {c : CollectorSection} {parallelism : Option Nat}
    (h : c.toToml? = some saved)
    (hbelow : optionBelow asNat64? below "parallelism" = some parallelism) :
    collectorOfSetting? (supersede below (ofToml saved)) =
      some { c with parallelism := c.parallelism.or parallelism } := by
  simp only [CollectorSection.toToml?, Option.bind_eq_bind, Option.bind_eq_some_iff, pure,
    Option.some.injEq] at h
  obtain ⟨threads, hthreads, hsaved⟩ := h
  obtain ⟨rfl, -⟩ := of_mapM_natToToml? hthreads
  have hplain : ArePlainKeys ["extensions", "parallelism", "respect_gitignore"] := by
    decide +kernel
  obtain ⟨merged, hmerged, hlookup⟩ := exists_supersede_ofToml hsaved (by simp [field])
    (hplain.sublist (by cases c.parallelism <;> simp [field, fieldIfSet])) below
  have hoption := orDefault_underlaid (fun n : Nat => .integer n) c.parallelism (fun n => by
    rw [ofToml, supersede, asOptional?, asNat64?_natCast] <;> simp) hbelow
  simp only [field, List.cons_append, List.nil_append, lookup_cons_eq,
    List.lookup_append, lookup_fieldIfSet, List.lookup_nil] at hlookup
  rw [hmerged]
  simp only [collectorOfSetting?, slots?, List.map_cons, List.map_nil, hlookup, String.reduceEq,
    if_false, if_true, Option.map_some, underlaid_some, ofToml, supersede, orDefault_some,
    Option.bind_eq_bind, Option.bind_some, Option.none_or, Option.or_none, asTexts?_texts,
    asBool?, hoption]
  rfl

theorem loggingOfSetting?_supersede (l : LoggingSection) :
    loggingOfSetting? (supersede below (ofToml l.toToml)) = some l := by
  have hplain : ArePlainKeys ["level"] := by decide +kernel
  obtain ⟨merged, hmerged, hlookup⟩ := exists_supersede_ofToml (Eq.refl l.toToml)
    (by simp [field]) (hplain.sublist (by simp [field])) below
  simp only [field, lookup_cons_eq, List.lookup_nil] at hlookup
  rw [hmerged]
  simp only [loggingOfSetting?, slots?, List.map_cons, List.map_nil, hlookup, if_true,
    Option.map_some, underlaid_some, ofToml, supersede, orDefault_some, Option.bind_eq_bind,
    Option.bind_some, asText?]
  rfl

/-- A section that can be decoded has a value for each of its options. -/
theorem exists_optionBelow_cache {s : Setting} {c : CacheSection}
    (h : cacheOfSetting? s = some c) :
    ∃ folder, optionBelow asText? (some s) "disk_dir" = some folder := by
  cases s with
  | table fields =>
    simp only [cacheOfSetting?, slots?, List.map_cons, List.map_nil, Option.bind_eq_bind,
      Option.bind_some, Option.bind_eq_some_iff] at h
    obtain ⟨-, -, -, -, -, -, -, -, folder, hfolder, -⟩ := h
    exact ⟨folder, hfolder⟩
  | _ => exact ⟨none, rfl⟩

theorem exists_optionBelow_collector {s : Setting} {c : CollectorSection}
    (h : collectorOfSetting? s = some c) :
    ∃ parallelism, optionBelow asNat64? (some s) "parallelism" = some parallelism := by
  cases s with
  | table fields =>
    simp only [collectorOfSetting?, slots?, List.map_cons, List.map_nil, Option.bind_eq_bind,
      Option.bind_some, Option.bind_eq_some_iff] at h
    obtain ⟨-, -, parallelism, hparallelism, -⟩ := h
    exact ⟨parallelism, hparallelism⟩
  | _ => exact ⟨none, rfl⟩

end Sections

/-! ## Whole configurations -/

/-- A configuration whose options, where they are not set, are taken from elsewhere. -/
def filled (c : Config) (folder : Option String) (parallelism : Option Nat) : Config :=
  { c with
    cache := { c.cache with folder := c.cache.folder.or folder }
    collector := { c.collector with parallelism := c.collector.parallelism.or parallelism } }

theorem exists_optionsBelow {below : Table} {u : Config} (h : ofSetting? (.table below) = some u) :
    (∃ folder, optionBelow asText? (below.lookup "cache") "disk_dir" = some folder) ∧
      ∃ parallelism, optionBelow asNat64? (below.lookup "collector") "parallelism" =
        some parallelism := by
  simp only [ofSetting?, slots?, List.map_cons, List.map_nil, Option.bind_eq_bind,
    Option.bind_some, Option.bind_eq_some_iff] at h
  obtain ⟨cache, hcache, -, -, -, -, collector, hcollector, -⟩ := h
  refine ⟨?_, ?_⟩
  · cases hlookup : below.lookup "cache" with
    | none => exact ⟨none, rfl⟩
    | some s => exact exists_optionBelow_cache (hlookup ▸ hcache)
  · cases hlookup : below.lookup "collector" with
    | none => exact ⟨none, rfl⟩
    | some s => exact exists_optionBelow_collector (hlookup ▸ hcollector)

/-- A saved configuration laid over other settings. -/
theorem ofSetting?_overlay {c : Config} {fields : List (String × Toml)} {below : Table}
    {folder : Option String} {parallelism : Option Nat} (h : c.toToml? = some fields)
    (hscore : c.search.minScore.isFinite = true)
    (hfolder : optionBelow asText? (below.lookup "cache") "disk_dir" = some folder)
    (hparallelism : optionBelow asNat64? (below.lookup "collector") "parallelism" =
      some parallelism) :
    ofSetting? (.table (overlay below (ofTomlFields fields))) =
      some (c.filled folder parallelism) := by
  simp only [toToml?, Option.bind_eq_bind, Option.bind_eq_some_iff, pure, Option.some.injEq] at h
  obtain ⟨cache, hcache, search, hsearch, updater, hupdater, collector, hcollector, rfl⟩ := h
  have hplain : ArePlainKeys ((field "cache" cache ++ field "search" search ++
      field "updater" updater ++ field "collector" collector ++
      field "logging" c.logging.toToml).map Prod.fst) := by
    change ArePlainKeys ["cache", "search", "updater", "collector", "logging"]
    decide +kernel
  have hlookup := lookup_overlay_ofTomlFields hplain below
  simp only [field, List.cons_append, List.nil_append, lookup_cons_eq, List.lookup_nil] at hlookup
  simp only [ofSetting?, slots?, List.map_cons, List.map_nil, field, List.cons_append,
    List.nil_append, hlookup, String.reduceEq, if_false, if_true, Option.map_some, underlaid_some,
    orDefault_some, Option.bind_eq_bind, Option.bind_some, cacheOfSetting?_supersede hcache hfolder,
    searchOfSetting?_supersede hscore hsearch, updaterOfSetting?_supersede hupdater,
    collectorOfSetting?_supersede hcollector hparallelism, loggingOfSetting?_supersede]
  rfl

end SymbolAtlas.Config
