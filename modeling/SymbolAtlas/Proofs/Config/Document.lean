import SymbolAtlas.Proofs.Config.Coding
import SymbolAtlas.Proofs.Toml.Document

/-!
# Documents of configurations

A configuration whose numbers are finite and fit is saved as a document that is read back as the
fields it was written from.
-/

namespace SymbolAtlas.Config

open Setting Toml

/-- That the numbers of a configuration are finite, and that the whole ones fit 64 bits with a
sign. -/
structure Fits (c : Config) : Prop where
  whole : ∀ n ∈ [c.cache.maxEntries, c.cache.defaultTtlSeconds, c.cache.cleanupIntervalSeconds,
    c.search.maxResults, c.updater.debounceMillis, c.updater.graceSeconds,
    c.updater.watchDebounceMillis] ++ c.collector.parallelism.toList, n < 2 ^ 63
  evictionRatio : c.cache.evictionRatio.isFinite = true
  minScore : c.search.minScore.isFinite = true

variable {c : Config} {fields : List (String × Toml)}

theorem natToToml?_eq {n : Nat} (h : n < 2 ^ 63) : natToToml? n = some (.integer n) := if_pos h

/-- A configuration whose numbers fit can be saved. -/
theorem Fits.exists_toToml? (h : c.Fits) : ∃ fields, c.toToml? = some fields := by
  have hwhole := h.whole
  simp only [List.forall_mem_append, List.forall_mem_cons, Option.mem_toList] at hwhole
  obtain ⟨⟨hmax, httl, hcleanup, hresults, hdebounce, hgrace, hwatch, -⟩, hparallelism⟩ := hwhole
  have hthreads : ∃ threads, c.collector.parallelism.mapM natToToml? = some threads := by
    cases hset : c.collector.parallelism with
    | none => exact ⟨none, rfl⟩
    | some n => exact ⟨_, by rw [Option.mapM_some, natToToml?_eq (hparallelism n hset)]; rfl⟩
  obtain ⟨threads, hthreads⟩ := hthreads
  simp [toToml?, CacheSection.toToml?, SearchSection.toToml?, UpdaterSection.toToml?,
    CollectorSection.toToml?, natToToml?_eq hmax, natToToml?_eq httl, natToToml?_eq hcleanup,
    natToToml?_eq hresults, natToToml?_eq hdebounce, natToToml?_eq hgrace, natToToml?_eq hwatch,
    hthreads]

/-! ## Sections -/

theorem readable_of_natToToml? {depth n : Nat} {t : Toml} (h : natToToml? n = some t) :
    Readable depth t := by
  unfold natToToml? at h
  split_ifs at h with hlt
  obtain rfl := Option.some.inj h
  exact .integer ⟨by omega, by exact_mod_cast hlt⟩

/-- That a section was saved as a table of values. -/
def IsSection (saved : Toml) : Prop := ∃ fields, saved = .table fields ∧ IsFlat fields

theorem CacheSection.isSection {c : CacheSection} {saved : Toml}
    (hratio : c.evictionRatio.isFinite = true) (h : c.toToml? = some saved) : IsSection saved := by
  simp only [CacheSection.toToml?, Option.bind_eq_bind, Option.bind_eq_some_iff, pure,
    Option.some.injEq] at h
  obtain ⟨maxEntries, hmax, defaultTtl, httl, cleanup, hcleanup, rfl⟩ := h
  have hkeys : AreBareKeys ["max_entries", "eviction_ratio", "default_ttl_secs",
    "cleanup_interval_secs", "disk_dir"] := by decide +kernel
  refine ⟨_, rfl, hkeys.sublist ?_, ?_⟩
  · cases c.folder <;> simp [field, fieldIfSet]
  · cases c.folder <;> simp [field, fieldIfSet, readable_of_natToToml? hmax,
      readable_of_natToToml? httl, readable_of_natToToml? hcleanup, Readable.float hratio,
      Readable.text]

theorem SearchSection.isSection {s : SearchSection} {saved : Toml}
    (hscore : s.minScore.isFinite = true) (h : s.toToml? = some saved) : IsSection saved := by
  simp only [SearchSection.toToml?, Option.bind_eq_bind, Option.bind_eq_some_iff, pure,
    Option.some.injEq] at h
  obtain ⟨maxResults, hmax, rfl⟩ := h
  have hkeys : AreBareKeys ["max_results", "case_sensitive", "sort", "prefix", "fuzzy", "regex",
    "min_score"] := by decide +kernel
  refine ⟨_, rfl, hkeys.sublist (by simp [field]), ?_⟩
  simp [field, readable_of_natToToml? hmax, Readable.float (Decimal.isFinite_widen hscore),
    Readable.text, Readable.boolean]

theorem UpdaterSection.isSection {u : UpdaterSection} {saved : Toml}
    (h : u.toToml? = some saved) : IsSection saved := by
  simp only [UpdaterSection.toToml?, Option.bind_eq_bind, Option.bind_eq_some_iff, pure,
    Option.some.injEq] at h
  obtain ⟨debounce, hdebounce, grace, hgrace, watch, hwatch, rfl⟩ := h
  have hkeys : AreBareKeys ["debounce_ms", "shutdown_grace_secs", "scan_for_new_files",
    "watch_debounce_ms"] := by decide +kernel
  refine ⟨_, rfl, hkeys.sublist (by simp [field]), ?_⟩
  simp [field, readable_of_natToToml? hdebounce, readable_of_natToToml? hgrace,
    readable_of_natToToml? hwatch, Readable.boolean]

theorem CollectorSection.isSection {c : CollectorSection} {saved : Toml}
    (h : c.toToml? = some saved) : IsSection saved := by
  simp only [CollectorSection.toToml?, Option.bind_eq_bind, Option.bind_eq_some_iff, pure,
    Option.some.injEq] at h
  obtain ⟨threads, hthreads, rfl⟩ := h
  have hextensions : Readable maxDepth (.list (c.extensions.map .text)) := by
    change Readable (78 + 1) _
    refine .list fun item hitem => ?_
    obtain ⟨s, -, rfl⟩ := List.mem_map.mp hitem
    exact .text s
  have hparallelism : ∀ t ∈ threads, Readable maxDepth t := fun t ht => by
    obtain ⟨n, hn⟩ := (of_mapM_natToToml? hthreads).2 t ht
    exact readable_of_natToToml? hn
  have hkeys : AreBareKeys ["extensions", "parallelism", "respect_gitignore"] := by
    decide +kernel
  refine ⟨_, rfl, hkeys.sublist ?_, ?_⟩
  · cases threads <;> simp [field, fieldIfSet]
  · cases threads with
    | none => simp [field, fieldIfSet, hextensions, Readable.boolean]
    | some t => simp [field, fieldIfSet, hextensions, hparallelism, Readable.boolean]

theorem LoggingSection.isSection (l : LoggingSection) : IsSection l.toToml := by
  have hkeys : AreBareKeys ["level"] := by decide +kernel
  exact ⟨_, rfl, hkeys.sublist (by simp [field]), by simp [field, Readable.text]⟩

/-! ## The document -/

/-- A configuration is saved as tables that hold nothing but values. -/
theorem Fits.exists_tables (h : c.Fits) (hfields : c.toToml? = some fields) :
    ∃ sections, fields = tables sections ∧ AreFlat sections := by
  simp only [toToml?, Option.bind_eq_bind, Option.bind_eq_some_iff, pure, Option.some.injEq]
    at hfields
  obtain ⟨_, hcache, _, hsearch, _, hupdater, _, hcollector, rfl⟩ := hfields
  obtain ⟨cache, rfl, hcacheFlat⟩ := CacheSection.isSection h.evictionRatio hcache
  obtain ⟨search, rfl, hsearchFlat⟩ := SearchSection.isSection h.minScore hsearch
  obtain ⟨updater, rfl, hupdaterFlat⟩ := UpdaterSection.isSection hupdater
  obtain ⟨collector, rfl, hcollectorFlat⟩ := CollectorSection.isSection hcollector
  obtain ⟨logging, heq, hloggingFlat⟩ := LoggingSection.isSection c.logging
  have hkeys : AreBareKeys ["cache", "search", "updater", "collector", "logging"] := by
    decide +kernel
  refine ⟨[("cache", cache), ("search", search), ("updater", updater), ("collector", collector),
    ("logging", logging)], ?_, hkeys, ?_⟩
  · rw [heq]
    rfl
  · simp [hcacheFlat, hsearchFlat, hupdaterFlat, hcollectorFlat, hloggingFlat]

/-- The document of a configuration is read back as the configuration's fields. -/
theorem Fits.fileTable?_document (h : c.Fits) (hfields : c.toToml? = some fields) :
    fileTable? (Toml.document fields) = some (ofTomlFields fields) := by
  obtain ⟨sections, rfl, hflat⟩ := h.exists_tables hfields
  rw [fileTable?, dropMark_document hflat, String.ofList_toList, parse_document hflat]
  rfl

end SymbolAtlas.Config
