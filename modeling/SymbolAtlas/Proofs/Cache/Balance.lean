import SymbolAtlas.Proofs.Cache.Book
import SymbolAtlas.Proofs.Cache.Transparency

/-!
# The memory tier keeps its book

The entries in memory are the postings that are still held. Every operation on the values of the
callers keeps it so, hence a lookup finds what the book answers, after any run.
-/

namespace SymbolAtlas.Cache

variable {V α : Type}

/-! ## The cache and its book -/

/-- The entries in memory are the postings that are held. -/
structure Balanced (s : Settings) (b : Book V) (c : Cache V) : Prop where
  settings : c.settings = s
  cleanup : c.cleanup = b.cleanup
  began : ∀ start, b.cleanup = .since start → start ≤ b.now
  entries : c.memory.entries = b.held.map Posting.entry
  nodup : (b.postings.map Posting.key).Nodup
  past : ∀ p ∈ b.postings, p.fate = .lapsed → p.isPast b.now = true
  bounded : b.held.length ≤ s.maxEntries

variable {s : Settings} {b : Book V} {c c' : Cache V}

theorem balanced_new (s : Settings) (disk : Disk) (start : Nat) :
    Balanced s (Book.new s start) (.new s disk : Cache V) where
  settings := by
    unfold new
    dsimp only
    split <;> rfl
  cleanup := by
    unfold new
    dsimp only
    split <;> rfl
  began := by
    intro began hbegan
    unfold Book.new at hbegan
    split at hbegan <;> exact absurd hbegan (by simp)
  entries := by
    unfold new
    dsimp only
    split <;> rfl
  nodup := List.nodup_nil
  past := by simp [Book.new]
  bounded := Nat.zero_le _

namespace Balanced

theorem nodup_held (h : Balanced s b c) : (b.held.map Posting.key).Nodup :=
  h.nodup.sublist (List.filter_sublist.map _)

theorem nodup_entries (h : Balanced s b c) : (c.memory.entries.map Entry.key).Nodup := by
  rw [h.entries, List.map_map]
  exact h.nodup_held

theorem size_eq (h : Balanced s b c) : c.memory.size = b.held.length := by
  unfold Memory.size
  rw [h.entries, List.length_map]

/-- The entry under a key is the last posting, if it is still held. -/
theorem find?_eq (h : Balanced s b c) (key : String) :
    c.memory.find? key = ((b.last? key).filter Posting.isHeld).map Posting.entry := by
  have hheld : b.held.find? (fun p => p.key == key) = (b.last? key).filter Posting.isHeld := by
    apply Option.ext
    intro p
    rw [Memory.find?_key_iff h.nodup_held, Option.filter_eq_some_iff, Book.last?,
      Memory.find?_key_iff h.nodup, Book.held, List.mem_filter]
    tauto
  unfold Memory.find?
  rw [h.entries, List.find?_map, ← hheld]
  rfl

/-- What is past may be dropped, if the book has it as lapsed. -/
theorem lapse (h : Balanced s b c) (which : String → Bool) {moment : Nat} (hmoment : moment ≤ b.now)
    (hsettings : c'.settings = c.settings) (hcleanup : c'.cleanup = c.cleanup)
    (hentries : c'.memory.entries =
      c.memory.entries.filter fun e => !(which e.key && e.isExpired moment)) :
    Balanced s (b.lapse which moment) c' where
  settings := hsettings.trans h.settings
  cleanup := hcleanup.trans h.cleanup
  began := h.began
  entries := by
    rw [hentries, h.entries, Book.held_lapse, List.filter_map]
    rfl
  nodup := by
    rw [Book.map_key_lapse]
    exact h.nodup
  past := by
    intro p hp hfate
    show p.isPast b.now = true
    rcases Book.isPast_of_mem_lapse hp hfate with hp | hpast
    · exact h.past p hp hfate
    · exact Posting.isPast_of_le hpast hmoment
  bounded := by
    rw [Book.held_lapse]
    exact Nat.le_trans (List.length_filter_le _ _) h.bounded

theorem store (h : Balanced s b c) (hmax : s.maxEntries ≠ 0) (key : String) (v : V) (ttl : Nat)
    (version : Option String) :
    Balanced s (b.store s.bound key v ttl version)
      { c with
        memory := c.memory.store s.bound
          { key, value := .value v, expires := b.now + ttl, version } } where
  settings := h.settings
  cleanup := h.cleanup
  began := h.began
  entries := by
    have hnone : (c.memory.find? key).isNone = b.held.all fun p => p.key != key := by
      rw [Memory.isNone_find?, h.entries, List.all_map]
      rfl
    have hroom : s.bound.maxEntries ≠ 0 := hmax
    show (Memory.store _ _ _).entries = _
    rw [Memory.entries_store hroom, Book.held_store]
    simp only [hnone, h.size_eq, h.entries]
    split
    · rw [← List.map_drop, List.filter_map, List.map_append]
      rfl
    · rw [List.filter_map, List.map_append]
      rfl
  nodup := Book.nodup_store h.nodup v ttl version
  past := by
    intro p hp hfate
    rcases List.mem_append.1 hp with hp | hp
    · have hkept := Book.mem_of_mem_room (List.mem_filter.1 hp).1 (by rw [hfate]; decide)
      exact h.past p hkept hfate
    -- The new posting is held.
    · rw [List.mem_singleton.1 hp] at hfate
      exact absurd hfate (by simp)
  bounded := Book.length_held_store_le hmax h.bounded v ttl version

theorem get (h : Balanced s b c) (read : V → Option α) (key : String) (version : Option String) :
    Balanced s (b.lapse (· == key) b.now) (c.get read b.now key version).2 := by
  apply h.lapse (· == key) (Nat.le_refl _)
  · exact count_settings _ _
  · exact count_cleanup _ _
  · unfold Cache.get
    rw [count_memory]
    exact Memory.entries_lookup h.nodup_entries b.now key version

/-- What is found is what the book answers. -/
theorem get_fst (h : Balanced s b c) (read : V → Option α) (key : String)
    (version : Option String) :
    (c.get read b.now key version).1 = b.answer read key version := by
  have hget : (c.get read b.now key version).1 =
      (c.memory.lookup b.now key version).1.bind (Item.asked read) := rfl
  rw [hget, Memory.lookup_fst, h.find?_eq, Book.answer]
  cases hlast : b.last? key with
  | none => rfl
  | some p =>
      cases hfate : p.fate with
      | held =>
          have hheld : p.isHeld = true := by rw [Posting.isHeld, hfate]; rfl
          have hanswers : p.answers b.now version =
              (!p.entry.isExpired b.now && versionsAgree p.entry.version version) := by
            rw [Posting.answers, hfate]
            rfl
          rw [Option.filter_some_pos hheld, Option.map_some, Option.bind_some, Option.bind_some,
            hanswers]
          split <;> rfl
      | evicted =>
          have hheld : p.isHeld = false := by rw [Posting.isHeld, hfate]; rfl
          rw [Option.filter_some_neg hheld, Option.bind_some, Posting.answers, hfate]
          rfl
      | lapsed =>
          have hheld : p.isHeld = false := by rw [Posting.isHeld, hfate]; rfl
          -- It is not in memory, and its time is over at any later moment too.
          have hpast := h.past p (List.mem_of_find?_eq_some hlast) hfate
          rw [Option.filter_some_neg hheld, Option.bind_some, Posting.answers, hpast]
          simp

theorem insert (h : Balanced s b c) (hmax : s.maxEntries ≠ 0) {key : String} {v : V}
    {ttl : Option Nat} {version : Option String}
    (hc : c.insert b.now key v ttl version = .ok c') :
    Balanced s (b.store s.bound key v (ttl.getD s.defaultTtl) version) c' := by
  obtain rfl := h.settings
  rcases keep_cases hc with ⟨hzero, -⟩ | ⟨-, rfl⟩
  · exact absurd hzero hmax
  · exact h.store hmax key v _ version

theorem retain (h : Balanced s b c) (keep : String → Bool) (hsettings : c'.settings = c.settings)
    (hcleanup : c'.cleanup = c.cleanup)
    (hentries : c'.memory.entries = c.memory.entries.filter fun e => keep e.key) :
    Balanced s (b.retain keep) c' := by
  have hheld : (b.retain keep).held = b.held.filter fun p => keep p.key := by
    unfold Book.held Book.retain
    rw [List.filter_filter, List.filter_filter]
    simp only [Bool.and_comm]
  exact {
    settings := hsettings.trans h.settings
    cleanup := hcleanup.trans h.cleanup
    began := h.began
    entries := by
      rw [hentries, h.entries, hheld, List.filter_map]
      rfl
    nodup := h.nodup.sublist (List.filter_sublist.map _)
    past := fun p hp hfate => h.past p (List.mem_filter.1 hp).1 hfate
    bounded := by
      rw [hheld]
      exact Nat.le_trans (List.length_filter_le _ _) h.bounded }

theorem invalidate (h : Balanced s b c) (key : String) :
    Balanced s (b.retain (· != key)) (c.invalidate key) := by
  unfold Cache.invalidate onDisk
  split <;> exact h.retain (· != key) rfl rfl rfl

theorem clear (h : Balanced s b c) : Balanced s (b.retain fun _ => false) c.clear := by
  unfold Cache.clear onDisk
  split <;> exact h.retain (fun _ => false) rfl rfl (by simp [Memory.clear])

theorem purge (h : Balanced s b c) :
    Balanced s (b.lapse (fun _ => true) b.now) (c.purge b.now).2 :=
  h.lapse (fun _ => true) (Nat.le_refl _) rfl rfl (by simp [Cache.purge, Memory.purge])

/-- What was past stays past. -/
theorem later (h : Balanced s b c) {now : Nat} (hnow : b.now ≤ now) :
    Balanced s { b with now } c where
  settings := h.settings
  cleanup := h.cleanup
  began := fun start hstart => Nat.le_trans (h.began start hstart) hnow
  entries := h.entries
  nodup := h.nodup
  past := fun p hp hfate => Posting.isPast_of_le (h.past p hp hfate) hnow
  bounded := h.bounded

theorem clean (h : Balanced s b c) {began : Nat} (hbegan : began ≤ b.now) (span : Nat) :
    Balanced s (b.clean s.cleanupInterval span began)
      { (c.purge (began + (b.now + span - 1 - began) / s.cleanupInterval *
          s.cleanupInterval)).2 with cleanup := .since began } := by
  let last := began + (b.now + span - 1 - began) / s.cleanupInterval * s.cleanupInterval
  have hlast : last ≤ b.now + span := by
    have hsteps := Nat.div_mul_le_self (b.now + span - 1 - began) s.cleanupInterval
    omega
  have hlater := h.later (Nat.le_add_right b.now span)
  have hpurged : Balanced s _ (c.purge last).2 :=
    hlater.lapse (fun _ => true) hlast rfl rfl (by simp [Cache.purge, Memory.purge])
  exact {
    settings := hpurged.settings
    cleanup := rfl
    began := by
      intro start hstart
      obtain rfl := Cleanup.since.inj hstart
      exact Nat.le_trans hbegan (Nat.le_add_right _ _)
    entries := hpurged.entries
    nodup := hpurged.nodup
    past := hpurged.past
    bounded := hpurged.bounded }

theorem wait (h : Balanced s b c) (span : Nat) :
    Balanced s (b.wait s.cleanupInterval span) (c.elapse b.now (b.now + span)) := by
  obtain rfl := h.settings
  simp only [Book.wait, Cache.elapse, h.cleanup]
  cases hcleanup : b.cleanup with
  | off =>
      have hlater := h.later (Nat.le_add_right b.now span)
      rw [hcleanup] at hlater
      exact hlater
  | waiting => exact h.clean (Nat.le_refl _) span
  | since began => exact h.clean (h.began began hcleanup) span

end Balanced

/-! ## Runs -/

variable {op : Op V} {ops : List (Op V)}

theorem Balanced.perform (h : Balanced s b c) (hmax : s.maxEntries ≠ 0) (hop : op.OnValues)
    {now : Nat} (hc : op.perform c b.now = .ok (c', now)) :
    now = (b.note s op).now ∧ Balanced s (b.note s op) c' := by
  have hnow := Book.now_note s b op
  obtain ⟨rfl, hperforms⟩ := performs_of_eq_ok hc
  cases hperforms with
  | insert hinsert => exact ⟨rfl, h.insert hmax hinsert⟩
  | get read key version => exact ⟨rfl, h.get read key version⟩
  | tryFound _ _ _ hget | tryFailed _ _ _ hget | computeFound _ _ _ hget =>
      refine ⟨hnow.symm, ?_⟩
      simp only [Book.note, ← h.get_fst, hget]
      exact h.get _ _ _
  | tryLoaded hget hinsert | computeStored hget hinsert =>
      refine ⟨hnow.symm, ?_⟩
      simp only [Book.note, ← h.get_fst, hget]
      exact (h.get _ _ _).insert hmax hinsert
  | invalidate key => exact ⟨rfl, h.invalidate key⟩
  | clear => exact ⟨rfl, h.clear⟩
  | purge => exact ⟨rfl, h.purge⟩
  | wait span => exact ⟨hnow.symm, h.wait span⟩
  | putCollection | getCollection | reopen => exact hop.elim

theorem Balanced.run (h : Balanced s b c) (hmax : s.maxEntries ≠ 0)
    (hops : ∀ op ∈ ops, op.OnValues) {now : Nat} (hrun : run ops c b.now = .ok (c', now)) :
    now = (ops.foldl (Book.note s) b).now ∧ Balanced s (ops.foldl (Book.note s) b) c' := by
  induction ops generalizing b c with
  | nil =>
      obtain ⟨rfl, rfl⟩ := Prod.mk.inj (Except.ok.inj hrun)
      exact ⟨rfl, h⟩
  | cons op ops ih =>
      rw [List.forall_mem_cons] at hops
      rw [Cache.run] at hrun
      split at hrun
      · exact absurd hrun (by simp)
      · rename_i next moment hperform
        obtain ⟨rfl, hnext⟩ := h.perform hmax hops.1 hperform
        exact ih hnext hops.2 hrun

theorem Balanced.run_isOk (h : Balanced s b c) (hmax : s.maxEntries ≠ 0)
    (hops : ∀ op ∈ ops, op.OnValues)
    (hclock : ∀ op ∈ ops, ∀ ttl ∈ op.ownTtl?,
      (ops.foldl (Book.note s) b).now + ttl < clockLimit)
    (hdefault : (ops.foldl (Book.note s) b).now + s.defaultTtl < clockLimit) :
    ∃ r, Cache.run ops c b.now = .ok r := by
  induction ops generalizing b c with
  | nil => exact ⟨_, rfl⟩
  | cons op ops ih =>
      rw [List.forall_mem_cons] at hops hclock
      rw [List.foldl_cons] at hclock hdefault
      have hlater := Book.now_le_foldl s (b.note s op) ops
      have hnote := Book.now_note s b op
      have hown : ∀ ttl ∈ op.ownTtl?, b.now + ttl < clockLimit := by
        intro ttl hmem
        have hlimit := hclock.1 ttl hmem
        omega
      have hsettings : b.now + c.settings.defaultTtl < clockLimit := by
        rw [h.settings]
        omega
      obtain ⟨⟨next, moment⟩, hperform⟩ := perform_isOk hsettings hown
      obtain ⟨rfl, hnext⟩ := h.perform hmax hops.1 hperform
      rw [Cache.run, hperform]
      exact ih hnext hops.2 hclock.2 hdefault

/-! ## Loading -/

/-- Outcomes with the same entries have them beside the same answer. -/
theorem map_pair_of_map {ε β ι : Type} {f : Cache V → ι} {x y : Except ε (Cache V)}
    (h : x.map f = y.map f) (r : β) :
    (x.map fun c => (r, c)).map (fun p => (p.1, f p.2)) = y.map fun c => (r, f c) := by
  cases x <;> cases y <;> simp_all [Except.map]

/-- After a lookup of its key a value is inserted as if the lookup had not been made. -/
theorem Balanced.entries_insert_get (h : Balanced s b c) (hmax : s.maxEntries ≠ 0)
    (read : V → Option α) (key : String) (v : V) (ttl : Option Nat) (version : Option String) :
    ((c.get read b.now key version).2.insert b.now key v ttl version).map (·.memory.entries) =
      (c.insert b.now key v ttl version).map (·.memory.entries) := by
  obtain rfl := h.settings
  have hsettings : (c.get read b.now key version).2.settings = c.settings := count_settings _ _
  have hmemory : (c.get read b.now key version).2.memory =
      (c.memory.lookup b.now key version).2 := count_memory _ _
  have hsize : c.memory.size ≤ c.settings.bound.maxEntries := by
    rw [h.size_eq]
    exact h.bounded
  unfold Cache.insert keep
  rw [hsettings, hmemory, if_neg hmax, if_neg hmax]
  cases expiry b.now (ttl.getD c.settings.defaultTtl) with
  | error e => rfl
  | ok expires =>
      exact congrArg Except.ok (Memory.entries_store_lookup hmax hsize b.now version)

/-- A value is loaded only where a lookup does not find one. What is loaded is stored as if it
were inserted. A loader that fails changes no entry, but one of the key that counts no longer
goes. -/
structure LoadsOnMiss (c : Cache V) (read : V → Option α) (write : α → V) (now : Nat)
    (key : String) (ttl : Option Nat) (version : Option String) : Prop where
  found : ∀ x, (c.get read now key version).1 = some x →
    (∀ {ε : Type} (load : Except ε α), c.getOrTry read write now key load ttl version =
      .ok ((.ok x, false), (c.get read now key version).2)) ∧
    ∀ a, c.getOrCompute read write now key a ttl version =
      .ok ((x, false), (c.get read now key version).2)
  loaded : (c.get read now key version).1 = none → ∀ a,
    (∀ ε : Type, (c.getOrTry read write now key (.ok a : Except ε α) ttl version).map
        (fun r => (r.1, r.2.memory.entries)) =
      (c.insert now key (write a) ttl version).map fun c' => ((.ok a, true), c'.memory.entries)) ∧
    (c.getOrCompute read write now key a ttl version).map (fun r => (r.1, r.2.memory.entries)) =
      (c.insert now key (write a) ttl version).map fun c' => ((a, true), c'.memory.entries)
  failed : (c.get read now key version).1 = none → ∀ {ε : Type} (e : ε), ∃ c',
    c.getOrTry read write now key (.error e) ttl version = .ok ((.error e, true), c') ∧
    c'.memory.entries = c.memory.entries.filter fun f => !(f.key == key && f.isExpired now)

theorem Balanced.loadsOnMiss (h : Balanced s b c) (hmax : s.maxEntries ≠ 0)
    (read : V → Option α) (write : α → V) (key : String) (ttl : Option Nat)
    (version : Option String) : c.LoadsOnMiss read write b.now key ttl version where
  found := fun x hget => ⟨getOrTry_of_some hget, getOrCompute_of_some hget⟩
  loaded := by
    intro hget a
    have hinsert := h.entries_insert_get hmax read key (write a) ttl version
    rw [getOrCompute_of_none hget]
    constructor
    · intro ε
      rw [getOrTry_of_none hget]
      exact map_pair_of_map hinsert (Except.ok a, true)
    · exact map_pair_of_map hinsert (a, true)
  failed := by
    intro hget ε e
    refine ⟨(c.get read b.now key version).2, getOrTry_of_none hget (.error e), ?_⟩
    show ((Cache.count _ _).memory).entries = _
    rw [count_memory]
    exact Memory.entries_lookup h.nodup_entries b.now key version

/-! ## The answer -/

/-- After any run a lookup finds the value that was stored last under the key since the key was
invalidated or everything was removed, if it was not evicted, is of the type asked for, its time
is not over and its version tag is none other than the tag asked for. A value is loaded exactly
where the lookup finds none. A run only fails when a value is to count beyond what the clock can
tell. -/
theorem get_run (settings : Settings) (disk : Disk) (start : Nat) (ops : List (Op V))
    (hmax : settings.maxEntries ≠ 0) (hops : ∀ op ∈ ops, op.OnValues) :
    (∀ (c : Cache V) (now : Nat), run ops (.new settings disk) start = .ok (c, now) →
      now = (Book.ofRun settings start ops).now ∧
      ∀ {α : Type} (read : V → Option α) (key : String) (version : Option String),
        (∀ x, (c.get read now key version).1 = some x ↔
          ∃ p, (Book.ofRun settings start ops).last? key = some p ∧ p.fate ≠ .evicted ∧
            read p.value = some x ∧ now ≤ p.stored + p.ttl ∧
            ∀ s ∈ p.version, ∀ r ∈ version, s = r) ∧
        ∀ (write : α → V) (ttl : Option Nat), c.LoadsOnMiss read write now key ttl version) ∧
    ((∀ op ∈ ops, ∀ ttl ∈ op.ownTtl?,
        (Book.ofRun settings start ops).now + ttl < clockLimit) →
      (Book.ofRun settings start ops).now + settings.defaultTtl < clockLimit →
      ∃ r, run ops (.new settings disk : Cache V) start = .ok r) := by
  have hnew : Balanced settings (.new settings start) (.new settings disk : Cache V) :=
    balanced_new settings disk start
  constructor
  · intro c now hrun
    obtain ⟨rfl, hc⟩ := hnew.run hmax hops hrun
    refine ⟨rfl, fun read key version => ⟨fun x => ?_, fun write ttl => ?_⟩⟩
    · rw [hc.get_fst read key version]
      exact Book.answer_eq_some
    · exact hc.loadsOnMiss hmax read write key ttl version
  · exact hnew.run_isOk hmax hops

/-- A value that was computed anew after its time was over is found. -/
theorem get_run_of_computed :
    let settings : Settings := { maxEntries := 2, defaultTtl := 60 }
    let ops : List (Op Nat) :=
      [.insert "a" 7 (some 5) (some "v1"), .wait 10,
        .getOrTry some id "a" (.error () : Except Unit Nat) none none,
        .getOrCompute some id "a" 8 none (some "v1"), .insert "b" 9 none none, .wait 60]
    ∃ (c : Cache Nat) (now : Nat), run ops (.new settings {}) 0 = .ok (c, now) ∧
      (c.get some now "a" (some "v1")).1 = some 8 := by
  intro settings ops
  have hlast : ((Book.ofRun settings 0 ops).last? "a").map
      (fun p => (p.value, p.stored, p.ttl, p.version, p.fate)) =
        some (8, 10, 60, some "v1", .held) := by
    subst settings ops
    decide +kernel
  have hnow : (Book.ofRun settings 0 ops).now = 70 := by
    subst settings ops
    decide +kernel
  have hops : ∀ op ∈ ops, op.OnValues := by simp [ops, Op.OnValues]
  obtain ⟨hanswer, hok⟩ := get_run settings {} 0 ops (by decide) hops
  rw [hnow] at hok
  obtain ⟨⟨c, now⟩, hrun⟩ := hok (by simp [ops, Op.ownTtl?, clockLimit]) (by decide)
  obtain ⟨rfl, hget⟩ := hanswer c now hrun
  obtain ⟨p, hp, htuple⟩ := Option.map_eq_some_iff.1 hlast
  simp only [Prod.mk.injEq] at htuple
  obtain ⟨hvalue, hstored, httl, hversion, hfate⟩ := htuple
  refine ⟨c, _, hrun, ((hget some "a" (some "v1")).1 8).2 ⟨p, hp, ?_, ?_, ?_, ?_⟩⟩
  · simp [hfate]
  · rw [hvalue]
  · omega
  · rw [hversion]
    simp

end SymbolAtlas.Cache
