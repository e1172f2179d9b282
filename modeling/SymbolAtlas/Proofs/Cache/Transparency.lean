import SymbolAtlas.Proofs.Cache.Coherence

/-!
# The memory tier is transparent

What a cache answers about a solution is what its ledger says, whatever else the cache was used
for and however often it was replaced by a new one.
-/

namespace SymbolAtlas.Cache

variable {V : Type} {solution : String} {l : Ledger} {c : Cache V} {op : Op V} {ops : List (Op V)}

/-! ## Runs -/

/-- Other keys of an operation have other files. -/
def Op.Separates (solution : String) (op : Op V) : Prop :=
  ∀ key ∈ op.fileKeys, Record.fileName key = Record.fileName (collectionKey solution) →
    key = collectionKey solution

theorem Coherent.perform (h : Coherent solution l c) (hop : op.KeepsDirectory)
    (hnames : op.Separates solution) (hnow : l.now < 2 ^ 64) {c' : Cache V} {now : Nat}
    (hc : op.perform c l.now = .ok (c', now)) :
    now = (l.note solution op).now ∧ Coherent solution (l.note solution op) c' := by
  obtain ⟨rfl, hperforms⟩ := performs_of_eq_ok hc
  cases hperforms with
  | insert hinsert => exact ⟨rfl, h.insert hinsert⟩
  | get | tryFound | tryFailed | computeFound => exact ⟨rfl, h.get _ l.now _ _⟩
  | tryLoaded _ hinsert | computeStored _ hinsert =>
      exact ⟨rfl, (h.get _ l.now _ _).insert hinsert⟩
  | @putCollection other collected version _ hput =>
      rw [Ledger.note]
      by_cases hother : other = solution
      · subst hother
        rw [if_pos rfl]
        exact ⟨rfl, h.putCollection hnow hput⟩
      · rw [if_neg hother]
        refine ⟨rfl, h.putCollection_ne ?_ hput⟩
        intro hname
        exact hother (collectionKey_inj.1 (hnames _ List.mem_cons_self hname))
  | getCollection other version =>
      by_cases hother : other = solution
      · subst hother
        exact ⟨rfl, h.getCollection hnow⟩
      · refine ⟨rfl, h.getCollection_ne ?_⟩
        intro hname
        exact hother (collectionKey_inj.1 (hnames _ List.mem_cons_self hname))
  | invalidate key =>
      rw [Ledger.note]
      by_cases hkey : key = collectionKey solution
      · subst hkey
        rw [if_pos rfl]
        exact ⟨rfl, h.invalidate⟩
      · rw [if_neg hkey]
        exact ⟨rfl, h.invalidate_ne fun hname => hkey (hnames _ List.mem_cons_self hname)⟩
  | clear => exact ⟨rfl, h.clear⟩
  | purge => exact ⟨rfl, h.purge l.now⟩
  | wait span => exact ⟨rfl, h.wait span⟩
  | reopen settings => exact ⟨rfl, h.reopen hop⟩

theorem Coherent.run (h : Coherent solution l c) (hops : ∀ op ∈ ops, op.KeepsDirectory)
    (hnames : ∀ op ∈ ops, op.Separates solution)
    (hclock : (ops.foldl (Ledger.note solution) l).now < 2 ^ 64) {c' : Cache V} {now : Nat}
    (hrun : run ops c l.now = .ok (c', now)) :
    now = (ops.foldl (Ledger.note solution) l).now ∧
      Coherent solution (ops.foldl (Ledger.note solution) l) c' := by
  induction ops generalizing l c with
  | nil =>
      obtain ⟨rfl, rfl⟩ := Prod.mk.inj (Except.ok.inj hrun)
      exact ⟨rfl, h⟩
  | cons op ops ih =>
      rw [List.forall_mem_cons] at hops hnames
      rw [List.foldl_cons] at hclock ⊢
      have hlater := Ledger.now_le_foldl solution (l.note solution op) ops
      have hnote := Ledger.now_le_note solution l op
      rw [Cache.run] at hrun
      split at hrun
      · exact absurd hrun (by simp)
      · rename_i next moment hperform
        obtain ⟨rfl, hnext⟩ := h.perform hops.1 hnames.1 (by omega) hperform
        exact ih hnext hops.2 hnames.2 hclock hrun

/-! ## The clock -/

/-- Whether an operation stores a value. One that loads or computes it only does where it finds
none, and where loading does not fail. -/
def Op.storesAt (c : Cache V) (now : Nat) : Op V → Bool
  | .insert _ _ _ _ | .putCollection _ _ _ => true
  | .getOrTry read _ key load _ version => (c.get read now key version).1.isNone && load.isOk
  | .getOrCompute read _ key _ _ version => (c.get read now key version).1.isNone
  | _ => false

/-- For how long a stored value counts: as its caller says, or else as the settings say. -/
def Op.ttl (c : Cache V) (op : Op V) : Nat := op.ownTtl?.getD c.settings.defaultTtl

/-- A value can be stored for a while if there is room for none at all, or if the clock can tell
its end. -/
def CanKeep (c : Cache V) (now ttl : Nat) : Prop :=
  c.settings.maxEntries = 0 ∨ now + ttl < clockLimit

theorem exists_map_eq_ok {α ε ι : Type} {x : Except ε α} {f : α → ι} :
    (∃ b, x.map f = .ok b) ↔ ∃ a, x = .ok a := by
  constructor
  · rintro ⟨b, hb⟩
    obtain ⟨a, ha, -⟩ := of_map_eq_ok hb
    exact ⟨a, ha⟩
  · rintro ⟨a, rfl⟩
    exact ⟨f a, rfl⟩

section Keeping

variable {α : Type} (c : Cache V) (now : Nat) (key : String) (version : Option String)

theorem keep_isOk_iff (item : Item V) (ttl : Nat) :
    (∃ c', c.keep now key item ttl version = .ok c') ↔ c.CanKeep now ttl := by
  unfold CanKeep keep expiry
  by_cases hzero : c.settings.maxEntries = 0
  · simp [hzero]
  · by_cases hclock : now + ttl < clockLimit <;> simp [hzero, hclock]

/-- A lookup does not change what can be stored after it. -/
theorem insert_get_isOk_iff (read : V → Option α) (v : V) (ttl : Option Nat) :
    (∃ c', (c.get read now key version).2.insert now key v ttl version = .ok c') ↔
      c.CanKeep now (ttl.getD c.settings.defaultTtl) := by
  have hsettings : (c.get read now key version).2.settings = c.settings := count_settings _ _
  unfold Cache.insert
  rw [keep_isOk_iff, CanKeep, CanKeep, hsettings]

end Keeping

/-- An operation is carried out unless it stores a value whose end the clock cannot tell. -/
theorem perform_isOk_iff (c : Cache V) (now : Nat) (op : Op V) :
    (∃ r, op.perform c now = .ok r) ↔ (op.storesAt c now = true → c.CanKeep now (op.ttl c)) := by
  cases op with
  | insert key v ttl version =>
      rw [Op.perform, exists_map_eq_ok, Op.storesAt, forall_prop_of_true rfl]
      exact keep_isOk_iff c now key version (.value v) _
  | getOrTry read write key load ttl version =>
      rw [Op.perform, exists_map_eq_ok]
      cases hget : (c.get read now key version).1 with
      | some a => simp [Op.storesAt, hget, getOrTry_of_some hget]
      | none =>
          rw [getOrTry_of_none hget]
          cases load with
          | error e => simp [Op.storesAt, Except.isOk, Except.toBool]
          | ok a =>
              rw [exists_map_eq_ok, Op.storesAt, hget]
              refine Iff.trans ?_ (forall_prop_of_true rfl).symm
              exact insert_get_isOk_iff c now key version read (write a) ttl
  | getOrCompute read write key a ttl version =>
      rw [Op.perform, exists_map_eq_ok]
      cases hget : (c.get read now key version).1 with
      | some x => simp [Op.storesAt, hget, getOrCompute_of_some hget]
      | none =>
          rw [getOrCompute_of_none hget, exists_map_eq_ok, Op.storesAt, hget, Option.isNone_none,
            forall_prop_of_true rfl]
          exact insert_get_isOk_iff c now key version read (write a) ttl
  | putCollection solution collected version =>
      rw [Op.perform, exists_map_eq_ok, Cache.putCollection, exists_map_eq_ok, Op.storesAt,
        forall_prop_of_true rfl]
      exact keep_isOk_iff c now (collectionKey solution) version (.collection collected) _
  | get | getCollection | invalidate | clear | purge | wait | reopen =>
      simp [Op.perform, Op.storesAt]

/-- Where the clock can tell the end of a value that counts as long as the settings say, only a
caller's own time to live can be too long. -/
theorem perform_isOk {now : Nat} (hdefault : now + c.settings.defaultTtl < clockLimit)
    (hclock : ∀ ttl ∈ op.ownTtl?, now + ttl < clockLimit) : ∃ r, op.perform c now = .ok r := by
  rw [perform_isOk_iff]
  intro _
  unfold Op.ttl
  cases hown : op.ownTtl? with
  | none => exact .inr hdefault
  | some own => exact .inr (hclock own hown)

/-- The clock can tell the end of a value that counts as long as the settings say. -/
theorem Coherent.now_add_ttl_lt (h : Coherent solution l c) (hnow : l.now < 2 ^ 64) :
    l.now + c.settings.defaultTtl < clockLimit := by
  have httl := h.ttl
  have hlimit : clockLimit = 2 ^ 63 * 1000 := rfl
  rw [hlimit, h.defaultTtl]
  omega

theorem Coherent.run_isOk (h : Coherent solution l c) (hops : ∀ op ∈ ops, op.KeepsDirectory)
    (hnames : ∀ op ∈ ops, op.Separates solution)
    (hclock : (ops.foldl (Ledger.note solution) l).now < 2 ^ 64)
    (httl : ∀ op ∈ ops, ∀ ttl ∈ op.ownTtl?,
      (ops.foldl (Ledger.note solution) l).now + ttl < clockLimit) :
    ∃ r, Cache.run ops c l.now = .ok r := by
  induction ops generalizing l c with
  | nil => exact ⟨_, rfl⟩
  | cons op ops ih =>
      rw [List.forall_mem_cons] at hops hnames httl
      rw [List.foldl_cons] at hclock httl
      have hlater := Ledger.now_le_foldl solution (l.note solution op) ops
      have hnote := Ledger.now_le_note solution l op
      have hown : ∀ ttl ∈ op.ownTtl?, l.now + ttl < clockLimit := by
        intro ttl hmem
        have hlimit := httl.1 ttl hmem
        omega
      obtain ⟨⟨next, moment⟩, hperform⟩ := perform_isOk (h.now_add_ttl_lt (by omega)) hown
      obtain ⟨rfl, hnext⟩ := h.perform hops.1 hnames.1 (by omega) hperform
      rw [Cache.run, hperform]
      exact ih hnext hops.2 hnames.2 hclock httl.2

/-! ## The answer -/

/-- A directory that was just opened holds no record of the solution. -/
theorem Coherent.ofNew {settings : Settings} (hsettings : settings.Durable) {disk opened : Disk}
    (hopen : disk.create? = some opened) (husable : opened.Usable)
    (hempty : (opened.record? (collectionKey solution)).1 = none) (start : Nat) :
    Coherent solution { now := start, ttl := settings.defaultTtl }
      (Cache.new settings disk : Cache V) := by
  rw [Disk.record?_eq husable] at hempty
  exact Coherent.new (l := { now := start, ttl := settings.defaultTtl }) hsettings hopen husable
    hempty fun d hd => absurd hd (by simp)

/-- After any run the collection of a solution is the one that the ledger tells, up to the shape
of its map: the last one that was stored and neither invalidated nor removed with everything, until
its time is over, unless its version tag is another one than the tag asked for. A run only fails
when a caller names a time to live beyond what the clock can tell. -/
theorem getCollection_run (settings : Settings) (disk opened : Disk) (start : Nat)
    (ops : List (Op V)) (solution : String) (version : Option String)
    (hsettings : settings.Durable) (hopen : disk.create? = some opened)
    (husable : opened.Usable) (hempty : (opened.record? (collectionKey solution)).1 = none)
    (hops : ∀ op ∈ ops, op.KeepsDirectory) (hnames : ∀ op ∈ ops, op.Separates solution)
    (hclock : (Ledger.ofRun solution settings start ops).now < 2 ^ 64) :
    (∀ (c : Cache V) (now : Nat), run ops (.new settings disk) start = .ok (c, now) →
      now = (Ledger.ofRun solution settings start ops).now ∧
      Option.Rel Collection.Equiv (c.getCollection now solution version).1
        ((Ledger.ofRun solution settings start ops).answer version)) ∧
    ((∀ op ∈ ops, ∀ ttl ∈ op.ownTtl?,
        (Ledger.ofRun solution settings start ops).now + ttl < clockLimit) →
      ∃ r, run ops (.new settings disk : Cache V) start = .ok r) := by
  have hnew : Coherent solution { now := start, ttl := settings.defaultTtl }
      (Cache.new settings disk : Cache V) := .ofNew hsettings hopen husable hempty start
  constructor
  · intro c now hrun
    obtain ⟨rfl, hc⟩ := hnew.run hops hnames hclock hrun
    exact ⟨rfl, hc.getCollection_answers hclock⟩
  · exact hnew.run_isOk hops hnames hclock

/-- A collection is found again after a value of another type took its place in memory, the bound
was reached and the cache was opened anew with room for nothing. -/
theorem getCollection_run_of_restart :
    let settings : Settings := { maxEntries := 1, defaultTtl := 60, directory := some ⟨"cache"⟩ }
    let collected : Collection := { errors := [{ project := "P", message := "gone" }] }
    let ops : List (Op Nat) :=
      [.putCollection "s" collected (some "v1"), .insert "symbols:s" 7 none none,
        .insert "n" 8 (some 5) none, .wait 60, .reopen { settings with maxEntries := 0 },
        .getCollection "s" none]
    ∃ (c : Cache Nat) (now : Nat), run ops (.new settings {}) 0 = .ok (c, now) ∧
      Option.Rel Collection.Equiv (c.getCollection now "s" (some "v1")).1 (some collected) := by
  intro settings collected ops
  have hsettings : settings.Durable := ⟨rfl, by decide⟩
  have husable : Disk.Usable { site := .directory {} } := by
    apply Disk.usable_of_nodes
    simp
  have hempty : (Disk.record? { site := .directory {} } (collectionKey "s")).1 = none := by
    rw [Disk.record?_eq husable]
    simp [Disk.held?, Disk.node?]
  have hops : ∀ op ∈ ops, op.KeepsDirectory := by
    simp only [ops, List.forall_mem_cons]
    exact ⟨trivial, trivial, trivial, trivial, ⟨rfl, by decide⟩, trivial, by simp⟩
  have hnames : ∀ op ∈ ops, op.Separates "s" := by
    simp [ops, Op.Separates, Op.fileKeys]
  have hmain := getCollection_run settings {} { site := .directory {} } 0 ops "s" (some "v1")
    hsettings rfl husable hempty hops hnames (by decide)
  obtain ⟨hanswer, hok⟩ := hmain
  have hnow : (Ledger.ofRun "s" settings 0 ops).now = 60 := rfl
  have hclock : ∀ op ∈ ops, ∀ ttl ∈ op.ownTtl?,
      (Ledger.ofRun "s" settings 0 ops).now + ttl < clockLimit := by
    rw [hnow]
    simp [ops, Op.ownTtl?, clockLimit]
  obtain ⟨⟨c, now⟩, hrun⟩ := hok hclock
  exact ⟨c, now, hrun, (hanswer c now hrun).2⟩

end SymbolAtlas.Cache
