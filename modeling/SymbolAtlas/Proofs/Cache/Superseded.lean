import SymbolAtlas.Proofs.Cache.Eviction
import SymbolAtlas.Proofs.Cache.Faults

/-!
# Collections that were superseded

Where an access to the directory fails the cache goes on with its memory, and a record may stay that
was to be replaced or removed. It is answered again once nothing newer is in memory. This is the
only way in which a superseded collection comes back: as soon as one of the operations that
supersede it does its work on disk, the collection is gone.
-/

namespace SymbolAtlas.Cache

variable {V : Type} {solution : String} {c c' : Cache V} {now now' : Nat} {op : Op V}
  {ops : List (Op V)}

/-! ## What an operation does on disk -/

/-- The file of the record of a solution. -/
def fileOf (solution : String) : String := Record.fileName (collectionKey solution)

namespace Op

/-- What an operation is to leave in the file of a solution, if it supersedes what was stored for
the solution. -/
def leaves? (solution : String) (c : Cache V) (now : Nat) : Op V → Option (Option Node)
  | .putCollection other collected version =>
    if other = solution then
      let deposit : Deposit := ⟨collected, now, c.settings.defaultTtl, version⟩
      some (some (.file (deposit.record solution).toJson.compact))
    else none
  | .invalidate key => if key = collectionKey solution then some none else none
  | .clear => some none
  | _ => none

/-- An operation supersedes what was stored for a solution, on disk as well. -/
def Lands (solution : String) (c : Cache V) (now : Nat) (op : Op V) (c' : Cache V) : Prop :=
  op.leaves? solution c now = some (c'.disk.node? (fileOf solution))

/-- What may stand in the file of a solution after an operation. -/
inductive Leaves (solution : String) (c : Cache V) (now : Nat) : Op V → Option Node → Prop where
  | unchanged (op : Op V) : Leaves solution c now op (c.disk.node? (fileOf solution))
  | written (other : String) (collected : Collection) (version : Option String) :
    fileOf other = fileOf solution →
    Leaves solution c now (.putCollection other collected version) (some (.file
      (Deposit.record ⟨collected, now, c.settings.defaultTtl, version⟩ other).toJson.compact))
  | removed (key : String) : Record.fileName key = fileOf solution →
    Leaves solution c now (.invalidate key) none
  | cleared : Leaves solution c now .clear none
  /-- A record is removed when it is found to count no longer. -/
  | lapsed (other : String) (version : Option String) (r : Record) :
    fileOf other = fileOf solution → c.disk.held? (collectionKey other) = some r →
    r.isExpired now = true → Leaves solution c now (.getCollection other version) none

theorem Leaves.of_same {node : Option Node} (h : node = c.disk.node? (fileOf solution)) :
    op.Leaves solution c now node := by
  rw [h]
  exact .unchanged op

end Op

theorem keep_disk {key : String} {item : Item V} {ttl : Nat} {version : Option String}
    (h : c.keep now key item ttl version = .ok c') : c'.disk = c.disk := by
  rw [keep_eq_store h]

theorem onDisk_disk (c : Cache V) (f : Disk → Disk) :
    (c.onDisk f).disk = if c.durable = true then f c.disk else c.disk := by
  unfold onDisk
  split <;> rfl

theorem node?_new (settings : Settings) (disk : Disk) (name : String) :
    (Cache.new settings disk : Cache V).disk.node? name = disk.node? name := by
  unfold Cache.new Disk.create?
  cases settings.directory with
  | none => rfl
  | some directory => cases hsite : disk.site <;> simp [Disk.node?, hsite]

theorem leaves_promote (solution : String) (c : Cache V) (now : Nat) (other : String)
    (version : Option String) :
    (Op.getCollection other version).Leaves solution c now
      ((c.promote now other version).2.disk.node? (fileOf solution)) := by
  have hread : c.disk.access.2.node? (fileOf solution) = c.disk.node? (fileOf solution) :=
    Disk.node?_access c.disk _
  unfold promote
  cases c.durable with
  | false => exact .unchanged _
  | true =>
      simp only [Bool.not_true, Bool.false_eq_true, reduceIte, Disk.record?_eq_of_access]
      cases hfails : c.disk.access.1 with
      | true => exact .of_same hread
      | false =>
          simp only [Bool.false_eq_true, reduceIte]
          cases hheld : c.disk.held? (collectionKey other) with
          | none => exact .of_same hread
          | some r =>
              cases hexpired : r.isExpired now with
              | false =>
                  simp only [hexpired, Bool.false_eq_true, reduceIte]
                  cases r.collection? now version <;> exact .of_same hread
              | true =>
                  have hnone : r.collection? now version = none := by
                    unfold Record.collection?
                    rw [hexpired]
                    rfl
                  simp only [hnone, hexpired, reduceIte]
                  rcases Disk.node?_removeRecord_cases c.disk.access.2 (collectionKey other)
                    (collectionKey solution) with hsame | ⟨hname, hgone⟩
                  · exact .of_same (hsame.trans hread)
                  · rw [show Disk.node? _ (fileOf solution) = none from hgone]
                    exact .lapsed other version r hname hheld hexpired

theorem leaves_getCollection (c : Cache V) (now : Nat) (other : String) (version : Option String) :
    (Op.getCollection other version).Leaves solution c now
      ((c.getCollection now other version).2.disk.node? (fileOf solution)) := by
  rcases getCollection_cases c now other version with ⟨found, -, heq⟩ | ⟨next, rfl, heq⟩
  · rw [heq]
    exact .unchanged _
  · rw [heq, count_disk]
    generalize hnode : Disk.node? _ (fileOf solution) = node
    have hpromoted := leaves_promote solution { c with
      memory := (c.memory.lookup now (collectionKey other) version).2 } now other version
    rw [hnode] at hpromoted
    cases hpromoted with
    | unchanged => exact .unchanged _
    | lapsed _ _ r hname hheld hexpired => exact .lapsed other version r hname hheld hexpired

/-- An operation does to the file of a solution what it may do, whichever accesses fail. -/
theorem leaves_perform (solution : String) (h : op.perform c now = .ok (c', now')) :
    op.Leaves solution c now (c'.disk.node? (fileOf solution)) := by
  cases (performs_of_eq_ok h).2 with
  | insert hinsert =>
      rw [keep_disk hinsert]
      exact .unchanged _
  | get | tryFound | tryFailed | computeFound =>
      exact .of_same (congrArg (Disk.node? · _) (count_disk _ _))
  | tryLoaded _ hinsert | computeStored _ hinsert =>
      exact .of_same (congrArg (Disk.node? · _) ((keep_disk hinsert).trans (count_disk _ _)))
  | @putCollection other collected version _ hput =>
      obtain ⟨kept, hkept, rfl⟩ := of_map_eq_ok hput
      rw [onDisk_disk, keep_disk hkept]
      split
      · rcases Disk.node?_writeRecord_cases c.disk
          (Deposit.record ⟨collected, now, c.settings.defaultTtl, version⟩ other)
          (collectionKey solution) with hsame | ⟨hname, hwritten⟩
        · exact .of_same hsame
        · exact (show Disk.node? _ (fileOf solution) = _ from hwritten) ▸
            .written other collected version hname
      · exact .unchanged _
  | getCollection other version => exact leaves_getCollection c now other version
  | invalidate key =>
      unfold Cache.invalidate
      rw [onDisk_disk]
      split
      · rcases Disk.node?_removeRecord_cases c.disk key (collectionKey solution) with
          hsame | ⟨hname, hgone⟩
        · exact .of_same hsame
        · rw [show Disk.node? _ (fileOf solution) = none from hgone]
          exact .removed key hname
      · exact .unchanged _
  | clear =>
      unfold Cache.clear
      rw [onDisk_disk]
      split
      · rcases Disk.node?_clear_cases c.disk (fileOf solution) with hsame | hgone
        · exact .of_same hsame
        · rw [hgone]
          exact .cleared
      · exact .unchanged _
  | purge => exact .unchanged _
  | wait span =>
      unfold Cache.elapse
      split <;> exact .unchanged _
  | reopen settings => exact .of_same (node?_new settings c.disk _)

/-! ## Where collections come from -/

/-- A collection with its version tag is stored in the file of a solution. -/
def Op.Puts (solution : String) (found : Collection) (tag : Option String) : Op V → Prop
  | .putCollection other collected version =>
    fileOf other = fileOf solution ∧ found.Equiv collected ∧ tag = version
  | _ => False

/-- Every collection of a solution that can be found in memory or on disk is a known one. -/
structure Known (P : Collection → Option String → Prop) (solution : String) (c : Cache V) :
    Prop where
  memory : ∀ e ∈ c.memory.entries, e.key = collectionKey solution →
    ∀ found, e.value = .collection found → P found e.version
  disk : ∀ r, c.disk.held? (collectionKey solution) = some r →
    ∀ found, Collection.ofJson? r.value = some found → P found r.version

theorem Disk.held?_of_file {d : Disk} {key text : String}
    (h : d.node? (Record.fileName key) = some (.file text)) :
    d.held? key = (Json.parse text).bind Record.ofJson? := by
  unfold Disk.held?
  rw [h]

/-- What is read from the text that was written for a deposit is its collection. -/
theorem Deposit.equiv_of_held? {deposit : Deposit} {other : String} {d : Disk}
    (hnode : d.node? (fileOf solution) = some (.file (deposit.record other).toJson.compact))
    {r : Record} (hr : d.held? (collectionKey solution) = some r) {found : Collection}
    (hfound : Collection.ofJson? r.value = some found) :
    found.Equiv deposit.collected ∧ r.version = deposit.version := by
  rw [Disk.held?_of_file hnode] at hr
  obtain ⟨hvalue, hversion⟩ := Record.of_read_written (deposit.tidy?_record_value other)
    (deposit.fits_record_value other) hr
  obtain ⟨read, -, hdecode, hequiv⟩ := deposit.tidied other
  rw [hvalue, hdecode] at hfound
  obtain rfl := Option.some.inj hfound
  exact ⟨hequiv, hversion⟩

theorem Memory.mem_foldr {W : Type} {b : Bound} {m : Memory W} {moves : List (Move W)}
    {e : Entry W} (h : e ∈ (moves.foldr (fun move m => move.perform b m) m).entries) :
    e ∈ m.entries ∨ .store e ∈ moves := by
  induction moves with
  | nil => exact .inl h
  | cons move moves ih =>
      rw [List.foldr_cons] at h
      have hrest : e ∈ (moves.foldr (fun move m => move.perform b m) m).entries →
          e ∈ m.entries ∨ .store e ∈ move :: moves :=
        fun he => (ih he).imp_right (List.mem_cons_of_mem _)
      cases move with
      | store f =>
          rcases Memory.mem_of_mem_store h with rfl | ⟨he, -⟩
          · exact .inr List.mem_cons_self
          · exact hrest he
      | lookup now key version =>
          exact hrest ((Memory.perform_of_ne_store (fun f hf => by cases hf)).1.subset h)
      | erase key =>
          exact hrest ((Memory.perform_of_ne_store (fun f hf => by cases hf)).1.subset h)
      | clear => exact absurd h List.not_mem_nil
      | purge now =>
          exact hrest ((Memory.perform_of_ne_store (fun f hf => by cases hf)).1.subset h)

/-- What an operation stores in memory is a value, the collection that is put, or the one that is
taken from a record. -/
theorem Op.store_mem_moves {e : Entry (Item V)} (h : .store e ∈ op.moves c now) :
    (∃ v, e.value = .value v) ∨
    (∃ other collected version, op = .putCollection other collected version ∧
      e.key = collectionKey other) ∨
    ∃ other version, op = .getCollection other version ∧
      promoted? c now other version = some e := by
  cases op with
  | insert key v ttl version =>
      obtain rfl := Move.store.inj (List.mem_singleton.1 h)
      exact .inl ⟨v, rfl⟩
  | getOrTry read write key load ttl version =>
      left
      simp only [Op.moves] at h
      split at h
      · exact absurd (List.mem_singleton.1 h) (by simp)
      · split at h
        · exact absurd (List.mem_singleton.1 h) (by simp)
        · rcases List.mem_cons.1 h with heq | hmem
          · exact ⟨_, congrArg Entry.value (Move.store.inj heq)⟩
          · exact absurd (List.mem_singleton.1 hmem) (by simp)
  | getOrCompute read write key a ttl version =>
      left
      rw [Op.moves] at h
      split at h
      · exact absurd (List.mem_singleton.1 h) (by simp)
      · rcases List.mem_cons.1 h with heq | hmem
        · exact ⟨_, congrArg Entry.value (Move.store.inj heq)⟩
        · exact absurd (List.mem_singleton.1 hmem) (by simp)
  | putCollection other collected version =>
      obtain rfl := Move.store.inj (List.mem_singleton.1 h)
      exact .inr (.inl ⟨other, collected, version, rfl, rfl⟩)
  | getCollection other version =>
      refine .inr (.inr ⟨other, version, rfl, ?_⟩)
      have hmem : .store e ∈ ((promoted? c now other version).map Move.store).toList := by
        rw [Op.moves] at h
        split at h
        · exact absurd (List.mem_singleton.1 h) (by simp)
        · rcases List.mem_append.1 h with hmem | hmem
          · exact hmem
          · exact absurd (List.mem_singleton.1 hmem) (by simp)
      rw [Option.mem_toList, Option.map_eq_some_iff] at hmem
      obtain ⟨f, hf, heq⟩ := hmem
      rw [hf, Move.store.inj heq]
  | wait span =>
      rw [Op.moves, Option.mem_toList, Option.map_eq_some_iff] at h
      obtain ⟨moment, -, heq⟩ := h
      exact absurd heq (by simp)
  | get | invalidate | clear | purge => exact absurd (List.mem_singleton.1 h) (by simp)
  | reopen settings => exact absurd h List.not_mem_nil

namespace Known

variable {P Q : Collection → Option String → Prop}

/-- The collection of a solution that an operation takes into memory comes from its record. -/
theorem of_store (h : Known P solution c) {e : Entry (Item V)} (hstore : .store e ∈ op.moves c now)
    (hkey : e.key = collectionKey solution) {found : Collection}
    (hvalue : e.value = .collection found) (hleaves : op.leaves? solution c now = none) :
    P found e.version := by
  rcases Op.store_mem_moves hstore with ⟨v, hv⟩ |
    ⟨other, collected, version, rfl, hother⟩ | ⟨other, version, rfl, hpromoted⟩
  · rw [hv] at hvalue
    cases hvalue
  · rw [Op.leaves?, if_pos (collectionKey_inj.1 (hother.symm.trans hkey))] at hleaves
    cases hleaves
  · unfold promoted? at hpromoted
    split at hpromoted
    · obtain ⟨r, hr, hcollected⟩ := Option.bind_eq_some_iff.1 hpromoted
      obtain ⟨collected, hcollection, rfl⟩ := Option.map_eq_some_iff.1 hcollected
      obtain rfl := collectionKey_inj.1 hkey
      obtain rfl := Item.collection.inj hvalue
      rw [Disk.record?_eq_of_access] at hr
      have hheld := (Option.ite_none_left_eq_some.1 hr).2
      have hread := (Option.ite_none_left_eq_some.1 hcollection).2
      exact h.disk r hheld _ hread
    · exact absurd hpromoted (by simp)

/-- What an operation supersedes is in memory no longer. -/
theorem of_superseded (hzero : c.settings.maxEntries = 0 → c.memory.entries = [])
    (h : op.perform c now = .ok (c', now')) (hleaves : op.leaves? solution c now ≠ none)
    {e : Entry (Item V)} (he : e ∈ c'.memory.entries) (hkey : e.key = collectionKey solution)
    {found : Collection} (hvalue : e.value = .collection found) :
    op.Puts solution found e.version := by
  have hsame : ∀ settings, op ≠ .reopen settings := by
    rintro settings rfl
    exact hleaves rfl
  rw [memory_perform hsame h] at he
  cases op with
  | putCollection other collected version =>
      have hother : other = solution := by
        by_contra hne
        exact hleaves (if_neg hne)
      subst hother
      rcases Memory.mem_of_mem_store he with rfl | ⟨hold, hne⟩
      · obtain rfl := Item.collection.inj hvalue
        exact ⟨rfl, .refl _, rfl⟩
      · by_cases hmax : c.settings.maxEntries = 0
        · have hold : e ∈ c.memory.entries := hold
          rw [hzero hmax] at hold
          exact absurd hold List.not_mem_nil
        · exact absurd hkey (hne hmax)
  | invalidate key =>
      have hname : key = collectionKey solution := by
        by_contra hne
        exact hleaves (if_neg hne)
      exact absurd (hkey.trans hname.symm) (Memory.mem_erase.1 he).2
  | clear => exact absurd he List.not_mem_nil
  | _ => exact absurd rfl hleaves

/-- After an operation what is known is what was known before, unless the operation superseded it on
disk, and what the operation itself stored. -/
theorem perform (h : Known P solution c)
    (hzero : c.settings.maxEntries = 0 → c.memory.entries = [])
    (hop : op.perform c now = .ok (c', now')) :
    Known (fun found tag => P found tag ∧ ¬ op.Lands solution c now c' ∨
      op.Puts solution found tag) solution c' where
  memory := by
    intro e he hkey found hvalue
    by_cases hleaves : op.leaves? solution c now = none
    · have hland : ¬ op.Lands solution c now c' := by
        unfold Op.Lands
        rw [hleaves]
        simp
      refine .inl ⟨?_, hland⟩
      by_cases hnew : ∃ settings, op = .reopen settings
      · obtain ⟨settings, rfl⟩ := hnew
        obtain ⟨rfl, rfl⟩ := Prod.mk.inj (Except.ok.inj hop)
        rw [new_memory] at he
        exact absurd he List.not_mem_nil
      · rw [memory_perform (fun settings heq => hnew ⟨settings, heq⟩) hop] at he
        rcases Memory.mem_foldr he with hold | hstore
        · exact h.memory e hold hkey found hvalue
        · exact h.of_store hstore hkey hvalue hleaves
    · exact .inr (of_superseded hzero hop hleaves he hkey hvalue)
  disk := by
    intro r hr found hfound
    have hwritten : ∀ other collected version, op = .putCollection other collected version →
        fileOf other = fileOf solution →
        c'.disk.node? (fileOf solution) = some (.file (Deposit.record
          ⟨collected, now, c.settings.defaultTtl, version⟩ other).toJson.compact) →
        op.Puts solution found r.version := by
      rintro other collected version rfl hfile hnode
      obtain ⟨hequiv, hversion⟩ := Deposit.equiv_of_held? hnode hr hfound
      exact ⟨hfile, hequiv, hversion⟩
    have hgone : c'.disk.node? (fileOf solution) ≠ none := by
      intro hnone
      rw [show c'.disk.held? (collectionKey solution) = none from
        Disk.held?_of_missing hnone] at hr
      exact absurd hr (by simp)
    by_cases hland : op.Lands solution c now c'
    · right
      unfold Op.Lands at hland
      cases op with
      | putCollection other collected version =>
          rw [Op.leaves?] at hland
          split at hland
          · rename_i hother
            subst hother
            exact hwritten _ _ _ rfl rfl (Option.some.inj hland).symm
          · exact absurd hland (by simp)
      | invalidate key =>
          rw [Op.leaves?] at hland
          split at hland
          · exact absurd (Option.some.inj hland).symm hgone
          · exact absurd hland (by simp)
      | clear => exact absurd (Option.some.inj hland).symm hgone
      | _ => exact absurd hland (by simp [Op.leaves?])
    · generalize hnode : c'.disk.node? (fileOf solution) = node at hwritten hgone
      have hleaves := leaves_perform solution hop
      rw [hnode] at hleaves
      cases hleaves with
      | unchanged =>
          rw [Disk.held?_congr hnode] at hr
          exact .inl ⟨h.disk r hr found hfound, hland⟩
      | written other collected version hfile => exact .inr (hwritten _ _ _ rfl hfile rfl)
      | removed key hfile => exact absurd rfl hgone
      | cleared => exact absurd rfl hgone
      | lapsed other version r' hfile hheld hexpired => exact absurd rfl hgone

/-- A collection that is found is known, with a version tag that agrees with the one asked for. -/
theorem getCollection (h : Known P solution c) {version : Option String} {found : Collection}
    (hfound : (c.getCollection now solution version).1 = some found) :
    ∃ tag, versionsAgree tag version = true ∧ P found tag := by
  rcases getCollection_cases c now solution version with
    ⟨collected, hmemory, heq⟩ | ⟨next, rfl, heq⟩
  · rw [heq] at hfound
    obtain rfl := Option.some.inj hfound
    obtain ⟨e, he, hkey, hvalue, -, hagree⟩ := Memory.of_lookup_eq_some hmemory
    exact ⟨e.version, hagree, h.memory e he hkey _ hvalue⟩
  · rw [heq] at hfound
    rw [promote_found] at hfound
    obtain ⟨-, hread⟩ := Option.ite_none_right_eq_some.1 hfound
    obtain ⟨r, hheld, hcollection⟩ := Option.bind_eq_some_iff.1 hread
    unfold Record.collection? at hcollection
    obtain ⟨hcounts, hdecode⟩ := Option.ite_none_left_eq_some.1 hcollection
    refine ⟨r.version, ?_, h.disk r hheld found hdecode⟩
    simp only [Bool.or_eq_true, Bool.not_eq_true', not_or, Bool.not_eq_false] at hcounts
    exact hcounts.2

end Known

/-! ## Runs -/

/-- No operation of a run supersedes on disk what was stored for a solution before. -/
def NoneLands (solution : String) : List (Op V) → Cache V → Nat → Prop
  | [], _, _ => True
  | op :: ops, c, now => ∀ c' now', op.perform c now = .ok (c', now') →
      ¬ op.Lands solution c now c' ∧ NoneLands solution ops c' now'

/-- In a run a collection is stored in the file of a solution, and nothing lands after it that
supersedes it. -/
def StoredLast (solution : String) (ops : List (Op V)) (c : Cache V) (now : Nat)
    (found : Collection) (tag : Option String) : Prop :=
  ∃ (before : List (Op V)) (put : Op V) (after : List (Op V)) (c₁ c₂ : Cache V) (now₁ now₂ : Nat),
    ops = before ++ put :: after ∧ run before c now = .ok (c₁, now₁) ∧
      put.perform c₁ now₁ = .ok (c₂, now₂) ∧ put.Puts solution found tag ∧
      NoneLands solution after c₂ now₂

theorem StoredLast.cons (hop : op.perform c now = .ok (c', now')) {found : Collection}
    {tag : Option String} (h : StoredLast solution ops c' now' found tag) :
    StoredLast solution (op :: ops) c now found tag := by
  obtain ⟨before, put, after, c₁, c₂, now₁, now₂, rfl, hrun, hrest⟩ := h
  refine ⟨op :: before, put, after, c₁, c₂, now₁, now₂, rfl, ?_, hrest⟩
  rw [run, hop]
  exact hrun

theorem NoneLands.cons (hop : op.perform c now = .ok (c', now'))
    (hland : ¬ op.Lands solution c now c') (h : NoneLands solution ops c' now') :
    NoneLands solution (op :: ops) c now := by
  intro c'' now'' hop'
  obtain ⟨rfl, rfl⟩ := Prod.mk.inj (Except.ok.inj (hop.symm.trans hop'))
  exact ⟨hland, h⟩

/-- Where no entry may be held there is none. -/
theorem Recounts.entries_eq_nil {past : List (Move (Item V))} (h : c.Recounts past)
    (hzero : c.settings.maxEntries = 0) : c.memory.entries = [] := by
  have haged := Memory.Aged.after c.settings.bound past
  rw [← show c.memory = _ from h] at haged
  exact List.eq_nil_of_length_eq_zero (Nat.le_zero.1 (hzero ▸ haged.size))

theorem Known.run {P : Collection → Option String → Prop} (h : Known P solution c)
    {past : List (Move (Item V))} (hpast : c.Recounts past)
    (hrun : Cache.run ops c now = .ok (c', now')) :
    Known (fun found tag => P found tag ∧ NoneLands solution ops c now ∨
      StoredLast solution ops c now found tag) solution c' := by
  induction ops generalizing P c now past with
  | nil =>
      obtain ⟨rfl, rfl⟩ := Prod.mk.inj (Except.ok.inj hrun)
      exact ⟨fun e he hkey found hvalue => .inl ⟨h.memory e he hkey found hvalue, trivial⟩,
        fun r hr found hfound => .inl ⟨h.disk r hr found hfound, trivial⟩⟩
  | cons op ops ih =>
      rw [Cache.run] at hrun
      split at hrun
      · exact absurd hrun (by simp)
      · rename_i next moment hop
        have hnext := ih (h.perform hpast.entries_eq_nil hop) (hpast.perform hop) hrun
        have hback : ∀ {found : Collection} {tag : Option String},
            (P found tag ∧ ¬ op.Lands solution c now next ∨ op.Puts solution found tag) ∧
                NoneLands solution ops next moment ∨
              StoredLast solution ops next moment found tag →
            P found tag ∧ NoneLands solution (op :: ops) c now ∨
              StoredLast solution (op :: ops) c now found tag := by
          rintro found tag (⟨⟨hold, hland⟩ | hput, hafter⟩ | hlater)
          · exact .inl ⟨hold, hafter.cons hop hland⟩
          · exact .inr ⟨[], op, ops, c, next, now, moment, rfl, rfl, hop, hput, hafter⟩
          · exact .inr (hlater.cons hop)
        exact ⟨fun e he hkey found hvalue => hback (hnext.memory e he hkey found hvalue),
          fun r hr found hfound => hback (hnext.disk r hr found hfound)⟩

/-! ## Records that stay -/

theorem now_le_perform (h : op.perform c now = .ok (c', now')) : now ≤ now' := by
  cases op with
  | insert key v ttl version =>
      obtain ⟨kept, -, heq⟩ := of_map_eq_ok h
      exact Nat.le_of_eq (Prod.mk.inj heq).2
  | getOrTry read write key load ttl version =>
      obtain ⟨r, -, heq⟩ := of_map_eq_ok h
      exact Nat.le_of_eq (Prod.mk.inj heq).2
  | getOrCompute read write key a ttl version =>
      obtain ⟨r, -, heq⟩ := of_map_eq_ok h
      exact Nat.le_of_eq (Prod.mk.inj heq).2
  | putCollection other collected version =>
      obtain ⟨stored, -, heq⟩ := of_map_eq_ok h
      exact Nat.le_of_eq (Prod.mk.inj heq).2
  | wait span =>
      obtain ⟨-, rfl⟩ := Prod.mk.inj (Except.ok.inj h)
      exact Nat.le_add_right _ _
  | _ => exact Nat.le_of_eq (Prod.mk.inj (Except.ok.inj h)).2

theorem now_le_run (h : run ops c now = .ok (c', now')) : now ≤ now' := by
  induction ops generalizing c now with
  | nil => exact Nat.le_of_eq (Prod.mk.inj (Except.ok.inj h)).2
  | cons op ops ih =>
      rw [run] at h
      split at h
      · exact absurd h (by simp)
      · rename_i next moment hop
        exact Nat.le_trans (now_le_perform hop) (ih h)

theorem Record.not_isExpired_of_le {r : Record} {before after : Nat} (hle : before ≤ after)
    (h : r.isExpired after = false) : r.isExpired before = false := by
  unfold Record.isExpired at h ⊢
  rw [decide_eq_false_iff_not] at h ⊢
  omega

/-- A record that counts stays as long as nothing lands that supersedes it. -/
theorem held?_perform {r : Record} (hr : c.disk.held? (collectionKey solution) = some r)
    (hseparate : op.Separates solution) (hlive : r.isExpired now = false)
    (hop : op.perform c now = .ok (c', now')) (hland : ¬ op.Lands solution c now c') :
    c'.disk.held? (collectionKey solution) = some r := by
  have hleaves := leaves_perform solution hop
  generalize hnode : c'.disk.node? (fileOf solution) = node at hleaves
  unfold Op.Lands at hland
  rw [hnode] at hland
  cases hleaves with
  | unchanged => exact (Disk.held?_congr hnode).trans hr
  | written other collected version hfile =>
      obtain rfl := collectionKey_inj.1 (hseparate _ List.mem_cons_self hfile)
      exact absurd (if_pos rfl) hland
  | removed key hfile => exact absurd (if_pos (hseparate _ List.mem_cons_self hfile)) hland
  | cleared => exact absurd rfl hland
  | lapsed other version r' hfile hheld hexpired =>
      obtain rfl := collectionKey_inj.1 (hseparate _ List.mem_cons_self hfile)
      obtain rfl := Option.some.inj (hr.symm.trans hheld)
      rw [hlive] at hexpired
      exact absurd hexpired (by simp)

theorem held?_run {r : Record} (hr : c.disk.held? (collectionKey solution) = some r)
    (hseparate : ∀ op ∈ ops, op.Separates solution) (hlive : r.isExpired now' = false)
    (hrun : run ops c now = .ok (c', now')) (hnone : NoneLands solution ops c now) :
    c'.disk.held? (collectionKey solution) = some r := by
  induction ops generalizing c now with
  | nil =>
      obtain ⟨rfl, rfl⟩ := Prod.mk.inj (Except.ok.inj hrun)
      exact hr
  | cons op ops ih =>
      rw [List.forall_mem_cons] at hseparate
      rw [run] at hrun
      split at hrun
      · exact absurd hrun (by simp)
      · rename_i next moment hop
        obtain ⟨hland, hafter⟩ := hnone next moment hop
        have hle := Nat.le_trans (now_le_perform hop) (now_le_run hrun)
        exact ih (held?_perform hr hseparate.1 (Record.not_isExpired_of_le hle hlive) hop hland)
          hseparate.2 hrun hafter

/-- Where no access fails an operation supersedes on disk what it is to supersede. -/
theorem lands_of_usable (hdurable : c.durable = true) (husable : c.disk.Usable)
    (hop : op.perform c now = .ok (c', now')) {node : Option Node}
    (hleaves : op.leaves? solution c now = some node) : op.Lands solution c now c' := by
  unfold Op.Lands
  cases op with
  | putCollection other collected version =>
      obtain ⟨stored, hstored, heq⟩ := of_map_eq_ok hop
      obtain ⟨rfl, rfl⟩ := Prod.mk.inj heq
      obtain ⟨kept, hkept, rfl⟩ := of_map_eq_ok hstored
      rw [Op.leaves?] at hleaves ⊢
      split at hleaves
      · rename_i hother
        subst hother
        have hdisk := keep_disk hkept
        have huse := (sameUse_keep hkept).2.trans hdurable
        rw [if_pos rfl, onDisk_disk, if_pos huse, hdisk]
        have hnode := (Disk.node?_writeRecord husable
          (Deposit.record ⟨collected, now, c.settings.defaultTtl, version⟩ other)
          (fileOf other)).trans (if_pos rfl)
        exact congrArg some hnode.symm
      · exact absurd hleaves (by simp)
  | invalidate key =>
      obtain ⟨rfl, rfl⟩ := Prod.mk.inj (Except.ok.inj hop)
      rw [Op.leaves?] at hleaves ⊢
      split at hleaves
      · rename_i hkey
        subst hkey
        unfold Cache.invalidate
        rw [if_pos rfl, withMemory_onDisk hdurable, fileOf, Disk.node?_removeRecord husable,
          if_pos rfl]
      · exact absurd hleaves (by simp)
  | clear =>
      obtain ⟨rfl, rfl⟩ := Prod.mk.inj (Except.ok.inj hop)
      unfold Cache.clear
      rw [withMemory_onDisk hdurable, fileOf, Disk.node?_clear husable,
        if_pos (Record.isOwn_fileName _)]
      rfl
  | _ => exact absurd hleaves (by simp [Op.leaves?])

/-! ## Answers -/

/-- A collection that is found was stored in the file of the solution, in the course of the run or
before it, and no operation that supersedes it has done so on disk since. Where none has, the
record of a solution that still counts is what is found as soon as nothing newer is in memory. An
operation only misses where an access can fail, or the durable tier is not in use. -/
theorem getCollection_superseded (settings : Settings) (disk : Disk) (start : Nat)
    (ops : List (Op V)) (solution : String) (version : Option String) :
    (∀ (c : Cache V) (now : Nat) (found : Collection),
      run ops (.new settings disk) start = .ok (c, now) →
      (c.getCollection now solution version).1 = some found →
      ∃ tag, versionsAgree tag version = true ∧
        (StoredLast solution ops (.new settings disk) start found tag ∨
          (∃ r, disk.held? (collectionKey solution) = some r ∧
            Collection.ofJson? r.value = some found ∧ r.version = tag) ∧
          NoneLands solution ops (.new settings disk) start)) ∧
    (∀ (c c' : Cache V) (now now' : Nat) (r : Record),
      run ops c now = .ok (c', now') → NoneLands solution ops c now →
      (∀ op ∈ ops, op.Separates solution) →
      c.disk.held? (collectionKey solution) = some r → r.isExpired now' = false →
      c'.durable = true → c'.disk.access.1 = false →
      (∀ collected, (c'.memory.lookup now' (collectionKey solution) version).1 ≠
        some (.collection collected)) →
      (c'.getCollection now' solution version).1 = r.collection? now' version) ∧
    ∀ (c c' : Cache V) (now now' : Nat) (op : Op V), op.perform c now = .ok (c', now') →
      op.leaves? solution c now ≠ none → ¬ op.Lands solution c now c' →
      c.durable = false ∨ ¬ c.disk.Usable := by
  refine ⟨?_, ?_, ?_⟩
  · intro c now found hrun hfound
    have hnew : Known (fun found tag => ∃ r, disk.held? (collectionKey solution) = some r ∧
        Collection.ofJson? r.value = some found ∧ r.version = tag) solution
        (Cache.new settings disk : Cache V) := by
      constructor
      · intro e he
        rw [new_memory] at he
        exact absurd he List.not_mem_nil
      · intro r hr found hfound
        rw [Disk.held?_congr (node?_new settings disk _)] at hr
        exact ⟨r, hr, hfound, rfl⟩
    have hpast : (Cache.new settings disk : Cache V).Recounts [] := new_memory settings disk
    obtain ⟨tag, hagree, horigin⟩ := (hnew.run hpast hrun).getCollection hfound
    exact ⟨tag, hagree, horigin.symm⟩
  · intro c c' now now' r hrun hnone hseparate hr hlive hdurable haccess hmemory
    have hheld := held?_run hr hseparate hlive hrun hnone
    rcases getCollection_cases c' now' solution version with ⟨found, hfound, -⟩ | ⟨next, rfl, heq⟩
    · exact absurd hfound (hmemory found)
    · rw [heq, promote_found, if_pos ⟨hdurable, haccess⟩]
      exact (congrArg (Option.bind · _) hheld).trans (Option.bind_some _ _)
  · intro c c' now now' op hop hleaves hland
    obtain ⟨node, hnode⟩ := Option.ne_none_iff_exists'.1 hleaves
    by_cases hdurable : c.durable = true
    · exact .inr fun husable => hland (lands_of_usable hdurable husable hop hnode)
    · exact .inl (Bool.eq_false_iff.2 hdurable)

/-- A collection that was removed is found again, since its file could not be removed. -/
theorem getCollection_superseded_of_failed_removal :
    let settings : Settings := { directory := some ⟨"cache"⟩ }
    let deposit : Deposit := ⟨{ errors := [{ project := "P", message := "gone" }] }, 0, 60, none⟩
    let disk : Disk := {
      site := .directory (({} : Std.TreeMap String Node).insert (fileOf "s")
        (.file (deposit.record "s").toJson.compact))
      faults := [true] }
    let ops : List (Op Nat) := [.invalidate (collectionKey "s")]
    ∃ (c : Cache Nat) (now : Nat), run ops (.new settings disk) 0 = .ok (c, now) ∧
      Option.Rel Collection.Equiv (c.getCollection now "s" none).1 (some deposit.collected) := by
  intro settings deposit disk ops
  obtain ⟨-, hstays, -⟩ := getCollection_superseded (V := Nat) settings disk 0 ops "s" none
  let opened : Cache Nat := .new settings disk
  have hrun : run ops opened 0 = .ok (opened.invalidate (collectionKey "s"), 0) := rfl
  have hnode : opened.disk.node? (fileOf "s") =
      some (.file (deposit.record "s").toJson.compact) :=
    (Disk.getElem?_insert_eq _ _ _ _).trans (if_pos rfl)
  have hheld : opened.disk.held? (collectionKey "s") = some (deposit.record "s") :=
    (Disk.held?_of_file hnode).trans (Record.read_written (deposit.tidy?_record_value "s")
      (deposit.fits_record_value "s") (by decide) (Deposit.expiry_lt _ _))
  have hland : ¬ Op.Lands "s" opened 0 (.invalidate (collectionKey "s"))
      (opened.invalidate (collectionKey "s")) := by
    have hkept : (opened.invalidate (collectionKey "s")).disk.node? (fileOf "s") =
        opened.disk.node? (fileOf "s") := rfl
    rw [Op.Lands, Op.leaves?, if_pos rfl, hkept, hnode]
    simp
  have hnone : NoneLands "s" ops opened 0 :=
    NoneLands.cons rfl hland trivial
  have hempty : ((opened.invalidate (collectionKey "s")).memory.lookup 0 (collectionKey "s")
      none).1 = none := rfl
  have hfound := hstays opened (opened.invalidate (collectionKey "s")) 0 0 (deposit.record "s") hrun
    hnone (by simp [ops, Op.Separates, Op.fileKeys]) hheld rfl rfl rfl (by simp [hempty])
  refine ⟨_, 0, hrun, ?_⟩
  rw [hfound]
  exact Deposit.collection?_record (by decide) (by decide) none

end SymbolAtlas.Cache
