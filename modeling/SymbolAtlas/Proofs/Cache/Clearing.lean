import SymbolAtlas.Proofs.Cache.Superseded
import SymbolAtlas.Proofs.TreeMap

/-!
# What clearing removes

Clearing goes through the directory in the order in which it is listed, and takes every file for one
of its own that has the name ending of a record or of a temporary file. A folder with such a name
cannot be removed, and ends it. So it removes the files with these endings that are listed before
the first such folder, and nothing else.
-/

namespace SymbolAtlas.Cache

namespace Record

/-- Whether a name is that of the record or of the temporary file of some key. -/
def IsNamed (name : String) : Prop := ∃ key, name = fileName key ∨ name = temporaryName key

theorem isNamed_fileName (key : String) : IsNamed (fileName key) := ⟨key, .inl rfl⟩

/-- The names of records and temporary files are those of digests. -/
theorem IsNamed.length_le {name : String} (h : IsNamed name) : 64 ≤ name.length := by
  have hstem (key : String) : (stem key).length = 64 := Sha256.length_hex key
  obtain ⟨key, rfl | rfl⟩ := h
  · rw [fileName, String.length_append, hstem]
    exact Nat.le_add_right _ _
  · rw [temporaryName, String.length_append, hstem]
    exact Nat.le_add_right _ _

end Record

namespace Disk

/-- The directory is there, and no access to it fails. -/
structure Accessible (d : Disk) : Prop where
  directory : ∃ nodes, d.site = .directory nodes
  faultless : d.faults = []

/-- An order in which the entries of the directory can be listed. -/
def Lists (d : Disk) (names : List String) : Prop :=
  names.Nodup ∧ ∀ name, name ∈ names ↔ (d.node? name).isSome

/-- Clearing, where the directory is listed in some order. -/
def clearIn (names : List String) (d : Disk) : Disk := d.removeEach (names.filter Record.isOwn)

/-- A folder with the name ending of a record or a temporary file. -/
def Stops (d : Disk) (name : String) : Prop :=
  Record.isOwn name = true ∧ d.node? name = some .folder

/-- Whether a name is listed with no such folder before it. -/
def Reaches (d : Disk) (names : List String) (name : String) : Prop :=
  ∃ before after, names = before ++ name :: after ∧ ∀ other ∈ before, ¬ d.Stops other

/-- Whether clearing removes what stands under a name. -/
def Removes (d : Disk) (names : List String) (name : String) : Prop :=
  Record.isOwn name = true ∧ d.node? name ≠ some .folder ∧ d.Reaches names name

variable {d : Disk} {names : List String} {name first : String}

theorem Accessible.eq (h : d.Accessible) : ∃ nodes, d = { site := .directory nodes } := by
  obtain ⟨site, faults⟩ := d
  obtain ⟨⟨nodes, hsite⟩, hfaults⟩ := h
  dsimp only at hsite hfaults
  subst hsite hfaults
  exact ⟨nodes, rfl⟩

theorem accessible_nodes (nodes : Std.TreeMap String Node) :
    Accessible { site := .directory nodes } := ⟨⟨nodes, rfl⟩, rfl⟩

/-! ## Listings -/

theorem Accessible.lists_keys (h : d.Accessible) :
    ∃ names, d.Lists names ∧ d.clear = d.clearIn names := by
  obtain ⟨nodes, rfl⟩ := h.eq
  refine ⟨nodes.keys, ⟨nodup_keys nodes, fun name => ?_⟩, rfl⟩
  rw [Std.TreeMap.mem_keys, node?_of_site rfl, Std.TreeMap.isSome_getElem?_iff_mem]

/-- Any entry may be listed first. -/
theorem Accessible.exists_lists_first (h : d.Accessible) (hname : (d.node? name).isSome) :
    ∃ rest, d.Lists (name :: rest) := by
  obtain ⟨names, ⟨hnodup, hmem⟩, -⟩ := h.lists_keys
  have hperm : names.Perm (name :: names.erase name) :=
    List.perm_cons_erase ((hmem name).mpr hname)
  exact ⟨names.erase name, hperm.nodup_iff.mp hnodup,
    fun other => hperm.mem_iff.symm.trans (hmem other)⟩

/-! ## Removing in a row -/

theorem reaches_cons :
    d.Reaches (first :: names) name ↔ name = first ∨ ¬ d.Stops first ∧ d.Reaches names name := by
  constructor
  · rintro ⟨before, after, hsplit, hfree⟩
    cases before with
    | nil => exact .inl (List.cons.inj hsplit).1.symm
    | cons other before =>
        obtain ⟨rfl, hrest⟩ := List.cons.inj hsplit
        rw [List.forall_mem_cons] at hfree
        exact .inr ⟨hfree.1, before, after, hrest, hfree.2⟩
  · rintro (rfl | ⟨hfirst, before, after, rfl, hfree⟩)
    · exact ⟨[], names, rfl, by simp⟩
    · exact ⟨first :: before, after, rfl, List.forall_mem_cons.mpr ⟨hfirst, hfree⟩⟩

theorem not_reaches_nil : ¬ d.Reaches [] name := by
  rintro ⟨before, after, hsplit, -⟩
  exact absurd hsplit.symm (List.append_ne_nil_of_right_ne_nil _ (List.cons_ne_nil _ _))

theorem reaches_of_mem (hfree : ∀ other, ¬ d.Stops other) (h : name ∈ names) :
    d.Reaches names name := by
  obtain ⟨before, after, hsplit⟩ := List.append_of_mem h
  exact ⟨before, after, hsplit, fun other _ => hfree other⟩

/-- A name that is listed first is removed if it is that of a file to remove. -/
theorem removes_cons (hfirst : ¬ d.Stops first) :
    d.Removes (first :: names) name ↔
      name = first ∧ Record.isOwn name = true ∧ d.node? name ≠ some .folder ∨
        d.Removes names name := by
  unfold Removes
  rw [reaches_cons, and_iff_right hfirst]
  tauto

section Gone

variable {d' : Disk} (hgone : ∀ name, d'.node? name = if name = first then none else d.node? name)
include hgone

theorem stops_of_gone (hfirst : ¬ d.Stops first) (other : String) :
    d'.Stops other ↔ d.Stops other := by
  unfold Stops at hfirst ⊢
  rw [hgone]
  by_cases hother : other = first
  · rw [if_pos hother, hother]
    exact iff_of_false (by simp) hfirst
  · rw [if_neg hother]

theorem removes_of_gone (hfirst : ¬ d.Stops first) (hname : name ≠ first) :
    d'.Removes names name ↔ d.Removes names name := by
  unfold Removes Reaches
  simp only [stops_of_gone hgone hfirst, hgone, if_neg hname]

end Gone

/-! ### Steps -/

theorem clearIn_cons_of_foreign (h : ¬ Record.isOwn first = true) :
    d.clearIn (first :: names) = d.clearIn names := by
  unfold clearIn
  rw [List.filter_cons_of_neg h]

/-- After a folder that cannot be removed nothing more is. -/
theorem Accessible.clearIn_cons_of_stops (h : d.Accessible) (hstops : d.Stops first) :
    d.clearIn (first :: names) = d := by
  obtain ⟨nodes, rfl⟩ := h.eq
  have hfolder : nodes[first]? = some .folder := hstops.2
  unfold clearIn
  rw [List.filter_cons_of_pos hstops.1, removeEach]
  unfold remove
  rw [access_of_faultless rfl]
  simp [hfolder]

theorem Accessible.clearIn_cons_of_file (h : d.Accessible) (hown : Record.isOwn first = true)
    (hfile : d.node? first ≠ some .folder) (names : List String) :
    ∃ d' : Disk, d'.Accessible ∧ d.clearIn (first :: names) = d'.clearIn names ∧
      ∀ name, d'.node? name = if name = first then none else d.node? name := by
  obtain ⟨nodes, rfl⟩ := h.eq
  refine ⟨{ site := .directory (nodes.erase first) }, accessible_nodes _, ?_,
    getElem?_erase_eq nodes first⟩
  unfold clearIn
  rw [List.filter_cons_of_pos hown, removeEach, remove_nodes hfile]

open Classical in
/-- Exactly what clearing reaches is removed, and all else stays as it is. -/
theorem Accessible.node?_clearIn (h : d.Accessible) (names : List String) :
    (d.clearIn names).Accessible ∧
      ∀ name, (d.clearIn names).node? name =
        if d.Removes names name then none else d.node? name := by
  induction names generalizing d with
  | nil => exact ⟨h, fun name => (if_neg fun hgone => not_reaches_nil hgone.2.2).symm⟩
  | cons first names ih =>
      by_cases hstops : d.Stops first
      · rw [h.clearIn_cons_of_stops hstops]
        refine ⟨h, fun name => (if_neg ?_).symm⟩
        rintro ⟨-, hfile, hreached⟩
        rcases reaches_cons.mp hreached with rfl | ⟨hfirst, -⟩
        · exact hfile hstops.2
        · exact hfirst hstops
      by_cases hown : Record.isOwn first = true
      · have hfile : d.node? first ≠ some .folder := fun hfolder => hstops ⟨hown, hfolder⟩
        obtain ⟨d', haccessible, hcleared, hgone⟩ := h.clearIn_cons_of_file hown hfile names
        obtain ⟨hleft, hremoved⟩ := ih haccessible
        rw [hcleared]
        refine ⟨hleft, fun name => ?_⟩
        rw [hremoved, hgone]
        by_cases hname : name = first
        · have hfirst : d.Removes (first :: names) name :=
            (removes_cons hstops).mpr (.inl ⟨hname, hname ▸ hown, hname ▸ hfile⟩)
          rw [if_pos hname, if_pos hfirst, ite_self]
        · have hlater : d'.Removes names name ↔ d.Removes (first :: names) name := by
            rw [removes_of_gone hgone hstops hname, removes_cons hstops]
            simp [hname]
          rw [if_neg hname]
          exact if_congr hlater rfl rfl
      · rw [clearIn_cons_of_foreign hown]
        obtain ⟨hleft, hremoved⟩ := ih h
        refine ⟨hleft, fun name => ?_⟩
        have hlater : d.Removes names name ↔ d.Removes (first :: names) name := by
          rw [removes_cons hstops]
          refine ⟨.inr, ?_⟩
          rintro (⟨rfl, hname, -⟩ | hlater)
          · exact absurd hname hown
          · exact hlater
        rw [hremoved]
        exact if_congr hlater rfl rfl

theorem Accessible.record?_fst (h : d.Accessible) (key : String) :
    (d.record? key).1 = d.held? key := by
  rw [record?_eq_of_access, access_of_faultless h.faultless]
  rfl

open Classical in
/-- A record can still be read just when some folder kept clearing from reaching its file. -/
theorem Accessible.record?_clearIn (h : d.Accessible) (names : List String) (key : String) :
    ((d.clearIn names).record? key).1 =
      if d.Reaches names (Record.fileName key) then none else (d.record? key).1 := by
  obtain ⟨hleft, hnodes⟩ := h.node?_clearIn names
  rw [hleft.record?_fst, h.record?_fst]
  by_cases hreached : d.Reaches names (Record.fileName key)
  · rw [if_pos hreached]
    by_cases hfolder : d.node? (Record.fileName key) = some .folder
    · have hkept : (d.clearIn names).node? (Record.fileName key) = some .folder := by
        rw [hnodes, if_neg fun hremoved => hremoved.2.1 hfolder, hfolder]
      unfold held?
      rw [hkept]
    · have hgone : (d.clearIn names).node? (Record.fileName key) = none := by
        rw [hnodes, if_pos ⟨Record.isOwn_fileName key, hfolder, hreached⟩]
      exact held?_of_missing hgone
  · rw [if_neg hreached]
    have hkept : (d.clearIn names).node? (Record.fileName key) =
        d.node? (Record.fileName key) := by
      rw [hnodes, if_neg fun hremoved => hreached hremoved.2.2]
    exact held?_congr hkept

/-- What can be read stands in a file. -/
theorem Accessible.exists_file (h : d.Accessible) {key : String}
    (hread : (d.record? key).1.isSome) :
    ∃ text, d.node? (Record.fileName key) = some (.file text) := by
  rw [h.record?_fst] at hread
  unfold held? at hread
  split at hread
  · next text hfile => exact ⟨text, hfile⟩
  · cases hread

end Disk

/-! ## Clearing a cache -/

variable {V : Type} {c : Cache V}

/-- Clearing, where the directory is listed in some order. -/
def clearIn (names : List String) (c : Cache V) : Cache V :=
  { c with memory := c.memory.clear }.onDisk (·.clearIn names)

/-- What clearing is to achieve: no key that had a record has one that can be read, and what has
another name than the files of a key is still there. -/
def ClearsOwn (c : Cache V) (names : List String) : Prop :=
  (∀ key, (c.disk.record? key).1.isSome → ((c.clearIn names).disk.record? key).1 = none) ∧
  ∀ name, ¬ Record.IsNamed name → (c.clearIn names).disk.node? name = c.disk.node? name

theorem clearIn_disk (hdurable : c.durable = true) (names : List String) :
    (c.clearIn names).disk = c.disk.clearIn names := by
  unfold clearIn
  rw [onDisk_disk, if_pos hdurable]

theorem clearIn_memory (c : Cache V) (names : List String) :
    (c.clearIn names).memory = c.memory.clear := onDisk_memory _ _

theorem clear_eq_clearIn (hdurable : c.durable = true) {names : List String}
    (h : c.disk.clear = c.disk.clearIn names) : c.clear = c.clearIn names := by
  unfold Cache.clear clearIn onDisk
  rw [if_pos hdurable, if_pos hdurable, h]

/-- A collection is found after clearing just when its record can still be read. -/
theorem getCollection_clearIn (hdurable : c.durable = true) (h : c.disk.Accessible)
    (names : List String) (now : Nat) (solution : String) (version : Option String) :
    ((c.clearIn names).getCollection now solution version).1 =
      ((c.clearIn names).disk.record? (collectionKey solution)).1.bind fun r =>
        r.collection? now version := by
  have hleft : (c.clearIn names).disk.Accessible := by
    rw [clearIn_disk hdurable]
    exact (h.node?_clearIn names).1
  have hused : (c.clearIn names).durable = true := by
    unfold clearIn onDisk
    rw [if_pos hdurable]
    exact hdurable
  have hempty : ((c.clearIn names).memory.lookup now (collectionKey solution) version) =
      (none, c.memory.clear) := by
    rw [clearIn_memory]
    rfl
  rcases getCollection_cases (c.clearIn names) now solution version with
    ⟨found, hfound, -⟩ | ⟨c', rfl, heq⟩
  · rw [hempty] at hfound
    cases hfound
  · have haccess : (c.clearIn names).disk.access.1 = false := by
      rw [Disk.access_of_faultless hleft.faultless]
    rw [heq, promote_found, if_pos ⟨hused, haccess⟩, hleft.record?_fst]

/-- A listing in which the folder comes first keeps every record, and one in which a file comes
first loses that file. -/
theorem forall_clearsOwn_iff (hdurable : c.durable = true) (h : c.disk.Accessible) :
    (∀ names, c.disk.Lists names → c.ClearsOwn names) ↔
      ((∃ key, (c.disk.record? key).1.isSome) → ∀ name, ¬ c.disk.Stops name) ∧
      ∀ name text, Record.isOwn name = true → c.disk.node? name = some (.file text) →
        Record.IsNamed name := by
  have hnodes (names) := (h.node?_clearIn names).2
  constructor
  · intro hclears
    constructor
    · rintro ⟨key, hkey⟩ name hstops
      obtain ⟨text, hfile⟩ := h.exists_file hkey
      have hthere : (c.disk.node? name).isSome := by rw [hstops.2]; rfl
      obtain ⟨rest, hlists⟩ := h.exists_lists_first hthere
      have hgone := (hclears _ hlists).1 key hkey
      have hunreached : ¬ c.disk.Reaches (name :: rest) (Record.fileName key) := by
        rw [Disk.reaches_cons]
        rintro (heq | ⟨hfirst, -⟩)
        · rw [heq, hstops.2] at hfile
          cases hfile
        · exact hfirst hstops
      rw [clearIn_disk hdurable, h.record?_clearIn, if_neg hunreached] at hgone
      rw [hgone] at hkey
      cases hkey
    · intro name text hown hfile
      by_contra hforeign
      have hthere : (c.disk.node? name).isSome := by rw [hfile]; rfl
      obtain ⟨rest, hlists⟩ := h.exists_lists_first hthere
      have hkept := (hclears _ hlists).2 name hforeign
      have hremoved : c.disk.Removes (name :: rest) name :=
        ⟨hown, by rw [hfile]; simp, Disk.reaches_cons.mpr (.inl rfl)⟩
      rw [clearIn_disk hdurable, hnodes, if_pos hremoved, hfile] at hkept
      cases hkept
  · rintro ⟨hfree, hnamed⟩ names ⟨-, hmem⟩
    constructor
    · intro key hkey
      obtain ⟨text, hfile⟩ := h.exists_file hkey
      have hlisted : Record.fileName key ∈ names := (hmem _).mpr (by rw [hfile]; rfl)
      have hreached := Disk.reaches_of_mem (hfree ⟨key, hkey⟩) hlisted
      rw [clearIn_disk hdurable, h.record?_clearIn, if_pos hreached]
    · intro name hforeign
      rw [clearIn_disk hdurable, hnodes]
      split_ifs with hremoved
      · cases hnode : c.disk.node? name with
        | none => rfl
        | some node =>
            cases node with
            | file text => exact absurd (hnamed name text hremoved.1 hnode) hforeign
            | folder => exact absurd hnode hremoved.2.1
      · rfl

/-- Clearing removes what is named like a record, up to the first folder that is. In whatever order
the directory is listed, the memory is empty afterwards, and of the directory exactly those files
are gone that have the ending of a record or of a temporary file and are listed before the first
folder with such an ending. A record whose file is listed after one can be read as before, and the
collection in it is found again. So clearing removes all records and nothing but the files of keys
in every order if and only if no such folder is there, or no record, and all files with such an
ending are those of keys. -/
theorem clear_removes (c : Cache V) (hdurable : c.durable = true) (h : c.disk.Accessible) :
    (∃ names, c.disk.Lists names ∧ c.clear = c.clearIn names) ∧
    (∀ names, c.disk.Lists names →
      (c.clearIn names).isEmpty = true ∧
      (∀ name, c.disk.Removes names name → (c.clearIn names).disk.node? name = none) ∧
      (∀ name, ¬ c.disk.Removes names name →
        (c.clearIn names).disk.node? name = c.disk.node? name) ∧
      (∀ key, c.disk.Reaches names (Record.fileName key) →
        ((c.clearIn names).disk.record? key).1 = none) ∧
      (∀ key, ¬ c.disk.Reaches names (Record.fileName key) →
        ((c.clearIn names).disk.record? key).1 = (c.disk.record? key).1) ∧
      ∀ now solution version, ((c.clearIn names).getCollection now solution version).1 =
        ((c.clearIn names).disk.record? (collectionKey solution)).1.bind fun r =>
          r.collection? now version) ∧
    ((∀ names, c.disk.Lists names → c.ClearsOwn names) ↔
      ((∃ key, (c.disk.record? key).1.isSome) → ∀ name, ¬ c.disk.Stops name) ∧
      ∀ name text, Record.isOwn name = true → c.disk.node? name = some (.file text) →
        Record.IsNamed name) := by
  refine ⟨?_, fun names _ => ⟨?_, ?_, ?_, ?_, ?_, ?_⟩, forall_clearsOwn_iff hdurable h⟩
  · obtain ⟨names, hlists, hclear⟩ := h.lists_keys
    exact ⟨names, hlists, clear_eq_clearIn hdurable hclear⟩
  · unfold isEmpty
    rw [clearIn_memory]
    rfl
  · intro name hremoved
    rw [clearIn_disk hdurable, (h.node?_clearIn names).2, if_pos hremoved]
  · intro name hkept
    rw [clearIn_disk hdurable, (h.node?_clearIn names).2, if_neg hkept]
  · intro key hreached
    rw [clearIn_disk hdurable, h.record?_clearIn, if_pos hreached]
  · intro key hunreached
    rw [clearIn_disk hdurable, h.record?_clearIn, if_neg hunreached]
  · exact getCollection_clearIn hdurable h names

/-- A file of someone else is removed, and a folder after it saves the record that is listed last,
so that what was cleared is found again. -/
theorem clear_removes_of_foreign_entries :
    let deposit : Deposit := ⟨{ errors := [{ project := "P", message := "gone" }] }, 0, 60, none⟩
    let foreign : Std.TreeMap String Node :=
      (({} : Std.TreeMap String Node).insert "notes.json" (.file "notes")).insert "a.json" .folder
    let nodes := foreign.insert (fileOf "s") (.file (deposit.record "s").toJson.compact)
    let c : Cache Nat := .new { directory := some ⟨"cache"⟩ } { site := .directory nodes }
    let names := ["notes.json", "a.json", fileOf "s"]
    c.durable = true ∧ c.disk.Accessible ∧ c.disk.Lists names ∧
    ¬ Record.IsNamed "notes.json" ∧ c.disk.node? "notes.json" = some (.file "notes") ∧
    (c.clearIn names).disk.node? "notes.json" = none ∧
    ((c.clearIn names).disk.record? (collectionKey "s")).1 = some (deposit.record "s") ∧
    Option.Rel Collection.Equiv ((c.clearIn names).getCollection 0 "s" none).1
      (some deposit.collected) := by
  intro deposit foreign nodes c names
  have hlength : 64 ≤ (fileOf "s").length := (Record.isNamed_fileName _).length_le
  have hnotes : "notes.json" ≠ fileOf "s" := fun heq => absurd (heq ▸ hlength) (by decide)
  have hfolder : "a.json" ≠ fileOf "s" := fun heq => absurd (heq ▸ hlength) (by decide)
  have haccessible : c.disk.Accessible := Disk.accessible_nodes _
  have hnode (name : String) : c.disk.node? name =
      if name = fileOf "s" then some (.file (deposit.record "s").toJson.compact)
      else if name = "a.json" then some .folder
      else if name = "notes.json" then some (.file "notes") else none := by
    change (foreign.insert _ _)[name]? = _
    rw [Disk.getElem?_insert_eq, Disk.getElem?_insert_eq, Disk.getElem?_insert_eq,
      Std.TreeMap.getElem?_emptyc]
  have hlists : c.disk.Lists names := by
    refine ⟨by simp [names, hnotes, hfolder], fun name => ?_⟩
    rw [hnode]
    simp only [names, List.mem_cons, List.not_mem_nil, or_false]
    split_ifs <;> simp [*]
  have hforeign : ¬ Record.IsNamed "notes.json" :=
    fun hnamed => absurd hnamed.length_le (by decide)
  have hfile : c.disk.node? "notes.json" = some (.file "notes") := by
    rw [hnode, if_neg hnotes, if_neg (by decide), if_pos rfl]
  obtain ⟨-, hany, -⟩ := clear_removes c rfl haccessible
  obtain ⟨-, hremoves, -, -, hkeeps, hfound⟩ := hany names hlists
  have hremoved : c.disk.Removes names "notes.json" :=
    ⟨by decide +kernel, by rw [hfile]; simp, Disk.reaches_cons.mpr (.inl rfl)⟩
  have hunreached : ¬ c.disk.Reaches names (fileOf "s") := by
    have hstops : c.disk.Stops "a.json" :=
      ⟨by decide +kernel, by rw [hnode, if_neg hfolder, if_pos rfl]⟩
    rw [Disk.reaches_cons, Disk.reaches_cons]
    rintro (heq | ⟨-, heq | ⟨hfirst, -⟩⟩)
    · exact hnotes heq.symm
    · exact hfolder heq.symm
    · exact hfirst hstops
  have hheld : (c.disk.record? (collectionKey "s")).1 = some (deposit.record "s") := by
    rw [haccessible.record?_fst]
    exact (Disk.held?_of_file ((hnode _).trans (if_pos rfl))).trans
      (Record.read_written (deposit.tidy?_record_value "s") (deposit.fits_record_value "s")
        (by decide) (Deposit.expiry_lt _ _))
  have hkept := (hkeeps _ hunreached).trans hheld
  refine ⟨rfl, haccessible, hlists, hforeign, hfile, hremoves _ hremoved, hkept, ?_⟩
  rw [hfound, hkept]
  exact Deposit.collection?_record (by decide) (by decide) none

end SymbolAtlas.Cache
