import SymbolAtlas.Proofs.Cache.Record

/-!
# What the directory of the durable tier holds

In a directory that can be used without faults a record can be read once it was written, until it
is written again, removed or cleared. All other files stay as they are.
-/

namespace SymbolAtlas.Cache

namespace Disk

/-- What stands under a name; nothing if there is no directory. -/
def node? (d : Disk) (name : String) : Option Node :=
  match d.site with
  | .directory nodes => nodes[name]?
  | _ => none

/-- The directory is there, no access to it fails, and no folder has the name of a record or of a
temporary file. -/
structure Usable (d : Disk) : Prop where
  directory : ∃ nodes, d.site = .directory nodes
  faultless : d.faults = []
  files : ∀ name, Record.isOwn name = true → d.node? name ≠ some .folder

variable {d : Disk}

theorem access_of_faultless (h : d.faults = []) : d.access = (false, d) := by
  unfold access
  rw [h]

section Nodes

variable {nodes : Std.TreeMap String Node}

theorem node?_of_site (h : d.site = .directory nodes) (name : String) :
    d.node? name = nodes[name]? := by
  unfold node?
  rw [h]

theorem usable_of_nodes (h : ∀ name, Record.isOwn name = true → nodes[name]? ≠ some .folder) :
    Usable { site := .directory nodes } :=
  ⟨⟨nodes, rfl⟩, rfl, h⟩

theorem Usable.eq (h : d.Usable) : ∃ nodes, d = { site := .directory nodes } ∧
    ∀ name, Record.isOwn name = true → nodes[name]? ≠ some .folder := by
  obtain ⟨⟨nodes, hsite⟩, hfaults, hfiles⟩ := h
  refine ⟨nodes, ?_, ?_⟩
  · obtain ⟨site, faults⟩ := d
    subst hsite hfaults
    rfl
  · intro name hown
    rw [← node?_of_site hsite]
    exact hfiles name hown

theorem write_nodes {name text : String} (h : nodes[name]? ≠ some .folder) :
    write { site := .directory nodes } name text =
      (true, { site := .directory (nodes.insert name (.file text)) }) := by
  unfold write
  rw [access_of_faultless rfl]
  simp [h]

theorem rename_nodes {name newName text : String} (h : nodes[name]? = some (.file text))
    (hnew : nodes[newName]? ≠ some .folder) :
    rename { site := .directory nodes } name newName =
      (true, { site := .directory ((nodes.erase name).insert newName (.file text)) }) := by
  unfold rename
  rw [access_of_faultless rfl]
  simp [h, hnew]

theorem remove_nodes {name : String} (h : nodes[name]? ≠ some .folder) :
    remove { site := .directory nodes } name =
      (true, { site := .directory (nodes.erase name) }) := by
  unfold remove
  rw [access_of_faultless rfl]
  simp [h]

theorem getElem?_insert_eq (nodes : Std.TreeMap String Node) (name other : String) (n : Node) :
    (nodes.insert name n)[other]? = if other = name then some n else nodes[other]? := by
  rw [Std.TreeMap.getElem?_insert]
  simp only [Std.LawfulEqCmp.compare_eq_iff_eq, eq_comm (a := name)]

theorem getElem?_erase_eq (nodes : Std.TreeMap String Node) (name other : String) :
    (nodes.erase name)[other]? = if other = name then none else nodes[other]? := by
  rw [Std.TreeMap.getElem?_erase]
  simp only [Std.LawfulEqCmp.compare_eq_iff_eq, eq_comm (a := name)]

/-- What stands under the names after a record was written. -/
def written (r : Record) (nodes : Std.TreeMap String Node) : Std.TreeMap String Node :=
  let text := Node.file r.toJson.compact
  ((nodes.insert (Record.temporaryName r.key) text).erase (Record.temporaryName r.key)).insert
    (Record.fileName r.key) text

theorem getElem?_written (r : Record) (name : String) :
    (written r nodes)[name]? =
      if name = Record.fileName r.key then some (.file r.toJson.compact)
      else if name = Record.temporaryName r.key then none
      else nodes[name]? := by
  unfold written
  rw [getElem?_insert_eq, getElem?_erase_eq, getElem?_insert_eq]
  split_ifs <;> rfl

theorem writeRecord_nodes (r : Record)
    (h : ∀ name, Record.isOwn name = true → nodes[name]? ≠ some .folder) :
    writeRecord { site := .directory nodes } r = { site := .directory (written r nodes) } := by
  have htemporary := h _ (Record.isOwn_temporaryName r.key)
  have hfile := h _ (Record.isOwn_fileName r.key)
  have hne := Record.fileName_ne_temporaryName r.key r.key
  unfold writeRecord
  rw [write_nodes htemporary]
  simp only
  rw [rename_nodes]
  · rfl
  · rw [getElem?_insert_eq, if_pos rfl]
  · rw [getElem?_insert_eq, if_neg hne]
    exact hfile

theorem removeRecord_nodes (key : String)
    (h : ∀ name, Record.isOwn name = true → nodes[name]? ≠ some .folder) :
    removeRecord { site := .directory nodes } key =
      { site := .directory (nodes.erase (Record.fileName key)) } := by
  unfold removeRecord
  rw [remove_nodes (h _ (Record.isOwn_fileName key))]

/-- Files are removed one by one up to the last, if none of them is a folder. -/
theorem removeEach_nodes {names : List String} (h : ∀ name ∈ names, nodes[name]? ≠ some .folder) :
    ∃ left, removeEach { site := .directory nodes } names = { site := .directory left } ∧
      ∀ name, left[name]? = if name ∈ names then none else nodes[name]? := by
  induction names generalizing nodes with
  | nil => exact ⟨nodes, rfl, fun name => by simp⟩
  | cons first names ih =>
      rw [List.forall_mem_cons] at h
      have hrest : ∀ name ∈ names, (nodes.erase first)[name]? ≠ some .folder := by
        intro name hname
        rw [getElem?_erase_eq]
        split_ifs
        · simp
        · exact h.2 name hname
      obtain ⟨left, hleft, hnodes⟩ := ih hrest
      refine ⟨left, ?_, ?_⟩
      · rw [removeEach, remove_nodes h.1]
        exact hleft
      · intro name
        rw [hnodes, getElem?_erase_eq]
        by_cases hfirst : name = first
        · simp [hfirst]
        · simp [hfirst]

theorem clear_nodes (h : ∀ name, Record.isOwn name = true → nodes[name]? ≠ some .folder) :
    ∃ left, clear { site := .directory nodes } = { site := .directory left } ∧
      ∀ name, left[name]? = if Record.isOwn name then none else nodes[name]? := by
  have hown : ∀ name ∈ nodes.keys.filter Record.isOwn, nodes[name]? ≠ some .folder :=
    fun name hname => h name (List.mem_filter.1 hname).2
  obtain ⟨left, hleft, hnodes⟩ := removeEach_nodes hown
  refine ⟨left, ?_, ?_⟩
  · have hlist : list? { site := .directory nodes } =
        (some nodes.keys, { site := .directory nodes }) := by
      unfold list?
      rw [access_of_faultless rfl]
      rfl
    unfold clear
    rw [hlist]
    exact hleft
  · intro name
    rw [hnodes]
    by_cases hname : Record.isOwn name = true
    · rw [if_pos hname]
      split_ifs with hmem
      · rfl
      · have habsent : ¬ name ∈ nodes := by
          intro hin
          exact hmem (List.mem_filter.2 ⟨Std.TreeMap.mem_keys.2 hin, hname⟩)
        exact Std.TreeMap.getElem?_eq_none habsent
    · rw [if_neg hname, if_neg fun hmem => hname (List.mem_filter.1 hmem).2]

end Nodes

/-! ## Writing, removing and clearing -/

theorem node?_writeRecord (h : d.Usable) (r : Record) (name : String) :
    (d.writeRecord r).node? name =
      if name = Record.fileName r.key then some (.file r.toJson.compact)
      else if name = Record.temporaryName r.key then none
      else d.node? name := by
  obtain ⟨nodes, rfl, hfiles⟩ := h.eq
  rw [writeRecord_nodes r hfiles]
  exact getElem?_written r name

theorem usable_writeRecord (h : d.Usable) (r : Record) : (d.writeRecord r).Usable := by
  obtain ⟨nodes, rfl, hfiles⟩ := h.eq
  rw [writeRecord_nodes r hfiles]
  apply usable_of_nodes
  intro name hown
  rw [getElem?_written]
  split_ifs
  · simp
  · simp
  · exact hfiles name hown

theorem node?_removeRecord (h : d.Usable) (key name : String) :
    (d.removeRecord key).node? name =
      if name = Record.fileName key then none else d.node? name := by
  obtain ⟨nodes, rfl, hfiles⟩ := h.eq
  rw [removeRecord_nodes key hfiles]
  exact getElem?_erase_eq nodes (Record.fileName key) name

theorem usable_removeRecord (h : d.Usable) (key : String) : (d.removeRecord key).Usable := by
  obtain ⟨nodes, rfl, hfiles⟩ := h.eq
  rw [removeRecord_nodes key hfiles]
  apply usable_of_nodes
  intro name hown
  rw [getElem?_erase_eq]
  split_ifs
  · simp
  · exact hfiles name hown

theorem node?_clear (h : d.Usable) (name : String) :
    d.clear.node? name = if Record.isOwn name then none else d.node? name := by
  obtain ⟨nodes, rfl, hfiles⟩ := h.eq
  obtain ⟨left, hleft, hnodes⟩ := clear_nodes hfiles
  rw [hleft]
  exact hnodes name

theorem usable_clear (h : d.Usable) : d.clear.Usable := by
  obtain ⟨nodes, rfl, hfiles⟩ := h.eq
  obtain ⟨left, hleft, hnodes⟩ := clear_nodes hfiles
  rw [hleft]
  apply usable_of_nodes
  intro name hown
  rw [hnodes, if_pos hown]
  simp

/-! ## Reading records -/

/-- The record of a key, by what stands under the name of its file. -/
def held? (d : Disk) (key : String) : Option Record :=
  match d.node? (Record.fileName key) with
  | some (.file text) => (Json.parse text).bind Record.ofJson?
  | _ => none

theorem record?_eq (h : d.Usable) (key : String) : d.record? key = (d.held? key, d) := by
  obtain ⟨nodes, rfl, -⟩ := h.eq
  unfold record? held? read node?
  rw [access_of_faultless rfl]
  simp only
  cases nodes[Record.fileName key]? with
  | none => rfl
  | some n => cases n <;> rfl

theorem held?_writeRecord (h : d.Usable) {r : Record} (hvalue : r.value.tidy? = some r.value)
    (hfits : Json.Fits 126 r.value) (hinserted : r.inserted < 2 ^ 64)
    (hexpires : r.expires < 2 ^ 64) : (d.writeRecord r).held? r.key = some r := by
  unfold held?
  rw [node?_writeRecord h, if_pos rfl]
  exact Record.read_written hvalue hfits hinserted hexpires

theorem held?_writeRecord_ne (h : d.Usable) {r : Record} {key : String}
    (hne : Record.fileName r.key ≠ Record.fileName key) :
    (d.writeRecord r).held? key = d.held? key := by
  unfold held?
  rw [node?_writeRecord h, if_neg hne.symm, if_neg (Record.fileName_ne_temporaryName key r.key)]

theorem held?_removeRecord (h : d.Usable) (key : String) :
    (d.removeRecord key).held? key = none := by
  unfold held?
  rw [node?_removeRecord h, if_pos rfl]

theorem held?_removeRecord_ne (h : d.Usable) {key other : String}
    (hne : Record.fileName key ≠ Record.fileName other) :
    (d.removeRecord key).held? other = d.held? other := by
  unfold held?
  rw [node?_removeRecord h, if_neg hne.symm]

theorem held?_clear (h : d.Usable) (key : String) : d.clear.held? key = none := by
  unfold held?
  rw [node?_clear h, if_pos (Record.isOwn_fileName key)]

end Disk

end SymbolAtlas.Cache
