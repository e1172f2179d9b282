import SymbolAtlas.Proofs.Cache.Disk

/-!
# A directory whose accesses fail

Any access to the directory of the durable tier may fail, and a folder may stand where a file
should be. An operation on a record then leaves the file of the record as it was or as it was to
leave it, and nothing in between, since a record is written under another name first.
-/

namespace SymbolAtlas.Cache.Disk

/-! ## Single accesses -/

theorem site_access (d : Disk) : d.access.2.site = d.site := by
  unfold access
  cases d.faults <;> rfl

theorem node?_access (d : Disk) (name : String) : d.access.2.node? name = d.node? name := by
  unfold node?
  rw [site_access]

theorem node?_write (d : Disk) (name text other : String) :
    (d.write name text).2.node? other =
      if other = name ∧ (d.write name text).1 = true then some (.file text) else d.node? other := by
  rw [← node?_access d other]
  unfold write
  cases hsite : d.access.2.site with
  | directory nodes =>
      simp only [hsite]
      by_cases hfails : (d.access.1 || nodes[name]? == some .folder) = true
      · rw [if_pos hfails]
        simp
      · rw [if_neg hfails, node?_of_site hsite, node?_of_site rfl, getElem?_insert_eq]
        simp
  | absent => simp [hsite]
  | blocked => simp [hsite]

theorem node?_remove (d : Disk) (name other : String) :
    (d.remove name).2.node? other =
      if other = name ∧ (d.remove name).1 = true then none else d.node? other := by
  rw [← node?_access d other]
  unfold remove
  cases hsite : d.access.2.site with
  | directory nodes =>
      simp only [hsite]
      by_cases hfails : (d.access.1 || nodes[name]? == some .folder) = true
      · rw [if_pos hfails]
        simp
      · rw [if_neg hfails, node?_of_site hsite, node?_of_site rfl, getElem?_erase_eq]
        simp
  | absent => simp [hsite, node?]
  | blocked => simp [hsite]

/-- A file takes the place of the one of its new name, or nothing changes. -/
theorem node?_rename (d : Disk) (name newName other : String) :
    (d.rename name newName).2.node? other = d.node? other ∨
      ∃ text, d.node? name = some (.file text) ∧
        (d.rename name newName).2.node? other =
          if other = newName then some (.file text)
          else if other = name then none
          else d.node? other := by
  rw [← node?_access d other, ← node?_access d name]
  unfold rename
  cases hsite : d.access.2.site with
  | directory nodes =>
      simp only [hsite, node?_of_site hsite]
      cases hnode : nodes[name]? with
      | none => exact .inl (node?_of_site hsite other)
      | some node =>
          cases node with
          | folder => exact .inl (node?_of_site hsite other)
          | file text =>
              simp only
              split
              · exact .inl (node?_of_site hsite other)
              · refine .inr ⟨text, rfl, ?_⟩
                rw [node?_of_site rfl, getElem?_insert_eq, getElem?_erase_eq]
  | absent => simp [hsite]
  | blocked => simp [hsite]

/-! ## Records -/

theorem node?_writeRecord_cases (d : Disk) (r : Record) (key : String) :
    (d.writeRecord r).node? (Record.fileName key) = d.node? (Record.fileName key) ∨
      Record.fileName r.key = Record.fileName key ∧
        (d.writeRecord r).node? (Record.fileName key) = some (.file r.toJson.compact) := by
  have hne := Record.fileName_ne_temporaryName key r.key
  have hwrite := node?_write d (Record.temporaryName r.key) r.toJson.compact
  unfold writeRecord
  rcases hresult : d.write (Record.temporaryName r.key) r.toJson.compact with ⟨written, d'⟩
  rw [hresult] at hwrite
  have hsame : d'.node? (Record.fileName key) = d.node? (Record.fileName key) := by
    rw [hwrite, if_neg fun h => hne h.1]
  cases written with
  | false => exact .inl hsame
  | true =>
      have htemporary : d'.node? (Record.temporaryName r.key) =
          some (.file r.toJson.compact) := by
        rw [hwrite, if_pos ⟨rfl, rfl⟩]
      rcases node?_rename d' (Record.temporaryName r.key) (Record.fileName r.key)
        (Record.fileName key) with hkept | ⟨text, htext, hrenamed⟩
      · exact .inl (hkept.trans hsame)
      · rw [htemporary] at htext
        obtain rfl := Node.file.inj (Option.some.inj htext)
        by_cases hname : Record.fileName key = Record.fileName r.key
        · exact .inr ⟨hname.symm, hrenamed.trans (if_pos hname)⟩
        · rw [if_neg hname, if_neg hne] at hrenamed
          exact .inl (hrenamed.trans hsame)

theorem node?_removeRecord_cases (d : Disk) (key other : String) :
    (d.removeRecord key).node? (Record.fileName other) = d.node? (Record.fileName other) ∨
      Record.fileName key = Record.fileName other ∧
        (d.removeRecord key).node? (Record.fileName other) = none := by
  unfold removeRecord
  rw [node?_remove]
  split
  · rename_i hgone
    exact .inr ⟨hgone.1.symm, rfl⟩
  · exact .inl rfl

theorem node?_removeEach_cases (names : List String) (d : Disk) (name : String) :
    (d.removeEach names).node? name = d.node? name ∨ (d.removeEach names).node? name = none := by
  induction names generalizing d with
  | nil => exact .inl rfl
  | cons first names ih =>
      have hremove := node?_remove d first name
      rw [removeEach]
      rcases hresult : d.remove first with ⟨removed, d'⟩
      rw [hresult] at hremove
      have hor : d'.node? name = d.node? name ∨ d'.node? name = none := by
        rw [hremove]
        split
        · exact .inr rfl
        · exact .inl rfl
      cases removed with
      | false => exact hor
      | true =>
          rcases ih d' with hsame | hnone
          · simp only [hsame]
            exact hor
          · exact .inr hnone

theorem node?_clear_cases (d : Disk) (name : String) :
    d.clear.node? name = d.node? name ∨ d.clear.node? name = none := by
  have hlist : d.list?.2.node? name = d.node? name := by
    rw [← node?_access d name]
    unfold list?
    cases hsite : d.access.2.site <;> simp [hsite]
  unfold clear
  rcases hresult : d.list? with ⟨names, d'⟩
  rw [hresult] at hlist
  cases names with
  | none => exact .inl hlist
  | some names =>
      rw [← hlist]
      exact node?_removeEach_cases _ d' name

/-- A read changes no file, and yields what stands there unless the access fails. -/
theorem record?_eq_of_access (d : Disk) (key : String) :
    d.record? key = (if d.access.1 = true then none else d.held? key, d.access.2) := by
  have hheld : d.held? key = d.access.2.held? key := by
    unfold held?
    rw [node?_access]
  rw [hheld]
  unfold record? read held? node?
  rcases d.access with ⟨fails, d'⟩
  cases fails with
  | true => rfl
  | false =>
      cases hsite : d'.site with
      | directory nodes =>
          simp only [hsite]
          cases nodes[Record.fileName key]? with
          | none => rfl
          | some node => cases node <;> rfl
      | absent => simp [hsite]
      | blocked => simp [hsite]

theorem held?_congr {d d' : Disk} {key : String}
    (h : d'.node? (Record.fileName key) = d.node? (Record.fileName key)) :
    d'.held? key = d.held? key := by
  unfold held?
  rw [h]

theorem held?_of_missing {d : Disk} {key : String}
    (h : d.node? (Record.fileName key) = none) : d.held? key = none := by
  unfold held?
  rw [h]

end SymbolAtlas.Cache.Disk
