import SymbolAtlas.Proofs.Config.Document
import SymbolAtlas.Proofs.Files.Writing

/-!
# Loading what was saved

A configuration that was saved in a named file is loaded over what the file of the user says. All
of its values count, but an option that is not set is left out of the file, so that the user's file
still decides it.
-/

namespace SymbolAtlas.Config

open Setting

/-- What is not set is as it was only if it is not taken from elsewhere. -/
theorem filled_eq_iff (c : Config) (folder : Option String) (parallelism : Option Nat) :
    c.filled folder parallelism = c ↔
      (c.cache.folder = none → folder = none) ∧
        (c.collector.parallelism = none → parallelism = none) := by
  obtain ⟨cache, search, updater, collector, logging⟩ := c
  obtain ⟨maxEntries, evictionRatio, ttl, cleanup, ownFolder⟩ := cache
  obtain ⟨extensions, ownParallelism, versionControl⟩ := collector
  cases ownFolder <;> cases ownParallelism <;> simp [filled]

/-- The text that was saved is in the file. -/
theorem fileText?_save {c : Config} {t t' : FileTree} {now : Nat} {p : Path} (ht : t.Proper)
    (hworking : t.isFolderAt t.workingFolder) (h : c.save t now p = .ok t') :
    ∃ fields, c.toToml? = some fields ∧ fileText? t' p = some (Toml.document fields) := by
  have hnames : ∀ s ∈ t.addressOf p.place.dropLast, Path.IsName s :=
    FileTree.isName_addressOf
      (FileTree.isName_of_node? ht (FileTree.isSome_node?_of_isFolderAt hworking))
      fun s hs => Path.isName_of_mem_place (List.dropLast_subset _ hs)
  unfold save at h
  dsimp only at h
  split at h
  · cases h
  · cases h
  · next created text hcreated htext =>
    cases hwrite : created.writeText? now p text with
    | none =>
      rw [hwrite] at h
      cases h
    | some written =>
      rw [hwrite] at h
      obtain rfl := Except.ok.inj h
      obtain ⟨hproper, hplace⟩ : created.Proper ∧ created.isFolderAt created.workingFolder := by
        split_ifs at hcreated
        · obtain rfl := Option.some.inj hcreated
          exact ⟨ht, hworking⟩
        · obtain ⟨hproper, hextends, hsame⟩ := ht.createFolder? hnames hcreated
          exact ⟨hproper, hsame ▸ hextends.isFolderAt _ hworking⟩
      obtain ⟨fields, hfields, rfl⟩ := Option.map_eq_some_iff.mp htext
      refine ⟨fields, hfields, ?_⟩
      rw [fileText?, hproper.readText?_writeText? hplace hwrite]
      rfl

variable {c u : Config} {t t' : FileTree} {e : Environment} {now : Nat} {p : Path} {user : Table}

/-- A named file is loaded over the file of the user. -/
theorem load_eq_ok {text : String} {file : Table}
    (huser : ((userFile? e).map (optionalFile? t)).getD (some []) = some user)
    (htext : fileText? t p = some text) (hfile : fileTable? text = some file)
    (hdecoded : ofSetting? (.table (layered [user, file, environmentTable e])) = some c) :
    load t e (some p) = .ok c := by
  cases hmapped : (userFile? e).map (optionalFile? t) with
  | none =>
    obtain rfl : [] = user := by simpa [hmapped] using huser
    simp [load, hmapped, htext, hfile, hdecoded, bind, Except.bind]
  | some table =>
    obtain rfl : table = some user := by simpa [hmapped] using huser
    simp [load, hmapped, htext, hfile, hdecoded, bind, Except.bind]

/-- A configuration that fits is saved where files can be written. -/
theorem Fits.exists_save {c : Config} (hc : c.Fits) {t : FileTree} {now : Nat} {p : Path}
    (hwritable : c.save t now p ≠ .error .unwritable) : ∃ t', c.save t now p = .ok t' := by
  obtain ⟨fields, hfields⟩ := hc.exists_toToml?
  have htext : c.toText? = some (Toml.document fields) := by rw [toText?, hfields]; rfl
  cases hsave : c.save t now p with
  | ok t' => exact ⟨t', rfl⟩
  | error fault =>
    cases fault with
    | unwritable => exact absurd hsave hwritable
    | tooGreat =>
      unfold save at hsave
      dsimp only at hsave
      split at hsave
      · cases hsave
      · next hnone =>
        rw [htext] at hnone
        cases hnone
      · split at hsave <;> cases hsave

/-- A configuration that was saved is loaded over the user's file with all of its values. What it
does not set, and the user's file does, is as the user's file says. -/
theorem load_save (ht : t.Proper) (hworking : t.isFolderAt t.workingFolder) (hc : c.Fits)
    (hwritable : c.save t now p ≠ .error .unwritable) (hvariables : environmentTable e = []) :
    ∃ t', c.save t now p = .ok t' ∧ ∀ user u,
      ((userFile? e).map (optionalFile? t')).getD (some []) = some user →
      ofSetting? (.table (layered [user])) = some u →
      ∃ folder parallelism,
        optionBelow asText? ((layered [user]).lookup "cache") "disk_dir" = some folder ∧
        optionBelow asNat64? ((layered [user]).lookup "collector") "parallelism" =
          some parallelism ∧
        load t' e (some p) = .ok (c.filled folder parallelism) ∧
        (load t' e (some p) = .ok c ↔
          (c.cache.folder = none → folder = none) ∧
            (c.collector.parallelism = none → parallelism = none)) := by
  obtain ⟨t', hsave⟩ := hc.exists_save hwritable
  obtain ⟨fields, hfields, htext⟩ := fileText?_save ht hworking hsave
  refine ⟨t', hsave, fun user u huser hloads => ?_⟩
  obtain ⟨⟨folder, hfolder⟩, parallelism, hparallelism⟩ := exists_optionsBelow hloads
  have hload : load t' e (some p) = .ok (c.filled folder parallelism) := by
    have hlayers : layered [user, ofTomlFields fields, environmentTable e] =
        overlay (layered [user]) (ofTomlFields fields) := by
      rw [hvariables]
      rfl
    have hdecoded := ofSetting?_overlay hfields hc.minScore hfolder hparallelism
    rw [← hlayers] at hdecoded
    exact load_eq_ok huser htext (hc.fileTable?_document hfields) hdecoded
  refine ⟨folder, parallelism, hfolder, hparallelism, hload, ?_⟩
  rw [hload, Except.ok.injEq]
  exact filled_eq_iff c folder parallelism

/-! ## A user's file with options -/

/-- A user's file that sets the two options which are not set by default. -/
def optionsTree : FileTree :=
  ({} : FileTree).write 0 ["home", ".config", "symdex", "config.toml"]
    "[cache]\ndisk_dir = \"/var/cache/symdex\"\n\n[collector]\nparallelism = 4\n" 0

def homeEnvironment : Environment := ({} : Environment).insert "HOME" "/home"

/-- What the default configuration is loaded as once it was saved. -/
def loadedAgain : Config := ({} : Config).filled (some "/var/cache/symdex") (some 4)

theorem proper_optionsTree : optionsTree.Proper := by
  refine (FileTree.proper_empty.write 0 (fun name hname => ?_) _ 0).1
  simp only [List.mem_cons, List.not_mem_nil, or_false] at hname
  rcases hname with rfl | rfl | rfl | rfl <;> constructor <;> decide

theorem fits_default : ({} : Config).Fits :=
  ⟨by decide, by decide +kernel, by decide +kernel⟩

/-- The default configuration is saved, and what is loaded then has the options of the user's
file. -/
theorem load_save_default :
    ∃ t', ({} : Config).save optionsTree 0 ⟨"/saved.toml"⟩ = .ok t' ∧
      load t' homeEnvironment (some ⟨"/saved.toml"⟩) = .ok loadedAgain ∧
      load t' homeEnvironment (some ⟨"/saved.toml"⟩) ≠ .ok {} := by
  have hfacts : (({} : Config).save optionsTree 0 ⟨"/saved.toml"⟩).toOption.bind (fun t' =>
      (((userFile? homeEnvironment).map (optionalFile? t')).getD (some [])).map fun user =>
        ((ofSetting? (.table (layered [user]))).isSome,
          optionBelow asText? ((layered [user]).lookup "cache") "disk_dir",
          optionBelow asNat64? ((layered [user]).lookup "collector") "parallelism")) =
      some (true, some (some "/var/cache/symdex"), some (some 4)) := by
    decide +kernel
  have hwritable : ({} : Config).save optionsTree 0 ⟨"/saved.toml"⟩ ≠ .error .unwritable := by
    intro herror
    rw [herror] at hfacts
    cases hfacts
  have hvariables : environmentTable homeEnvironment = [] := rfl
  obtain ⟨t', hsave, hload⟩ :=
    load_save proper_optionsTree (by decide) fits_default hwritable hvariables
  rw [hsave] at hfacts
  obtain ⟨user, huser, hfacts⟩ := Option.map_eq_some_iff.mp hfacts
  obtain ⟨hloads, hfacts⟩ := Prod.mk.inj hfacts
  obtain ⟨hfolder, hparallelism⟩ := Prod.mk.inj hfacts
  obtain ⟨u, hu⟩ := Option.isSome_iff_exists.mp hloads
  obtain ⟨folder, parallelism, hfolder', hparallelism', heq, hiff⟩ := hload user u huser hu
  obtain rfl : some "/var/cache/symdex" = folder :=
    Option.some.inj (hfolder.symm.trans hfolder')
  obtain rfl : some 4 = parallelism := Option.some.inj (hparallelism.symm.trans hparallelism')
  refine ⟨t', hsave, heq, fun hsame => ?_⟩
  exact absurd ((hiff.mp hsame).1 rfl) (by simp)

end SymbolAtlas.Config
