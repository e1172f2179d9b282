import SymbolAtlas.Proofs.Cache.Ledger

/-!
# What operations come to

A lookup that loads or computes a value where it finds none is a lookup and nothing else, or a
lookup and then an insertion. Everything else that is done with a cache is a single step.
-/

namespace SymbolAtlas.Cache

variable {V α ε : Type} {c : Cache V} {now : Nat} {key : String}

/-! ## Keeping and counting -/

theorem of_map_eq_ok {ι : Type} {x : Except ε α} {f : α → ι} {b : ι} (h : x.map f = .ok b) :
    ∃ a, x = .ok a ∧ f a = b := by
  cases x with
  | error e => exact absurd h (by simp [Except.map])
  | ok a => exact ⟨a, rfl, Except.ok.inj h⟩

/-- What keeping an item does, if the clock can tell until when it counts. -/
theorem keep_cases {item : Item V} {ttl : Nat} {version : Option String} {c' : Cache V}
    (h : c.keep now key item ttl version = .ok c') :
    c.settings.maxEntries = 0 ∧ c' = c ∨ c.settings.maxEntries ≠ 0 ∧
      c' = { c with
        memory := c.memory.store c.settings.bound
          { key, value := item, expires := now + ttl, version } } := by
  unfold keep expiry at h
  split at h
  · rename_i hzero
    exact Or.inl ⟨hzero, (Except.ok.inj h).symm⟩
  · rename_i hne
    split at h
    · exact absurd h (by simp)
    · rename_i expires hexpires
      split at hexpires
      · obtain rfl := Except.ok.inj hexpires
        exact Or.inr ⟨hne, (Except.ok.inj h).symm⟩
      · exact absurd hexpires (by simp)

/-- Keeping an item is storing its entry, also where none may be held. -/
theorem keep_eq_store {item : Item V} {ttl : Nat} {version : Option String} {c' : Cache V}
    (h : c.keep now key item ttl version = .ok c') :
    c' = { c with
      memory := c.memory.store c.settings.bound
        { key, value := item, expires := now + ttl, version } } := by
  rcases keep_cases h with ⟨hzero, rfl⟩ | ⟨-, rfl⟩
  · have hnone : Memory.store c'.settings.bound c'.memory
        { key, value := item, expires := now + ttl, version } = c'.memory := if_pos hzero
    rw [hnone]
  · rfl

theorem count_memory (c : Cache V) (found : Option α) : (c.count found).memory = c.memory := by
  unfold count
  split <;> rfl

theorem count_settings (c : Cache V) (found : Option α) :
    (c.count found).settings = c.settings := by
  unfold count
  split <;> rfl

theorem count_durable (c : Cache V) (found : Option α) : (c.count found).durable = c.durable := by
  unfold count
  split <;> rfl

theorem count_cleanup (c : Cache V) (found : Option α) : (c.count found).cleanup = c.cleanup := by
  unfold count
  split <;> rfl

theorem count_disk (c : Cache V) (found : Option α) : (c.count found).disk = c.disk := by
  unfold count
  split <;> rfl

/-! ## Loading what a lookup misses -/

section Loading

variable {read : V → Option α} {write : α → V} {ttl : Option Nat} {version : Option String}

theorem getOrTry_of_some {x : α} (hget : (c.get read now key version).1 = some x)
    (load : Except ε α) :
    c.getOrTry read write now key load ttl version =
      .ok ((.ok x, false), (c.get read now key version).2) := by
  unfold Cache.getOrTry
  split
  · rename_i heq
    rw [heq] at hget ⊢
    obtain rfl := Option.some.inj hget
    rfl
  · rename_i heq
    rw [heq] at hget
    exact absurd hget (by simp)

theorem getOrCompute_of_some {x : α} (hget : (c.get read now key version).1 = some x) (a : α) :
    c.getOrCompute read write now key a ttl version =
      .ok ((x, false), (c.get read now key version).2) := by
  unfold Cache.getOrCompute
  split
  · rename_i heq
    rw [heq] at hget ⊢
    obtain rfl := Option.some.inj hget
    rfl
  · rename_i heq
    rw [heq] at hget
    exact absurd hget (by simp)

variable (hget : (c.get read now key version).1 = none)

include hget

theorem getOrTry_of_none (load : Except ε α) :
    c.getOrTry read write now key load ttl version =
      match load with
      | .error e => .ok ((.error e, true), (c.get read now key version).2)
      | .ok a => ((c.get read now key version).2.insert now key (write a) ttl version).map
          fun c' => ((.ok a, true), c') := by
  unfold Cache.getOrTry
  split
  · rename_i heq
    rw [heq] at hget
    exact absurd hget (by simp)
  · rename_i next heq
    have hnext : (c.get read now key version).2 = next := congrArg Prod.snd heq
    subst hnext
    cases load <;> rfl

theorem getOrCompute_of_none (a : α) :
    c.getOrCompute read write now key a ttl version =
      ((c.get read now key version).2.insert now key (write a) ttl version).map
        fun c' => ((a, true), c') := by
  unfold Cache.getOrCompute
  split
  · rename_i heq
    rw [heq] at hget
    exact absurd hget (by simp)
  · rename_i heq
    rw [heq]

end Loading

/-! ## Operations -/

/-- When an operation is over. Only waiting takes time. -/
def Op.over (now : Nat) : Op V → Nat
  | .wait span => now + span
  | _ => now

/-- What an operation makes of a cache. -/
inductive Performs (c : Cache V) (now : Nat) : Op V → Cache V → Prop where
  | insert {key : String} {v : V} {ttl : Option Nat} {version : Option String} {c' : Cache V} :
    c.insert now key v ttl version = .ok c' → Performs c now (.insert key v ttl version) c'
  | get {α : Type} (read : V → Option α) (key : String) (version : Option String) :
    Performs c now (.get read key version) (c.get read now key version).2
  | tryFound {α ε : Type} {read : V → Option α} {key : String} {version : Option String} {x : α}
    (write : α → V) (load : Except ε α) (ttl : Option Nat) :
    (c.get read now key version).1 = some x →
    Performs c now (.getOrTry read write key load ttl version) (c.get read now key version).2
  | tryFailed {α ε : Type} {read : V → Option α} {key : String} {version : Option String}
    (write : α → V) (e : ε) (ttl : Option Nat) :
    (c.get read now key version).1 = none →
    Performs c now (.getOrTry read write key (.error e) ttl version)
      (c.get read now key version).2
  | tryLoaded {α ε : Type} {read : V → Option α} {write : α → V} {key : String} {a : α}
    {ttl : Option Nat} {version : Option String} {c' : Cache V} :
    (c.get read now key version).1 = none →
    (c.get read now key version).2.insert now key (write a) ttl version = .ok c' →
    Performs c now (.getOrTry read write key (.ok a : Except ε α) ttl version) c'
  | computeFound {α : Type} {read : V → Option α} {key : String} {version : Option String} {x : α}
    (write : α → V) (a : α) (ttl : Option Nat) :
    (c.get read now key version).1 = some x →
    Performs c now (.getOrCompute read write key a ttl version) (c.get read now key version).2
  | computeStored {α : Type} {read : V → Option α} {write : α → V} {key : String} {a : α}
    {ttl : Option Nat} {version : Option String} {c' : Cache V} :
    (c.get read now key version).1 = none →
    (c.get read now key version).2.insert now key (write a) ttl version = .ok c' →
    Performs c now (.getOrCompute read write key a ttl version) c'
  | putCollection {solution : String} {collected : Collection} {version : Option String}
    {c' : Cache V} :
    c.putCollection now solution collected version = .ok c' →
    Performs c now (.putCollection solution collected version) c'
  | getCollection (solution : String) (version : Option String) :
    Performs c now (.getCollection solution version) (c.getCollection now solution version).2
  | invalidate (key : String) : Performs c now (.invalidate key) (c.invalidate key)
  | clear : Performs c now .clear c.clear
  | purge : Performs c now .purge (c.purge now).2
  | wait (span : Nat) : Performs c now (.wait span) (c.elapse now (now + span))
  | reopen (settings : Settings) : Performs c now (.reopen settings) (.new settings c.disk)

theorem performs_of_eq_ok {op : Op V} {c' : Cache V} {now' : Nat}
    (h : op.perform c now = .ok (c', now')) : now' = op.over now ∧ c.Performs now op c' := by
  cases op with
  | insert key v ttl version =>
      obtain ⟨kept, hkept, heq⟩ := of_map_eq_ok h
      obtain ⟨rfl, rfl⟩ := Prod.mk.inj heq
      exact ⟨rfl, .insert hkept⟩
  | getOrTry read write key load ttl version =>
      obtain ⟨r, hr, heq⟩ := of_map_eq_ok h
      obtain ⟨rfl, rfl⟩ := Prod.mk.inj heq
      refine ⟨rfl, ?_⟩
      cases hget : (c.get read now key version).1 with
      | some x =>
          rw [getOrTry_of_some hget] at hr
          cases hr
          exact .tryFound write load ttl hget
      | none =>
          rw [getOrTry_of_none hget] at hr
          cases load with
          | error e =>
              cases hr
              exact .tryFailed write e ttl hget
          | ok a =>
              obtain ⟨stored, hstored, rfl⟩ := of_map_eq_ok hr
              exact .tryLoaded hget hstored
  | getOrCompute read write key a ttl version =>
      obtain ⟨r, hr, heq⟩ := of_map_eq_ok h
      obtain ⟨rfl, rfl⟩ := Prod.mk.inj heq
      refine ⟨rfl, ?_⟩
      cases hget : (c.get read now key version).1 with
      | some x =>
          rw [getOrCompute_of_some hget] at hr
          cases hr
          exact .computeFound write a ttl hget
      | none =>
          rw [getOrCompute_of_none hget] at hr
          obtain ⟨stored, hstored, rfl⟩ := of_map_eq_ok hr
          exact .computeStored hget hstored
  | putCollection solution collected version =>
      obtain ⟨stored, hstored, heq⟩ := of_map_eq_ok h
      obtain ⟨rfl, rfl⟩ := Prod.mk.inj heq
      exact ⟨rfl, .putCollection hstored⟩
  | get | getCollection | invalidate | clear | purge | wait | reopen =>
      obtain ⟨rfl, rfl⟩ := Prod.mk.inj (Except.ok.inj h)
      exact ⟨rfl, by constructor⟩

end SymbolAtlas.Cache
