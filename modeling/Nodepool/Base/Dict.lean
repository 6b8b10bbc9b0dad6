import Mathlib.Data.List.AList

/-!
Dictionaries with the operations of Python's `dict` that the source uses, over
Mathlib's association lists with distinct keys. Only what a dictionary maps each
key to is observed, so the order of the entries is left open.
-/

namespace Nodepool

abbrev Dict (κ ν : Type) : Type := AList fun _ : κ => ν

namespace Dict

variable {κ ν μ : Type} [DecidableEq κ]

/-- Equality that can be evaluated, entry by entry. -/
instance [DecidableEq ν] : DecidableEq (Dict κ ν) := fun d e =>
  decidable_of_iff (d.entries = e.entries) ⟨AList.ext, fun h => h ▸ rfl⟩

/-- `dict(pairs)`; of two pairs with one key the later one counts. -/
def ofPairs (pairs : List (κ × ν)) : Dict κ ν :=
  pairs.foldl (fun d p => AList.insert p.1 p.2 d) ∅

/-- `d.get(k, default)` -/
def get (d : Dict κ ν) (k : κ) (default : ν) : ν := (d.lookup k).getD default

/-- `d.setdefault(k, v)` -/
def setdefault (d : Dict κ ν) (k : κ) (v : ν) : Dict κ ν := if k ∈ d then d else d.insert k v

/-- Replace each value by what `f` makes of its key and value. -/
def mapVals (f : κ → ν → μ) (d : Dict κ ν) : Dict κ μ :=
  ⟨d.entries.map fun e => ⟨e.1, f e.1 e.2⟩, d.nodupKeys.map₂ f d.entries⟩

@[simp] theorem lookup_mapVals (f : κ → ν → μ) (d : Dict κ ν) (k : κ) :
    (d.mapVals f).lookup k = (d.lookup k).map (f k) :=
  List.dlookup_map₂ k

@[simp] theorem mem_mapVals {f : κ → ν → μ} {d : Dict κ ν} {k : κ} : k ∈ d.mapVals f ↔ k ∈ d := by
  rw [← AList.lookup_isSome, ← AList.lookup_isSome, lookup_mapVals, Option.isSome_map]

theorem get_of_notMem {d : Dict κ ν} {k : κ} (h : k ∉ d) (v : ν) : d.get k v = v := by
  simp [get, AList.lookup_eq_none.mpr h]

theorem lookup_eq_get_of_mem {d : Dict κ ν} {k : κ} (h : k ∈ d) (v : ν) :
    d.lookup k = some (d.get k v) := by
  obtain ⟨a, ha⟩ := Option.isSome_iff_exists.mp (AList.lookup_isSome.mpr h)
  simp [get, ha]

@[simp] theorem get_insert (d : Dict κ ν) (k : κ) (v default : ν) :
    get (d.insert k v) k default = v := by
  simp [get]

theorem get_insert_ne {d : Dict κ ν} {k k' : κ} (h : k ≠ k') (v default : ν) :
    get (d.insert k' v) k default = d.get k default := by
  simp [get, AList.lookup_insert_ne h]

@[simp] theorem mem_setdefault {d : Dict κ ν} {k k' : κ} {v : ν} :
    k ∈ d.setdefault k' v ↔ k = k' ∨ k ∈ d := by
  unfold setdefault
  split
  · rename_i h
    exact ⟨Or.inr, fun h' => h'.elim (fun e => e ▸ h) id⟩
  · exact AList.mem_insert _

/-- Filling in a key with the default does not change what is read with it. -/
@[simp] theorem get_setdefault (d : Dict κ ν) (k k' : κ) (v : ν) :
    (d.setdefault k' v).get k v = d.get k v := by
  unfold setdefault
  split
  · rfl
  · rename_i h
    by_cases e : k = k'
    · subst e
      rw [get_insert, get_of_notMem h]
    · exact get_insert_ne e v v

/-- `for k in ks: d.setdefault(k, v)` -/
def setdefaults (d : Dict κ ν) (ks : List κ) (v : ν) : Dict κ ν :=
  ks.foldl (fun d k => setdefault d k v) d

/-- What holds of the default and of every value of the pairs holds of what is read. -/
theorem get_ofPairs {p : ν → Prop} {pairs : List (κ × ν)} {k : κ} {default : ν} (hd : p default)
    (h : ∀ kv ∈ pairs, p kv.2) : p ((ofPairs pairs).get k default) := by
  have fold : ∀ (pairs : List (κ × ν)) (d : Dict κ ν), (∀ kv ∈ pairs, p kv.2) →
      p (d.get k default) →
      p (get (pairs.foldl (fun d kv => AList.insert kv.1 kv.2 d) d) k default) := by
    intro pairs
    induction pairs with
    | nil => exact fun d _ hp => hp
    | cons kv pairs ih =>
        intro d h hp
        refine ih _ (fun x hx => h x (List.mem_cons_of_mem _ hx)) ?_
        by_cases hk : k = kv.1
        · subst hk
          rw [get_insert]
          exact h kv List.mem_cons_self
        · rwa [get_insert_ne hk]
  refine fold pairs ∅ h ?_
  rwa [get_of_notMem (AList.notMem_empty k)]

/-- The pairs of a dictionary that is made from pairs with different keys. -/
theorem lookup_ofPairs {pairs : List (κ × ν)}
    (functional : ∀ k v v', (k, v) ∈ pairs → (k, v') ∈ pairs → v = v') {k : κ} {v : ν} :
    (ofPairs pairs).lookup k = some v ↔ (k, v) ∈ pairs := by
  have fold : ∀ (pairs : List (κ × ν)) (d : Dict κ ν),
      (∀ k v v', (k, v) ∈ pairs → (k, v') ∈ pairs → v = v') →
      ((pairs.foldl (fun d p => AList.insert p.1 p.2 d) d).lookup k = some v ↔
        (k, v) ∈ pairs ∨ ((∀ v', (k, v') ∉ pairs) ∧ d.lookup k = some v)) := by
    intro pairs
    induction pairs with
    | nil => simp
    | cons first pairs ih =>
        obtain ⟨k₀, v₀⟩ := first
        intro d functional
        rw [List.foldl_cons, ih _ fun k v v' h h' => functional k v v'
          (List.mem_cons_of_mem _ h) (List.mem_cons_of_mem _ h')]
        by_cases same : k = k₀
        · subst same
          rw [AList.lookup_insert]
          constructor
          · rintro (h | ⟨-, h⟩)
            · exact .inl (List.mem_cons_of_mem _ h)
            · cases h
              exact .inl List.mem_cons_self
          · rintro (h | ⟨h, -⟩)
            · have := functional k v v₀ h List.mem_cons_self
              subst this
              by_cases later : ∃ v', (k, v') ∈ pairs
              · obtain ⟨v', hv'⟩ := later
                have := functional k v v' h (List.mem_cons_of_mem _ hv')
                exact .inl (this ▸ hv')
              · exact .inr ⟨fun v' hv' => later ⟨v', hv'⟩, rfl⟩
            · exact absurd List.mem_cons_self (h v₀)
        · have other : ∀ v', (k, v') ∈ (k₀, v₀) :: pairs ↔ (k, v') ∈ pairs := by
            intro v'
            rw [List.mem_cons, Prod.mk.injEq]
            exact ⟨fun h => h.resolve_left fun both => same both.1, .inr⟩
          rw [AList.lookup_insert_ne same]
          simp only [other]
  refine (fold pairs ∅ functional).trans ?_
  rw [AList.lookup_empty]
  simp

omit [DecidableEq κ] in
theorem nodup_keys (d : Dict κ ν) :
    (d.entries.map (·.1)).Nodup := d.nodupKeys

@[simp] theorem mem_setdefaults {ks : List κ} {d : Dict κ ν} {k : κ} {v : ν} :
    k ∈ d.setdefaults ks v ↔ k ∈ ks ∨ k ∈ d := by
  induction ks generalizing d with
  | nil => simp [setdefaults]
  | cons a ks ih =>
      change k ∈ (d.setdefault a v).setdefaults ks v ↔ _
      rw [ih, mem_setdefault, List.mem_cons]
      constructor
      · rintro (h | h | h)
        · exact Or.inl (Or.inr h)
        · exact Or.inl (Or.inl h)
        · exact Or.inr h
      · rintro ((h | h) | h)
        · exact Or.inr (Or.inl h)
        · exact Or.inl h
        · exact Or.inr (Or.inr h)

@[simp] theorem get_setdefaults (ks : List κ) (d : Dict κ ν) (k : κ) (v : ν) :
    (d.setdefaults ks v).get k v = d.get k v := by
  induction ks generalizing d with
  | nil => rfl
  | cons a ks ih =>
      change ((d.setdefault a v).setdefaults ks v).get k v = _
      rw [ih, get_setdefault]

/-- `d.update(e)` -/
def update (d e : Dict κ ν) : Dict κ ν := e ∪ d

theorem lookup_update (d e : Dict κ ν) (k : κ) :
    (d.update e).lookup k = (e.lookup k).or (d.lookup k) := by
  unfold update
  by_cases h : k ∈ e
  · rw [AList.lookup_union_left h]
    obtain ⟨v, hv⟩ := Option.isSome_iff_exists.mp (AList.lookup_isSome.mpr h)
    rw [hv]
    rfl
  · rw [AList.lookup_union_right h, AList.lookup_eq_none.mpr h]
    rfl

end Dict

end Nodepool
