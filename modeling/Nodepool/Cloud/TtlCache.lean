import Mathlib.Logic.Basic

/-!
The caches that adapters keep of what their cloud lists, and the listings.

`LazyExecutorTTLCache` of `nodepool/driver/utils.py` returns what it has, however old
that is, and has it brought up to date by an executor. The `ttl_cache` of the library
`cachetools` returns nothing that is older than its time to live.
-/

namespace Nodepool

/-- What the adapters list. -/
inductive CloudKind where
  /-- an instance of AWS -/
  | server
  | host
  | virtualMachine
deriving DecidableEq, Repr

/-- A listed resource: its id (or name), and its state. -/
structure Listed where
  id : String
  state : String
deriving DecidableEq, Repr

/-- A listing, with the number of resources that had ever been created when it was made. -/
structure Listing where
  items : List Listed
  fetchedAt : Nat
deriving DecidableEq, Repr

def Listing.find (l : Listing) (id : String) : Option Listed := l.items.find? fun i => i.id = id

theorem Listing.find_isSome {l : Listing} {id : String} (h : ∃ i ∈ l.items, i.id = id) :
    ∃ i, l.find id = some i := by
  obtain ⟨i, hi, hid⟩ := h
  have found : (l.items.find? fun i => i.id = id).isSome := by
    rw [List.find?_isSome]
    exact ⟨i, hi, by simpa using hid⟩
  exact Option.isSome_iff_exists.mp found

/-- An update that the executor was asked for. -/
inductive CacheUpdate (ε α : Type) where
  | submitted
  | done (result : Except ε (Nat × α))

structure LazyExecutorTTLCache (ε α : Type) where
  ttl : Nat
  future : Option (CacheUpdate ε α)
  lastTime : Option Nat
  lastValue : Option α

namespace LazyExecutorTTLCache

variable {ε α : Type} {c c' : LazyExecutorTTLCache ε α}

def init (ttl : Nat) : LazyExecutorTTLCache ε α := ⟨ttl, none, none, none⟩

/-- Use the result of an update that is done. -/
def resolve (c : LazyExecutorTTLCache ε α) : Except ε Unit × LazyExecutorTTLCache ε α :=
  match c.future with
  | some (.done (.ok (time, value))) =>
      (.ok (), { c with future := none, lastTime := some time, lastValue := some value })
  | some (.done (.error e)) => (.error e, { c with future := none })
  | _ => (.ok (), c)

/-- What the cache returns once it is resolved; `none` where the caller has to fetch the
value himself, because there has not been any. -/
def lookup (c : LazyExecutorTTLCache ε α) (now : Nat) : Option α × LazyExecutorTTLCache ε α :=
  match c.lastTime with
  | none => (none, c)
  | some time =>
      -- `now - self.last_time < self.ttl`, where the update may have ended after `now`
      if now < time + c.ttl then (c.lastValue, c)
      else (c.lastValue, { c with future := some (c.future.getD .submitted) })

/-- The caller has fetched the value. -/
def store (c : LazyExecutorTTLCache ε α) (now : Nat) (value : α) : LazyExecutorTTLCache ε α :=
  { c with lastTime := some now, lastValue := some value }

/-- The executor is done with the update. -/
def finish (c : LazyExecutorTTLCache ε α) (result : Except ε (Nat × α)) :
    LazyExecutorTTLCache ε α :=
  { c with future := some (.done result) }

/-- Every value that the cache holds, or is about to, satisfies `P`. -/
structure Forall (P : α → Prop) (c : LazyExecutorTTLCache ε α) : Prop where
  last : ∀ value, c.lastValue = some value → P value
  next : ∀ time value, c.future = some (.done (.ok (time, value))) → P value

theorem Forall.mono {P P' : α → Prop} (h : c.Forall P) (imp : ∀ a, P a → P' a) : c.Forall P' :=
  ⟨fun value hv => imp value (h.last value hv),
    fun time value hv => imp value (h.next time value hv)⟩

theorem forall_init (P : α → Prop) (ttl : Nat) : (init ttl : LazyExecutorTTLCache ε α).Forall P :=
  ⟨fun _ h => (nomatch h), fun _ _ h => (nomatch h)⟩

theorem Forall.resolve {P : α → Prop} (h : c.Forall P) : c.resolve.2.Forall P := by
  unfold LazyExecutorTTLCache.resolve
  split
  · rename_i time value hf
    refine ⟨fun v hv => ?_, fun _ _ h => nomatch h⟩
    obtain rfl := Option.some.inj hv
    exact h.next time _ hf
  · exact ⟨h.last, fun _ _ h => nomatch h⟩
  · exact h

theorem Forall.lookup {P : α → Prop} (h : c.Forall P) (now : Nat) :
    (c.lookup now).2.Forall P ∧ ∀ value, (c.lookup now).1 = some value → P value := by
  unfold LazyExecutorTTLCache.lookup
  split
  · exact ⟨h, fun _ hv => nomatch hv⟩
  · split
    · exact ⟨h, h.last⟩
    · refine ⟨⟨h.last, fun time value hv => ?_⟩, h.last⟩
      cases hf : c.future with
      | none =>
          rw [hf] at hv
          cases hv
      | some update =>
          rw [hf] at hv
          exact h.next time value (hf.trans hv)

theorem Forall.store {P : α → Prop} (h : c.Forall P) (now : Nat) {value : α} (hv : P value) :
    (c.store now value).Forall P := by
  refine ⟨fun v hs => ?_, h.next⟩
  obtain rfl := Option.some.inj hs
  exact hv

theorem Forall.finish {P : α → Prop} (h : c.Forall P) {result : Except ε (Nat × α)}
    (hr : ∀ time value, result = .ok (time, value) → P value) : (c.finish result).Forall P := by
  refine ⟨h.last, fun time value hs => hr time value ?_⟩
  cases Option.some.inj hs
  rfl

end LazyExecutorTTLCache

end Nodepool
