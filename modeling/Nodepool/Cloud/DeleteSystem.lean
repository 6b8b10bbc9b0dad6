import Nodepool.Cloud.DeleteMachines
import Nodepool.Effect.Footprint
import Nodepool.Effect.Interleave

/-!
Delete state machines of AWS and Azure, next to the threads that create resources, read
the cached listings, bring them up to date and carry out deletions.

Resources are numbered in the order in which they are created. What a machine is to
delete are those with the names of its external id that exist when it is made. It is
complete only if each of them is gone or its deletion has been requested; in every run
in which a machine does not look for a resource in a listing that is older than the
resource.
-/

namespace Nodepool

open Effect Method

inductive DeleteThread where
  | aws (externalId : AwsExternalId) (n : Nat)
  | azure (externalId : String) (n : Nat)
  | creator (n : Nat)
  | reader (n : Nat)
  | executor (kind : CloudKind)
  | deleter
deriving DecidableEq

structure DeleteWorld where
  now : Nat
  /-- the number of resources that have been created -/
  created : Nat
  /-- the resources that exist: name and number -/
  live : CloudKind → List (String × Nat)
  /-- the resources whose deletion was requested -/
  requested : CloudKind → List Nat
  /-- `delete_instance_queue` and `delete_host_queue` -/
  queue : CloudKind → List String
  lazy : CloudKind → LazyExecutorTTLCache Err Listing
  /-- what the `ttl_cache` of Azure holds, and since when -/
  entry : Option (Nat × Listing)
  /-- the number of resources that had been created when a machine was made -/
  madeAt : DeleteThread → Nat

namespace DeleteWorld

/-- The time to live of the `ttl_cache` of Azure. -/
def entryTtl : Nat := 10

def create (w : DeleteWorld) (kind : CloudKind) (name : String) : DeleteWorld :=
  { w with
    live := Function.update w.live kind (w.live kind ++ [(name, w.created)])
    created := w.created + 1 }

/-- The numbers of the existing resources with the given names. -/
def named (w : DeleteWorld) (kind : CloudKind) (names : List String) : List Nat :=
  ((w.live kind).filter fun p => p.1 ∈ names).map Prod.snd

def request (w : DeleteWorld) (kind : CloudKind) (names : List String) : DeleteWorld :=
  { w with requested := Function.update w.requested kind (w.requested kind ++ w.named kind names) }

def enqueue (w : DeleteWorld) (kind : CloudKind) (name : String) : DeleteWorld :=
  { w.request kind [name] with queue := Function.update w.queue kind (w.queue kind ++ [name]) }

def dequeue (w : DeleteWorld) (kind : CloudKind) (names : List String) : DeleteWorld :=
  { w with queue := Function.update w.queue kind ((w.queue kind).drop names.length) }

def terminate (w : DeleteWorld) (kind : CloudKind) (names : List String) : DeleteWorld :=
  { w with live := Function.update w.live kind ((w.live kind).filter fun p => p.1 ∉ names) }

def setLazy (w : DeleteWorld) (kind : CloudKind) (c : LazyExecutorTTLCache Err Listing) :
    DeleteWorld :=
  { w with lazy := Function.update w.lazy kind c }

def make (w : DeleteWorld) (i : DeleteThread) : DeleteWorld :=
  { w with madeAt := Function.update w.madeAt i w.created }

/-- A listing that the cloud gives now: every resource is listed, and none that exists
is listed as gone. -/
def Lists (w : DeleteWorld) (kind : CloudKind) (l : Listing) : Prop :=
  l.fetchedAt = w.created ∧ ∀ p ∈ w.live kind, ∃ i ∈ l.items, i.id = p.1 ∧
    AwsAdapter.isGone kind i = false

instance (w : DeleteWorld) (kind : CloudKind) (l : Listing) : Decidable (w.Lists kind l) :=
  inferInstanceAs (Decidable (_ ∧ _))

/-- A cached listing is read, with the lock of the cache held. -/
def readLazy (w : DeleteWorld) (kind : CloudKind) (r : Except Err Listing) : List DeleteWorld :=
  match (w.lazy kind).resolve with
  | (.error e, c) => if r = .error e then [w.setLazy kind c] else []
  | (.ok (), c) =>
      match c.lookup w.now, r with
      | (some l, c), .ok l' => if l' = l then [w.setLazy kind c] else []
      | (none, c), .ok l => if w.Lists kind l then [w.setLazy kind (c.store w.now l)] else []
      | (none, c), .error _ => [w.setLazy kind c]
      | _, _ => []

/-- What the `ttl_cache` returns. -/
def readEntry (w : DeleteWorld) : Option Listing :=
  match w.entry with
  | none => none
  | some (since, l) => if w.now < since + entryTtl then some l else none

/-- A listing is put into the `ttl_cache`, which returns the one that it has then. -/
def putEntry (w : DeleteWorld) (l : Listing) : Listing × DeleteWorld :=
  match w.readEntry with
  | some present => (present, w)
  | none => (l, { w with entry := some (w.now, l) })

/-- The worlds that a call can lead to if it gets the given reply. A request that fails
may still have taken effect, and a deletion may take its time. -/
def next (i : DeleteThread) (w : DeleteWorld) : (c : Call) → LauncherSig.Reply c → List DeleteWorld
  | .newDeleteStateMachine, .ok _ => [w.make i]
  | .newDeleteStateMachine, .error _ => []
  | .listCached kind, r => w.readLazy kind r
  | .describe kind, .ok l => if w.Lists kind l then [w] else []
  | .describe _, .error _ => [w]
  | .finishUpdate kind result, .ok _ => [w.setLazy kind ((w.lazy kind).finish result)]
  | .finishUpdate _ _, .error _ => []
  | .ttlCacheGet, .ok l => if l = w.readEntry then [w] else []
  | .ttlCacheGet, .error _ => []
  | .ttlCachePut l, .ok l' => if l' = (w.putEntry l).1 then [(w.putEntry l).2] else []
  | .ttlCachePut _, .error _ => []
  | .createResource kind name, .ok _ => [w.create kind name]
  | .createResource kind name, .error _ => [w, w.create kind name]
  | .putDeleteQueue kind name, .ok _ => [w.enqueue kind name]
  | .putDeleteQueue _ _, .error _ => []
  | .takeDeleteQueue kind, .ok names =>
      if names = (w.queue kind).take names.length ∧ names.length ≤ 50 then [w.dequeue kind names]
      else []
  | .takeDeleteQueue _, .error _ => []
  | .deleteResources kind names, .ok _ =>
      [w.request kind names, (w.request kind names).terminate kind names]
  | .deleteResources kind names, .error _ =>
      [w, w.request kind names, (w.request kind names).terminate kind names]
  | .time, .ok t => if t = w.now then [w] else []
  | .time, .error _ => []
  | _, _ => [w]

/-- Time passes, and a resource may end at any time. -/
inductive Env (w : DeleteWorld) : DeleteWorld → Prop where
  | tick (now : Nat) (later : w.now ≤ now) : Env w { w with now := now }
  | terminate (kind : CloudKind) (names : List String) : Env w (w.terminate kind names)

def init (ttl : Nat) : DeleteWorld where
  now := 0
  created := 0
  live _ := []
  requested _ := []
  queue _ := []
  lazy _ := .init ttl
  entry := none
  madeAt _ := 0

end DeleteWorld

/-- What the runner of the delete state machines does with one. -/
inductive MachineOp where
  | make
  | advance
deriving DecidableEq

namespace DeleteThread

abbrev State : DeleteThread → Type
  | .aws _ _ => Option AwsDeleteStateMachine
  | .azure _ _ => Option AzureDeleteStateMachine
  | _ => Unit

abbrev Op : DeleteThread → Type
  | .aws _ _ => MachineOp
  | .azure _ _ => MachineOp
  | .creator _ => CloudKind × String
  | .reader _ => CloudKind
  | .executor _ => Unit
  | .deleter => CloudKind

/-- `getDeleteStateMachine`, and `advance` -/
def body : (i : DeleteThread) → i.Op → i.State → Prog LauncherSig i.State
  | .aws externalId _, .make, _ =>
      .call .newDeleteStateMachine fun _ => .pure (some (.init externalId))
  | .aws _ _, .advance, some machine =>
      (AwsDeleteStateMachine.advance.toBody (fun _ s => s) machine).bind fun m => .pure (some m)
  | .aws _ _, .advance, none => .pure none
  | .azure externalId _, .make, _ =>
      .call .newDeleteStateMachine fun _ => .pure (some (.init externalId))
  | .azure _ _, .advance, some machine =>
      (AzureDeleteStateMachine.advance.toBody (fun _ s => s) machine).bind fun m => .pure (some m)
  | .azure _ _, .advance, none => .pure none
  | .creator _, (kind, name), _ => .call (.createResource kind name) fun _ => .pure ()
  | .reader _, kind, _ => .call (.listCached kind) fun _ => .pure ()
  | .executor kind, _, s => (AwsAdapter.update kind).toBody (fun _ s => s) s
  | .deleter, kind, s => (AwsAdapter.deleteBatch kind).toBody (fun _ s => s) s

def isSubmitted : Option (CacheUpdate Err Listing) → Bool
  | some .submitted => true
  | _ => false

def enabled (w : DeleteWorld) : DeleteThread → Bool
  | .executor kind => isSubmitted (w.lazy kind).future
  | _ => true

def initial : (i : DeleteThread) → i.State
  | .aws _ _ => none
  | .azure _ _ => none
  | .creator _ => ()
  | .reader _ => ()
  | .executor _ => ()
  | .deleter => ()

/-- What the external id of a machine names. -/
def names : DeleteThread → CloudKind → Option String
  | .aws externalId _, .server => externalId.server
  | .aws externalId _, .host => externalId.host
  | .azure externalId _, .virtualMachine => some externalId
  | _, _ => none

end DeleteThread

abbrev deleteSystem : System LauncherSig DeleteWorld DeleteThread where
  State := DeleteThread.State
  Op := DeleteThread.Op
  body := DeleteThread.body
  enabled i _ _ w := DeleteThread.enabled w i
  next := DeleteWorld.next
  env := DeleteWorld.Env

namespace DeleteSystem

open DeleteWorld

/-- Every cache has the given time to live. -/
def init (ttl : Nat) : Config deleteSystem where
  world := DeleteWorld.init ttl
  thread i := .pure i.initial

/-- A resource that a machine is to delete, whose deletion is not requested yet. -/
def Due (w : DeleteWorld) (i : DeleteThread) (kind : CloudKind) (p : String × Nat) : Prop :=
  i.names kind = some p.1 ∧ p ∈ w.live kind ∧ p.2 < w.madeAt i ∧ p.2 ∉ w.requested kind

/-- A listing that a machine reads is not older than what it is to delete. -/
def Fresh (w : DeleteWorld) : Event deleteSystem → Prop
  | .call i (.listCached kind) (.ok l) => ∀ p, Due w i kind p → p.2 < l.fetchedAt
  | .call i .ttlCacheGet (.ok (some l)) | .call i (.ttlCachePut _) (.ok l) =>
      ∀ p, Due w i .virtualMachine p → p.2 < l.fetchedAt
  | _ => True

/-- The machine of a thread is complete. -/
def Complete : (i : DeleteThread) → i.State → Prop
  | .aws _ _, some machine => machine.complete = true
  | .azure _ _, some machine => machine.complete = true
  | _, _ => False

variable {w w' : DeleteWorld} {i : DeleteThread} {kind : CloudKind}

/-! ### Invariant and rely -/

/-- A listing shows every existing resource that is older than it. -/
def Shows (w : DeleteWorld) (kind : CloudKind) (l : Listing) : Prop :=
  l.fetchedAt ≤ w.created ∧
    ∀ p ∈ w.live kind, p.2 < l.fetchedAt → ∃ i ∈ l.items, i.id = p.1

structure Invariant (w : DeleteWorld) : Prop where
  numbered : ∀ kind, ∀ p ∈ w.live kind, p.2 < w.created
  lazy : ∀ kind, (w.lazy kind).Forall (Shows w kind)
  entry : ∀ since l, w.entry = some (since, l) → Shows w .virtualMachine l
  madeAt : ∀ i, w.madeAt i ≤ w.created

/-- Resources are only added with new numbers, and requests are kept. -/
structure Later (w w' : DeleteWorld) : Prop where
  live : ∀ kind, ∀ p ∈ w'.live kind, p.2 < w.created → p ∈ w.live kind
  requested : ∀ kind, ∀ k ∈ w.requested kind, k ∈ w'.requested kind
  created : w.created ≤ w'.created

/-- What the others do to a machine. -/
structure Beside (i : DeleteThread) (w w' : DeleteWorld) : Prop extends Later w w' where
  madeAt : w'.madeAt i = w.madeAt i

theorem Later.refl (w : DeleteWorld) : Later w w := ⟨fun _ _ h _ => h, fun _ _ h => h, le_refl _⟩

theorem Later.trans {w'' : DeleteWorld} (h : Later w w') (h' : Later w' w'') : Later w w'' where
  live kind p hp hlt := h.live kind p (h'.live kind p hp (hlt.trans_le h.created)) hlt
  requested kind k hk := h'.requested kind k (h.requested kind k hk)
  created := h.created.trans h'.created

theorem Shows.later {l : Listing} (h : Shows w kind l) (hl : Later w w') : Shows w' kind l :=
  ⟨h.1.trans hl.created, fun p hp hlt => h.2 p (hl.live kind p hp (hlt.trans_le h.1)) hlt⟩

theorem Lists.shows {l : Listing} (h : w.Lists kind l) : Shows w kind l := by
  refine ⟨h.1.le, fun p hp _ => ?_⟩
  obtain ⟨i, hi, hid, -⟩ := h.2 p hp
  exact ⟨i, hi, hid⟩

/-- No resource of a kind is left to be deleted by a machine. -/
structure Settled (w : DeleteWorld) (i : DeleteThread) (kind : CloudKind) : Prop where
  made : w.madeAt i ≤ w.created
  none_due : ∀ p, ¬ Due w i kind p

theorem Settled.beside (h : Settled w i kind) (hb : Beside i w w') : Settled w' i kind := by
  refine ⟨by rw [hb.madeAt]; exact h.made.trans hb.created, ?_⟩
  rintro p ⟨name, live, lt, notRequested⟩
  rw [hb.madeAt] at lt
  exact h.none_due p ⟨name, hb.live kind p live (lt.trans_le h.made), lt,
    fun hr => notRequested (hb.requested kind p.2 hr)⟩

theorem Settled.of_names (made : w.madeAt i ≤ w.created) (hn : i.names kind = none) :
    Settled w i kind := by
  refine ⟨made, ?_⟩
  rintro p ⟨name, -⟩
  rw [hn] at name
  cases name

/-! ### One step -/

theorem later_create (kind : CloudKind) (name : String) :
    Later w (w.create kind name) := by
  refine ⟨fun k p hp hlt => ?_, fun _ _ h => h, Nat.le_succ _⟩
  by_cases hk : k = kind
  · subst hk
    simp only [DeleteWorld.create, Function.update_self, List.mem_append, List.mem_singleton] at hp
    rcases hp with hp | rfl
    · exact hp
    · exact absurd hlt (lt_irrefl _)
  · simpa only [DeleteWorld.create, Function.update_of_ne hk] using hp

theorem later_request (kind : CloudKind) (names : List String) :
    Later w (w.request kind names) := by
  refine ⟨fun _ _ h _ => h, fun k x hx => ?_, le_refl _⟩
  by_cases hk : k = kind
  · subst hk
    simp only [DeleteWorld.request, Function.update_self]
    exact List.mem_append_left _ hx
  · simpa only [DeleteWorld.request, Function.update_of_ne hk] using hx

theorem later_terminate (kind : CloudKind) (names : List String) :
    Later w (w.terminate kind names) := by
  refine ⟨fun k p hp _ => ?_, fun _ _ h => h, le_refl _⟩
  by_cases hk : k = kind
  · subst hk
    simp only [DeleteWorld.terminate, Function.update_self] at hp
    exact (List.mem_filter.mp hp).1
  · simpa only [DeleteWorld.terminate, Function.update_of_ne hk] using hp

theorem mem_readLazy {r : Except Err Listing} (h : w' ∈ w.readLazy kind r)
    (hc : (w.lazy kind).Forall (Shows w kind)) :
    ∃ c, w' = w.setLazy kind c ∧ c.Forall (Shows w kind) ∧ ∀ l, r = .ok l → Shows w kind l := by
  have resolved := hc.resolve
  unfold DeleteWorld.readLazy at h
  split at h
  · rename_i e c hr
    rw [hr] at resolved
    split at h
    · rename_i hre
      subst hre
      exact ⟨c, List.mem_singleton.mp h, resolved, fun _ hl => nomatch hl⟩
    · cases h
  · rename_i c hr
    rw [hr] at resolved
    have looked := LazyExecutorTTLCache.Forall.lookup resolved w.now
    split at h
    · rename_i l c' l' hl
      rw [hl] at looked
      split at h
      · rename_i hll
        subst hll
        refine ⟨c', List.mem_singleton.mp h, looked.1, fun _ he => ?_⟩
        cases he
        exact looked.2 _ rfl
      · cases h
    · rename_i c' l hl
      rw [hl] at looked
      split at h
      · rename_i lists
        refine ⟨_, List.mem_singleton.mp h, looked.1.store _ (Lists.shows lists), fun _ he => ?_⟩
        cases he
        exact Lists.shows lists
      · cases h
    · rename_i c' e hl
      rw [hl] at looked
      exact ⟨c', List.mem_singleton.mp h, looked.1, fun _ he => nomatch he⟩
    · cases h

/-- A listing that is put into a cache shows what is older than it. -/
def Req (w : DeleteWorld) : Call → Prop
  | .finishUpdate kind (.ok (_, l)) => Shows w kind l
  | .ttlCachePut l => Shows w .virtualMachine l
  | _ => True

theorem Invariant.later (h : Invariant w) (hl : Later w w') (lazy : w'.lazy = w.lazy)
    (entry : w'.entry = w.entry) (numbered : ∀ kind, ∀ p ∈ w'.live kind, p.2 < w'.created)
    (madeAt : ∀ i, w'.madeAt i ≤ w'.created) : Invariant w' := by
  refine ⟨numbered, fun kind => ?_, fun since l he => ?_, madeAt⟩
  · rw [lazy]
    exact (h.lazy kind).mono fun _ hs => hs.later hl
  · rw [entry] at he
    exact (h.entry since l he).later hl

theorem Invariant.setLazy (h : Invariant w) {c : LazyExecutorTTLCache Err Listing}
    (hc : c.Forall (Shows w kind)) : Invariant (w.setLazy kind c) := by
  refine ⟨h.numbered, fun k => ?_, h.entry, h.madeAt⟩
  change (Function.update w.lazy kind c k).Forall (Shows w k)
  by_cases hk : k = kind
  · subst hk
    rwa [Function.update_self]
  · rw [Function.update_of_ne hk]
    exact h.lazy k

theorem Invariant.create (h : Invariant w) (kind : CloudKind) (name : String) :
    Invariant (w.create kind name) := by
  refine h.later (later_create kind name) rfl rfl (fun k p hp => ?_)
    fun i => (h.madeAt i).trans (Nat.le_succ _)
  by_cases hk : k = kind
  · subst hk
    simp only [DeleteWorld.create, Function.update_self, List.mem_append, List.mem_singleton] at hp
    rcases hp with hp | rfl
    · exact (h.numbered k p hp).trans (Nat.lt_succ_self _)
    · exact Nat.lt_succ_self _
  · simp only [DeleteWorld.create, Function.update_of_ne hk] at hp
    exact (h.numbered k p hp).trans (Nat.lt_succ_self _)

theorem Invariant.request (h : Invariant w) (kind : CloudKind) (names : List String) :
    Invariant (w.request kind names) :=
  h.later (later_request kind names) rfl rfl h.numbered h.madeAt

theorem Invariant.terminate (h : Invariant w) (kind : CloudKind) (names : List String) :
    Invariant (w.terminate kind names) :=
  h.later (later_terminate kind names) rfl rfl
    (fun k p hp => h.numbered k p ((later_terminate kind names).live k p hp
      (by
        by_cases hk : k = kind
        · subst hk
          simp only [DeleteWorld.terminate, Function.update_self] at hp
          exact h.numbered k p (List.mem_filter.mp hp).1
        · simp only [DeleteWorld.terminate, Function.update_of_ne hk] at hp
          exact h.numbered k p hp))) h.madeAt

/-- What a call of thread `i` does. -/
structure Stepped (i : DeleteThread) (c : Call) (w w' : DeleteWorld) : Prop extends Later w w' where
  invariant : Invariant w'
  madeAt : ∀ j, j ≠ i ∨ c ≠ .newDeleteStateMachine → w'.madeAt j = w.madeAt j

theorem Stepped.refl {c : Call} (h : Invariant w) : Stepped i c w w := ⟨.refl w, h, fun _ _ => rfl⟩

theorem next_stepped {c : Call} {r : LauncherSig.Reply c} (h : Invariant w) (hreq : Req w c)
    (hs : w' ∈ w.next i c r) : Stepped i c w w' := by
  have plain : ∀ {w' : DeleteWorld}, w' ∈ [w] → Stepped i c w w' := fun hw => by
    obtain rfl := List.mem_singleton.mp hw
    exact .refl h
  have request : ∀ kind names, Stepped i c w (w.request kind names) := fun kind names =>
    ⟨later_request kind names, h.request kind names, fun _ _ => rfl⟩
  have terminate : ∀ kind names, Stepped i c w ((w.request kind names).terminate kind names) :=
    fun kind names => ⟨(later_request kind names).trans (later_terminate kind names),
      (h.request kind names).terminate kind names, fun _ _ => rfl⟩
  have create : ∀ kind name, Stepped i c w (w.create kind name) := fun kind name =>
    ⟨later_create kind name, h.create kind name, fun _ _ => rfl⟩
  cases c with
  | newDeleteStateMachine =>
      cases r with
      | error e => cases hs
      | ok v =>
          obtain rfl := List.mem_singleton.mp hs
          refine ⟨⟨fun _ _ hp _ => hp, fun _ _ hk => hk, le_refl _⟩,
            ⟨h.numbered, h.lazy, h.entry, fun j => ?_⟩, fun j hj =>
              Function.update_of_ne (hj.resolve_right fun hc => hc rfl) _ _⟩
          by_cases hj : j = i
          · subst hj
            simp [DeleteWorld.make]
          · simpa only [DeleteWorld.make, Function.update_of_ne hj] using h.madeAt j
  | listCached kind =>
      obtain ⟨c, rfl, hc, -⟩ := mem_readLazy hs (h.lazy kind)
      exact ⟨⟨fun _ _ hp _ => hp, fun _ _ hk => hk, le_refl _⟩, h.setLazy hc, fun _ _ => rfl⟩
  | describe kind =>
      cases r with
      | error e => exact plain hs
      | ok l =>
          exact plain (List.mem_singleton.mpr (of_mem_ite hs).2)
  | finishUpdate kind result =>
      cases r with
      | error e => cases hs
      | ok v =>
          obtain rfl := List.mem_singleton.mp hs
          refine ⟨⟨fun _ _ hp _ => hp, fun _ _ hk => hk, le_refl _⟩,
            h.setLazy ((h.lazy kind).finish fun time l hr => ?_), fun _ _ => rfl⟩
          subst hr
          exact hreq
  | ttlCacheGet =>
      cases r with
      | error e => cases hs
      | ok l =>
          exact plain (List.mem_singleton.mpr (of_mem_ite hs).2)
  | ttlCachePut l =>
      cases r with
      | error e => cases hs
      | ok v =>
          obtain ⟨-, rfl⟩ := of_mem_ite hs
          unfold DeleteWorld.putEntry
          split
          · exact .refl h
          · refine ⟨⟨fun _ _ hp _ => hp, fun _ _ hk => hk, le_refl _⟩,
              ⟨h.numbered, h.lazy, fun since l' he => ?_, h.madeAt⟩, fun _ _ => rfl⟩
            cases Option.some.inj he
            exact hreq
  | createResource kind name =>
      cases r with
      | error e =>
          rcases List.mem_pair.mp hs with rfl | rfl
          · exact .refl h
          · exact create kind name
      | ok v =>
          obtain rfl := List.mem_singleton.mp hs
          exact create kind name
  | putDeleteQueue kind name =>
      cases r with
      | error e => cases hs
      | ok v =>
          obtain rfl := List.mem_singleton.mp hs
          exact ⟨⟨fun _ _ hp _ => hp, (request kind [name]).requested, le_refl _⟩,
            ⟨h.numbered, (h.request kind [name]).lazy, (h.request kind [name]).entry, h.madeAt⟩,
            fun _ _ => rfl⟩
  | takeDeleteQueue kind =>
      cases r with
      | error e => cases hs
      | ok names =>
          obtain ⟨-, rfl⟩ := of_mem_ite hs
          exact ⟨⟨fun _ _ hp _ => hp, fun _ _ hk => hk, le_refl _⟩,
            ⟨h.numbered, h.lazy, h.entry, h.madeAt⟩, fun _ _ => rfl⟩
  | deleteResources kind names =>
      cases r with
      | error e =>
          simp only [DeleteWorld.next, List.mem_cons, List.not_mem_nil, or_false] at hs
          rcases hs with rfl | rfl | rfl
          · exact .refl h
          · exact request kind names
          · exact terminate kind names
      | ok v =>
          rcases List.mem_pair.mp hs with rfl | rfl
          · exact request kind names
          · exact terminate kind names
  | time =>
      cases r with
      | error e => cases hs
      | ok t =>
          exact plain (List.mem_singleton.mpr (of_mem_ite hs).2)
  | _ => cases r <;> exact plain hs

/-! ### The methods of the machines -/

abbrev context (i : DeleteThread) : Context LauncherSig DeleteWorld :=
  deleteSystem.context Fresh Invariant (Beside i) Req i

section Methods

variable {σ : Type} {s : σ} {B : DeleteWorld → Prop}

/-- An assertion about a machine that lasts. -/
abbrev Lasting (i : DeleteThread) (B : DeleteWorld → Prop) : Prop :=
  ∀ {w w'}, B w → Beside i w w' → B w'

/-- The calls of a machine, but for those that bring a cache up to date. -/
def Reads : Call → Prop
  | .newDeleteStateMachine | .finishUpdate _ _ | .ttlCachePut _ => False
  | _ => True

theorem req_of_reads {c : Call} (hc : Reads c) : Req w c := by
  cases c with
  | finishUpdate kind result | ttlCachePut l => cases hc
  | _ => trivial

theorem reads_beside {c : Call} {r : LauncherSig.Reply c} (h : Invariant w) (hc : Reads c)
    (hs : w' ∈ w.next i c r) : Beside i w w' := by
  have stepped := next_stepped h (req_of_reads hc) hs
  refine ⟨stepped.toLater, stepped.madeAt i (Or.inr ?_)⟩
  rintro rfl
  exact hc

theorem step_beside {c : Call} {r : LauncherSig.Reply c} (h : Invariant w) (hc : Reads c)
    (hs : (context i).step w c r w') : Beside i w w' :=
  reads_beside h hc hs.1

theorem stable_reads (lasting : Lasting i B) : Stable (context i) Reads B where
  rely h hb _ := lasting h hb
  req hc _ _ := req_of_reads hc
  step hc h hi hs _ := lasting h (reads_beside hi hc hs.1)

theorem reads_wp {α : Type} {m : LauncherM σ α} (within : Within Reads (fun s : σ => s) m)
    (lasting : Lasting i B) (hB : B w) :
    m.wp (context i) (fun _ s' w => s' = s ∧ B w) (fun _ s' w => s' = s ∧ B w) s w :=
  within.wp (stable_reads lasting) hB

/-- Looking for a resource in a listing that is not older, and requesting its deletion. -/
theorem deleteListed_wp {id warning : String} (hn : i.names kind = some id)
    (lasting : Lasting i B) (hB : B w) :
    (AwsAdapter.deleteListed kind id warning : LauncherM σ _).wp (context i)
      (fun _ s' w => s' = s ∧ B w ∧ Settled w i kind) (fun _ s' w => s' = s ∧ B w) s w := by
  have both : Lasting i fun w => B w ∧ Settled w i kind := fun h hb =>
    ⟨lasting h.1 hb, h.2.beside hb⟩
  refine wp_bind.mpr (Method.wp_call (P := B) (fun h hb _ => lasting h hb) hB
    (fun _ _ _ => trivial) ?_ fun _ w₁ w₂ h₁ hi hs _ =>
      ⟨rfl, lasting h₁ (step_beside (c := .listCached kind) hi trivial hs)⟩)
  intro l w₁ w₂ h₁ hi hs _
  obtain ⟨c, rfl, -, shows⟩ := mem_readLazy hs.1 (hi.lazy kind)
  have h₂ : B (w₁.setLazy kind c) :=
    lasting h₁ ⟨⟨fun _ _ hp _ => hp, fun _ _ hk => hk, le_refl _⟩, rfl⟩
  have fresh : ∀ p, Due w₁ i kind p → p.2 < l.fetchedAt := hs.2
  cases found : l.find id with
  | none =>
      have settled : Settled (w₁.setLazy kind c) i kind := by
        refine ⟨hi.madeAt i, fun p due => ?_⟩
        have due₁ : Due w₁ i kind p := due
        obtain rfl : id = p.1 := Option.some.inj (hn.symm.trans due₁.1)
        obtain ⟨item, hitem⟩ :=
          Listing.find_isSome ((shows l rfl).2 p due₁.2.1 (fresh p due₁))
        rw [found] at hitem
        cases hitem
      have within : Within Reads (fun s : σ => s) (do
          call (.log warning)
          pure none : LauncherM σ (Option Listed)) := .bind (.perform trivial) fun _ => .pure
      exact wp_mono (reads_wp within both ⟨h₂, settled⟩) (fun _ _ _ h => h)
        fun _ _ _ h => ⟨h.1, h.2.1⟩
  | some item =>
      refine wp_bind.mpr (Method.wp_call (P := B) (fun h hb _ => lasting h hb) h₂
        (fun _ _ _ => trivial) ?_ fun _ _ _ _ _ hs _ => nomatch hs.1)
      intro _ w₃ w₄ h₃ hi₃ hs _
      have h₄ : B w₄ :=
        lasting h₃ (step_beside (c := .putDeleteQueue kind id) hi₃ trivial hs)
      obtain rfl := List.mem_singleton.mp hs.1
      refine ⟨rfl, h₄, hi₃.madeAt i, fun p due => due.2.2.2 ?_⟩
      obtain rfl : id = p.1 := Option.some.inj (hn.symm.trans due.1)
      simp only [DeleteWorld.enqueue, DeleteWorld.request, Function.update_self]
      refine List.mem_append_right _ (List.mem_map.mpr ⟨p, List.mem_filter.mpr ⟨due.2.1, ?_⟩, rfl⟩)
      simp

theorem refreshDelete_wp {found : Option Listed} (lasting : Lasting i B) (hB : B w) :
    (AwsAdapter.refreshDelete kind found : LauncherM σ _).wp (context i)
      (fun _ s' w => s' = s ∧ B w) (fun _ s' w => s' = s ∧ B w) s w := by
  refine reads_wp ?_ lasting hB
  unfold AwsAdapter.refreshDelete
  cases found with
  | none => exact .pure
  | some object =>
      refine .bind (.perform trivial) fun l => ?_
      cases l.find object.id with
      | none => exact .pure
      | some found => exact .pure

/-- A listing in which a machine may look for its virtual machine. -/
structure Suits (i : DeleteThread) (l : Listing) (w : DeleteWorld) : Prop where
  shows : Shows w .virtualMachine l
  fresh : ∀ p, Due w i .virtualMachine p → p.2 < l.fetchedAt

theorem Suits.beside {l : Listing} (h : Suits i l w) (hb : Beside i w w')
    (made : w.madeAt i ≤ w.created) : Suits i l w' := by
  refine ⟨h.shows.later hb.toLater, ?_⟩
  rintro p ⟨name, live, lt, notRequested⟩
  rw [hb.madeAt] at lt
  exact h.fresh p ⟨name, hb.live _ p live (lt.trans_le made), lt,
    fun hr => notRequested (hb.requested _ p.2 hr)⟩

theorem entry_of_readEntry {l : Listing} (h : w.readEntry = some l) :
    ∃ since, w.entry = some (since, l) := by
  unfold DeleteWorld.readEntry at h
  split at h
  · cases h
  · rename_i since l' found
    split at h
    · cases h
      exact ⟨since, found⟩
    · cases h

/-- Whatever the cache returns shows what is older than it. -/
theorem putEntry_shows {l : Listing} (h : Invariant w) (shows : Shows w .virtualMachine l) :
    Shows w .virtualMachine (w.putEntry l).1 := by
  unfold DeleteWorld.putEntry
  split
  · rename_i present found
    obtain ⟨since, entry⟩ := entry_of_readEntry found
    exact h.entry since present entry
  · exact shows

theorem listVirtualMachines_wp (lasting : Lasting i B) (hB : B w) :
    (AzureAdapter.listVirtualMachines : LauncherM σ _).wp (context i)
      (fun l s' w => s' = s ∧ B w ∧ w.madeAt i ≤ w.created ∧ Suits i l w)
      (fun _ s' w => s' = s ∧ B w) s w := by
  refine wp_bind.mpr (Method.wp_call (P := B) (fun h hb _ => lasting h hb) hB
    (fun _ _ _ => trivial) ?_ fun _ _ _ _ _ hs _ => nomatch hs.1)
  intro cached w₁ w₂ h₁ hi hs _
  have mem : w₂ ∈ w₁.next i .ttlCacheGet (.ok cached) := hs.1
  obtain ⟨hcached, rfl⟩ := of_mem_ite mem
  cases cached with
  | some l =>
      obtain ⟨since, he⟩ := entry_of_readEntry hcached.symm
      exact ⟨rfl, h₁, hi.madeAt i, hi.entry since l he, hs.2⟩
  | none =>
      refine wp_bind.mpr (Method.wp_call (P := B) (fun h hb _ => lasting h hb) h₁
        (fun _ _ _ => trivial) ?_ fun _ w₃ w₄ h₃ hi₃ hs _ =>
          ⟨rfl, lasting h₃ (step_beside (c := .describe .virtualMachine) hi₃ trivial hs)⟩)
      intro l w₃ w₄ h₃ hi₃ hs _
      have mem : w₄ ∈ w₃.next i (.describe .virtualMachine) (.ok l) := hs.1
      simp only [DeleteWorld.next] at mem
      split at mem
      · rename_i lists
        obtain rfl := List.mem_singleton.mp mem
        refine Method.wp_call (P := fun w => B w ∧ Shows w .virtualMachine l)
          (fun h hb _ => ⟨lasting h.1 hb, h.2.later hb.toLater⟩) ⟨h₃, Lists.shows lists⟩
          (fun _ h _ => h.2) ?_ fun _ _ _ _ _ hs _ => nomatch hs.1
        intro put w₅ w₆ h₅ hi₅ hs hi₆
        have mem : w₆ ∈ w₅.next i (.ttlCachePut l) (.ok put) := hs.1
        have stepped : Stepped i (.ttlCachePut l) w₅ w₆ := next_stepped hi₅ h₅.2 mem
        have beside : Beside i w₅ w₆ := ⟨stepped.toLater, stepped.madeAt i (.inr nofun)⟩
        have suits : Suits i put w₅ := by
          refine ⟨?_, hs.2⟩
          rw [(of_mem_ite mem).1]
          exact putEntry_shows hi₅ h₅.2
        exact ⟨rfl, lasting h₅.1 beside, hi₆.madeAt i, suits.beside beside (hi₅.madeAt i)⟩
      · cases mem

theorem deleteVirtualMachine_wp {name : String} (hn : i.names .virtualMachine = some name)
    (lasting : Lasting i B) (hB : B w) :
    (AzureAdapter.deleteVirtualMachine name : LauncherM σ _).wp (context i)
      (fun _ s' w => s' = s ∧ B w ∧ Settled w i .virtualMachine) (fun _ s' w => s' = s ∧ B w)
      s w := by
  have both : Lasting i fun w => B w ∧ Settled w i .virtualMachine := fun h hb =>
    ⟨lasting h.1 hb, h.2.beside hb⟩
  refine wp_bind.mpr (wp_mono (listVirtualMachines_wp lasting hB) ?_ fun _ _ _ h => h)
  rintro l s₁ w₁ ⟨rfl, h₁, made, suits⟩
  cases found : l.find name with
  | none =>
      have settled : Settled w₁ i .virtualMachine := by
        refine ⟨made, fun p due => ?_⟩
        obtain rfl : name = p.1 := Option.some.inj (hn.symm.trans due.1)
        obtain ⟨item, hitem⟩ :=
          Listing.find_isSome (suits.shows.2 p due.2.1 (suits.fresh p due))
        rw [found] at hitem
        cases hitem
      have within : Within Reads (fun s : σ => s) (do
          call (.log "VM not found when deleting")
          pure none : LauncherM σ (Option Listed)) := .bind (.perform trivial) fun _ => .pure
      exact wp_mono (reads_wp within both ⟨h₁, settled⟩) (fun _ _ _ h => h)
        fun _ _ _ h => ⟨h.1, h.2.1⟩
  | some item =>
      refine wp_bind.mpr (Method.wp_call (P := B) (fun h hb _ => lasting h hb) h₁
        (fun _ _ _ => trivial) ?_ fun _ w₃ w₄ h₃ hi₃ hs _ =>
          ⟨rfl, lasting h₃
            (step_beside (c := .deleteResources .virtualMachine [name]) hi₃ trivial hs)⟩)
      intro _ w₃ w₄ h₃ hi₃ hs _
      have mem : w₄ ∈ w₃.next i (.deleteResources .virtualMachine [name]) (.ok ()) := hs.1
      have h₄ : B w₄ := lasting h₃ (
        reads_beside (c := .deleteResources .virtualMachine [name]) hi₃ trivial mem)
      have requested : Settled (w₃.request .virtualMachine [name]) i .virtualMachine := by
        refine ⟨hi₃.madeAt i, fun p due => due.2.2.2 ?_⟩
        obtain rfl : name = p.1 := Option.some.inj (hn.symm.trans due.1)
        simp only [DeleteWorld.request, Function.update_self]
        refine List.mem_append_right _
          (List.mem_map.mpr ⟨p, List.mem_filter.mpr ⟨due.2.1, ?_⟩, rfl⟩)
        simp
      rcases List.mem_pair.mp mem with rfl | rfl
      · exact ⟨rfl, h₄, requested⟩
      · exact ⟨rfl, h₄, requested.beside ⟨later_terminate .virtualMachine [name], rfl⟩⟩

theorem refreshDeleteMachine_wp {found : Option Listed} (lasting : Lasting i B) (hB : B w) :
    (AzureAdapter.refreshDelete found : LauncherM σ _).wp (context i)
      (fun _ s' w => s' = s ∧ B w) (fun _ s' w => s' = s ∧ B w) s w := by
  cases found with
  | none => exact ⟨rfl, hB⟩
  | some vm =>
      refine wp_bind.mpr (wp_mono (listVirtualMachines_wp lasting hB) ?_ fun _ _ _ h => h)
      exact fun l _ _ h => ⟨h.1, h.2.1⟩

end Methods

/-! ### The machines -/

section Aws

variable {externalId : AwsExternalId} {n : Nat}

/-- The kinds of resources of which nothing is left to be deleted in a state. -/
def settledKinds : AwsDeleteState → List CloudKind
  | .start | .instanceDeletingStart => []
  | .instanceDeleting | .hostReleasingStart => [.server]
  | .hostReleasing | .complete => [.server, .host]

structure AwsAt (externalId : AwsExternalId) (n : Nat) (m : AwsDeleteStateMachine)
    (w : DeleteWorld) : Prop where
  named : m.externalId = externalId
  made : w.madeAt (.aws externalId n) ≤ w.created
  settled : ∀ kind ∈ settledKinds m.state, Settled w (.aws externalId n) kind
  complete : m.complete = true → m.state = .complete

theorem AwsAt.beside {m : AwsDeleteStateMachine} (h : AwsAt externalId n m w)
    (hb : Beside (.aws externalId n) w w') : AwsAt externalId n m w' :=
  ⟨h.named, by rw [hb.madeAt]; exact h.made.trans hb.created,
    fun kind hk => (h.settled kind hk).beside hb, h.complete⟩

abbrev AwsKeeps (externalId : AwsExternalId) (n : Nat)
    (method : AwsDeleteStateMachine.AwsDeleteM Unit) : Prop :=
  Keeps (context (.aws externalId n)) (AwsAt externalId n) method

theorem inState_keeps {state : AwsDeleteState} {method : AwsDeleteStateMachine.AwsDeleteM Unit}
    (h : ∀ m w, m.state = state → AwsAt externalId n m w →
      method.wp (context (.aws externalId n)) (fun _ => AwsAt externalId n)
        (fun _ => AwsAt externalId n) m w) :
    AwsKeeps externalId n (AwsDeleteStateMachine.inState state method) := by
  intro m w hm
  change (when (m.state = state) method).wp _ _ _ m w
  unfold when
  split
  · rename_i hstate
    exact h m w hstate hm
  · exact hm

theorem setState_at {m : AwsDeleteStateMachine} (h : AwsAt externalId n m w)
    {state : AwsDeleteState}
    (incomplete : m.state ≠ .complete)
    (settled : ∀ kind ∈ settledKinds state, Settled w (.aws externalId n) kind) :
    AwsAt externalId n { m with state := state } w :=
  ⟨h.named, h.made, settled, fun hc => absurd (h.complete hc) incomplete⟩

/-- What the external id does not name is settled. -/
theorem AwsAt.unnamed {m : AwsDeleteStateMachine} (h : AwsAt externalId n m w) {kind : CloudKind}
    (hn : (DeleteThread.aws m.externalId n).names kind = none) :
    Settled w (.aws externalId n) kind :=
  .of_names h.made (by rw [← h.named]; exact hn)

theorem forall_settled {state : AwsDeleteState}
    (server : Settled w (.aws externalId n) .server) (host : Settled w (.aws externalId n) .host) :
    ∀ kind ∈ settledKinds state, Settled w (.aws externalId n) kind := by
  intro kind hk
  cases kind with
  | server => exact server
  | host => exact host
  | virtualMachine => cases state <;> simp [settledKinds] at hk

theorem begin_keeps : AwsKeeps externalId n
    (AwsDeleteStateMachine.inState .start AwsDeleteStateMachine.begin) := by
  refine inState_keeps fun m w hstate h => wp_bind.mpr (wp_self.mpr ?_)
  have incomplete : m.state ≠ .complete := by rw [hstate]; decide
  split
  · exact setState_at h incomplete fun _ hk => absurd hk List.not_mem_nil
  rename_i noServer
  have server : Settled w (.aws externalId n) .server :=
    h.unnamed (Option.not_isSome_iff_eq_none.mp noServer)
  split
  · refine setState_at h incomplete fun kind hk => ?_
    obtain rfl := List.mem_singleton.mp hk
    exact server
  · rename_i noHost
    exact setState_at h incomplete
      (forall_settled server (h.unnamed (Option.not_isSome_iff_eq_none.mp noHost)))

theorem startDeleting_keeps : AwsKeeps externalId n
    (AwsDeleteStateMachine.inState .instanceDeletingStart AwsDeleteStateMachine.startDeleting) := by
  refine inState_keeps fun m w hstate h => wp_bind.mpr (wp_self.mpr ?_)
  have incomplete : m.state ≠ .complete := by rw [hstate]; decide
  cases hserver : m.externalId.server with
  | none => exact h
  | some id =>
      have named : (DeleteThread.aws externalId n).names .server = some id := by
        rw [← h.named]
        exact hserver
      refine wp_bind.mpr (wp_mono (deleteListed_wp named (B := AwsAt externalId n m)
        (fun h hb => h.beside hb) h) ?_ ?_)
      · rintro found m₁ w₁ ⟨rfl, h₁, settled⟩
        refine ⟨h₁.named, h₁.made, fun kind hk => ?_, fun hc => absurd (h₁.complete hc) incomplete⟩
        obtain rfl := List.mem_singleton.mp hk
        exact settled
      · rintro e m₁ w₁ ⟨rfl, h₁⟩
        exact h₁

theorem awaitDeleted_keeps : AwsKeeps externalId n
    (AwsDeleteStateMachine.inState .instanceDeleting AwsDeleteStateMachine.awaitDeleted) := by
  refine inState_keeps fun m w hstate h => wp_bind.mpr (wp_self.mpr ?_)
  have incomplete : m.state ≠ .complete := by rw [hstate]; decide
  refine wp_bind.mpr (wp_mono (refreshDelete_wp (B := AwsAt externalId n m)
    (fun h hb => h.beside hb) h) ?_ ?_)
  · rintro found m₁ w₁ ⟨rfl, h₁⟩
    have server : Settled w₁ (.aws externalId n) .server :=
      h₁.settled .server (by rw [hstate]; exact List.mem_singleton_self _)
    have found_at : AwsAt externalId n { m₁ with server := found } w₁ :=
      ⟨h₁.named, h₁.made, h₁.settled, h₁.complete⟩
    refine wp_bind.mpr (wp_assign.mpr ?_)
    split
    · split
      · refine setState_at found_at incomplete fun kind hk => ?_
        obtain rfl := List.mem_singleton.mp hk
        exact server
      · rename_i noHost
        exact setState_at found_at incomplete (forall_settled server
          (h₁.unnamed (Option.not_isSome_iff_eq_none.mp noHost)))
    · exact found_at
  · rintro e m₁ w₁ ⟨rfl, h₁⟩
    exact h₁

theorem startReleasing_keeps : AwsKeeps externalId n
    (AwsDeleteStateMachine.inState .hostReleasingStart AwsDeleteStateMachine.startReleasing) := by
  refine inState_keeps fun m w hstate h => wp_bind.mpr (wp_self.mpr ?_)
  have incomplete : m.state ≠ .complete := by rw [hstate]; decide
  cases hhost : m.externalId.host with
  | none => exact h
  | some id =>
      have named : (DeleteThread.aws externalId n).names .host = some id := by
        rw [← h.named]
        exact hhost
      refine wp_bind.mpr (wp_mono (deleteListed_wp named (B := AwsAt externalId n m)
        (fun h hb => h.beside hb) h) ?_ ?_)
      · rintro found m₁ w₁ ⟨rfl, h₁, settled⟩
        have server : Settled w₁ (.aws externalId n) .server :=
          h₁.settled .server (by rw [hstate]; exact List.mem_singleton_self _)
        exact ⟨h₁.named, h₁.made, forall_settled server settled,
          fun hc => absurd (h₁.complete hc) incomplete⟩
      · rintro e m₁ w₁ ⟨rfl, h₁⟩
        exact h₁

theorem awaitReleased_keeps : AwsKeeps externalId n
    (AwsDeleteStateMachine.inState .hostReleasing AwsDeleteStateMachine.awaitReleased) := by
  refine inState_keeps fun m w hstate h => wp_bind.mpr (wp_self.mpr ?_)
  have incomplete : m.state ≠ .complete := by rw [hstate]; decide
  refine wp_bind.mpr (wp_mono (refreshDelete_wp (B := AwsAt externalId n m)
    (fun h hb => h.beside hb) h) ?_ ?_)
  · rintro found m₁ w₁ ⟨rfl, h₁⟩
    have found_at : AwsAt externalId n { m₁ with host := found } w₁ :=
      ⟨h₁.named, h₁.made, h₁.settled, h₁.complete⟩
    refine wp_bind.mpr (wp_assign.mpr ?_)
    unfold when
    split
    · refine setState_at found_at incomplete (forall_settled ?_ ?_)
      · exact h₁.settled .server (by rw [hstate]; simp [settledKinds])
      · exact h₁.settled .host (by rw [hstate]; simp [settledKinds])
    · exact found_at
  · rintro e m₁ w₁ ⟨rfl, h₁⟩
    exact h₁

theorem complete_keeps : AwsKeeps externalId n
    (AwsDeleteStateMachine.inState .complete (assign fun m => { m with complete := true })) :=
  inState_keeps fun _ _ hstate h => ⟨h.named, h.made, h.settled, fun _ => hstate⟩

theorem advance_keeps : AwsKeeps externalId n AwsDeleteStateMachine.advance :=
  .bind begin_keeps fun _ => .bind startDeleting_keeps fun _ => .bind awaitDeleted_keeps fun _ =>
    .bind startReleasing_keeps fun _ => .bind awaitReleased_keeps fun _ => complete_keeps

end Aws

section Azure

variable {externalId : String} {n : Nat}

structure AzureAt (externalId : String) (n : Nat) (m : AzureDeleteStateMachine)
    (w : DeleteWorld) : Prop where
  named : m.externalId = externalId
  settled : m.state ≠ .start → Settled w (.azure externalId n) .virtualMachine
  complete : m.complete = true → m.state ≠ .start

theorem AzureAt.beside {m : AzureDeleteStateMachine} (h : AzureAt externalId n m w)
    (hb : Beside (.azure externalId n) w w') : AzureAt externalId n m w' :=
  ⟨h.named, fun hs => (h.settled hs).beside hb, h.complete⟩

theorem advanceAzure_keeps :
    Keeps (context (.azure externalId n)) (AzureAt externalId n)
      AzureDeleteStateMachine.advance := by
  refine .bind ?_ fun _ => ?_
  · intro m w h
    change (when (m.state = .start) AzureDeleteStateMachine.startDeleting).wp _ _ _ m w
    unfold when
    split
    · rename_i hstate
      have named : (DeleteThread.azure externalId n).names .virtualMachine = some m.externalId := by
        rw [h.named]
        rfl
      refine wp_bind.mpr (wp_self.mpr (wp_bind.mpr (wp_mono (deleteVirtualMachine_wp named
        (B := AzureAt externalId n m) (fun h hb => h.beside hb) h) ?_ ?_)))
      · rintro found m₁ w₁ ⟨rfl, h₁, settled⟩
        exact ⟨h₁.named, fun _ => settled, fun _ hs => nomatch hs⟩
      · rintro e m₁ w₁ ⟨rfl, h₁⟩
        exact h₁
    · exact h
  · intro m w h
    change (when (m.state = .vmDeleting) AzureDeleteStateMachine.awaitDeleted).wp _ _ _ m w
    unfold when
    split
    · rename_i hstate
      have started : m.state ≠ .start := by rw [hstate]; decide
      refine wp_bind.mpr (wp_self.mpr (wp_bind.mpr (wp_mono (refreshDeleteMachine_wp
        (B := AzureAt externalId n m) (fun h hb => h.beside hb) h) ?_ ?_)))
      · rintro found m₁ w₁ ⟨rfl, h₁⟩
        refine wp_bind.mpr (wp_assign.mpr ?_)
        unfold when
        split
        · exact ⟨h₁.named, fun _ => h₁.settled started, fun _ hs => nomatch hs⟩
        · exact ⟨h₁.named, h₁.settled, h₁.complete⟩
      · rintro e m₁ w₁ ⟨rfl, h₁⟩
        exact h₁
    · exact h

end Azure

theorem env_later (henv : DeleteWorld.Env w w') : Later w w' := by
  cases henv with
  | tick now later => exact ⟨fun _ _ h _ => h, fun _ _ h => h, le_refl _⟩
  | terminate kind names => exact later_terminate kind names

theorem env_madeAt (henv : DeleteWorld.Env w w') : w'.madeAt = w.madeAt := by
  cases henv <;> rfl

theorem env_invariant (h : Invariant w) (henv : DeleteWorld.Env w w') : Invariant w' := by
  cases henv with
  | tick now later => exact ⟨h.numbered, h.lazy, h.entry, h.madeAt⟩
  | terminate kind names => exact h.terminate kind names

/-! ### Runs -/

/-- What holds of a thread while it is idle. -/
def idle : (i : DeleteThread) → i.State → DeleteWorld → Prop
  | .aws externalId n, some machine, w => AwsAt externalId n machine w
  | .azure externalId n, some machine, w => AzureAt externalId n machine w
  | _, _, _ => True

theorem idle_beside {s : i.State} (h : idle i s w) (hb : Beside i w w') : idle i s w' := by
  cases i with
  | aws externalId n =>
      cases s with
      | none => trivial
      | some machine => exact AwsAt.beside h hb
  | azure externalId n =>
      cases s with
      | none => trivial
      | some machine => exact AzureAt.beside h hb
  | _ => trivial

/-- A new machine has done nothing. -/
theorem make_wp {α : Type} {m : α} {Q : α → DeleteWorld → Prop}
    (h : ∀ w, Invariant w → Q m w) :
    (Prog.call (S := LauncherSig) .newDeleteStateMachine fun _ => .pure m).wp (context i) Q w := by
  intro w₁ _ hi
  exact ⟨trivial, fun r w₂ hs hi₂ => h w₂ hi₂⟩

theorem update_wp {σ : Type} {s : σ} :
    (AwsAdapter.update kind).wp (context i) (fun _ _ _ => True) (fun _ _ _ => True) s w := by
  have put : ∀ {listed : Except Err Listing} {s : σ} {w : DeleteWorld},
      (∀ l, listed = .ok l → Shows w kind l) → (do
        let now ← call .time
        call (.finishUpdate kind (listed.map fun l => (now, l))) : LauncherM σ Unit).wp
          (context i) (fun _ _ _ => True) (fun _ _ _ => True) s w := by
    intro listed s w h
    have lasting : ∀ {w w' : DeleteWorld}, (∀ l, listed = .ok l → Shows w kind l) →
        Beside i w w' → ∀ l, listed = .ok l → Shows w' kind l :=
      fun h hb l hl => (h l hl).later hb.toLater
    have within : Within Reads (fun s : σ => s) (call .time : LauncherM σ _) := .perform trivial
    refine wp_bind.mpr (wp_mono (reads_wp within lasting h) ?_ fun _ _ _ _ => trivial)
    rintro now s₁ w₁ ⟨-, h₁⟩
    refine Method.wp_call (P := fun w => ∀ l, listed = .ok l → Shows w kind l)
      (fun h hb _ => lasting h hb) h₁ (fun w h _ => ?_) (fun _ _ _ _ _ _ _ => trivial)
      fun _ _ _ _ _ _ _ => trivial
    cases listed with
    | error e => exact trivial
    | ok l => exact h l rfl
  refine wp_bind.mpr (wp_attempt.mpr (Method.wp_call (P := fun _ => True) (fun _ _ _ => trivial)
    trivial (fun _ _ _ => trivial) ?_ ?_))
  · intro l w₁ w₂ _ _ hs _
    have mem : w₂ ∈ w₁.next i (.describe kind) (.ok l) := hs.1
    obtain ⟨lists, rfl⟩ := of_mem_ite mem
    refine put fun l' hl => ?_
    cases hl
    exact Lists.shows lists
  · exact fun e _ _ _ _ _ _ => put fun l hl => nomatch hl

theorem deleteBatch_wp {s : Unit} :
    (AwsAdapter.deleteBatch kind).wp (context .deleter) (fun _ _ _ => True) (fun _ _ _ => True)
      s w := by
  have within : Within Reads (fun s : Unit => s) (AwsAdapter.deleteBatch kind) :=
    .bind (.perform trivial) fun _ => .ite (.perform trivial) .pure
  exact wp_mono (reads_wp within (B := fun _ => True) (fun _ _ => trivial) trivial)
    (fun _ _ _ _ => trivial) fun _ _ _ _ => trivial

/-- One call that asks nothing of the world. -/
theorem call_wp {c : Call} (hc : Reads c) {Q : Unit → DeleteWorld → Prop} (h : ∀ w, Q () w) :
    (Prog.call (S := LauncherSig) c fun _ => .pure ()).wp (context i) Q w :=
  fun _ _ _ => ⟨req_of_reads hc, fun _ w₂ _ _ => h w₂⟩

theorem body_wp (op : i.Op) {s : i.State} (h : idle i s w) :
    (i.body op s).wp (context i) (idle i) w := by
  cases i with
  | aws externalId n =>
      cases op with
      | make =>
          refine make_wp fun w hi => ⟨rfl, hi.madeAt _, fun _ hk => absurd hk List.not_mem_nil,
            fun hc => nomatch hc⟩
      | advance =>
          cases s with
          | none => trivial
          | some machine =>
              exact Prog.wp_bind.mpr (wp_toBody.mpr (advance_keeps machine w h))
  | azure externalId n =>
      cases op with
      | make => exact make_wp fun w hi => ⟨rfl, fun hs => absurd rfl hs, fun hc => nomatch hc⟩
      | advance =>
          cases s with
          | none => trivial
          | some machine =>
              exact Prog.wp_bind.mpr (wp_toBody.mpr (advanceAzure_keeps machine w h))
  | creator n => exact call_wp (c := .createResource op.1 op.2) trivial fun _ => trivial
  | reader n => exact call_wp (c := .listCached op) trivial fun _ => trivial
  | executor kind =>
      change ((AwsAdapter.update kind).toBody (fun _ s => s) s).wp (context (.executor kind))
        (fun _ _ => True) w
      exact wp_toBody.mpr update_wp
  | deleter =>
      change ((AwsAdapter.deleteBatch op).toBody (fun _ s => s) s).wp (context .deleter)
        (fun _ _ => True) w
      exact wp_toBody.mpr deleteBatch_wp

def outline : Outline deleteSystem Fresh where
  inv := Invariant
  rely := Beside
  req _ := Req
  linv := idle
  rely_refl _ w := ⟨.refl w, rfl⟩
  rely_trans _ _ _ _ h h' := ⟨h.toLater.trans h'.toLater, h'.madeAt.trans h.madeAt⟩
  linv_stable _ _ _ _ h hr _ := idle_beside h hr
  entry _ op _ _ _ _ _ h := body_wp op h
  call_inv _ _ _ _ _ h hreq _ hs := (next_stepped h hreq hs).invariant
  call_rely _ j _ _ _ _ hij h hreq _ hs :=
    have stepped := next_stepped h hreq hs
    ⟨stepped.toLater, stepped.madeAt j (Or.inl (Ne.symm hij))⟩
  env_inv := env_invariant
  env_rely j _ _ _ henv := ⟨env_later henv, congrFun (env_madeAt henv) j⟩

theorem init_invariant (ttl : Nat) : Invariant (DeleteWorld.init ttl) where
  numbered _ _ hp := absurd hp List.not_mem_nil
  lazy _ := LazyExecutorTTLCache.forall_init _ ttl
  entry _ _ he := nomatch he
  madeAt _ := le_refl 0

theorem init_safe (ttl : Nat) : outline.Safe (init ttl) := by
  refine Outline.Safe.of_idle (init_invariant ttl) fun i => ⟨i.initial, rfl, ?_⟩
  cases i <;> trivial

/-- **Main result.** When a delete state machine is complete, every resource with a name of
its external id that existed when it was made is gone, or its deletion was requested; in
every run in which a machine reads no listing that is older than what it is to delete. -/
theorem complete_settled {ttl : Nat} {cfg : Config deleteSystem}
    (run : deleteSystem.Run Fresh (init ttl) cfg) {i : DeleteThread} {s : i.State}
    (idle : cfg.thread i = .pure s) (complete : Complete i s) {kind : CloudKind}
    {p : String × Nat} (named : i.names kind = some p.1) (existed : p.2 < cfg.world.madeAt i) :
    p ∉ cfg.world.live kind ∨ p.2 ∈ cfg.world.requested kind := by
  have safe := outline.sound (init_safe ttl) run
  have settled : Settled cfg.world i kind := by
    have at_idle := safe.idle idle
    cases i with
    | aws externalId n =>
        cases s with
        | none => cases complete
        | some machine =>
            have h : AwsAt externalId n machine cfg.world := at_idle
            have both := h.settled
            rw [h.complete complete] at both
            cases kind with
            | server => exact both .server (by simp [settledKinds])
            | host => exact both .host (by simp [settledKinds])
            | virtualMachine => cases named
    | azure externalId n =>
        cases s with
        | none => cases complete
        | some machine =>
            have h : AzureAt externalId n machine cfg.world := at_idle
            cases kind with
            | virtualMachine => exact h.settled (h.complete complete)
            | _ => cases named
    | _ => cases complete
  by_contra neither
  obtain ⟨live, notRequested⟩ := not_or.mp neither
  exact settled.none_due p ⟨named, not_not.mp live, existed, notRequested⟩

/-! ### Examples -/

/-- What the cloud lists, all of it running. -/
def exampleListing (w : DeleteWorld) (kind : CloudKind) : Listing :=
  ⟨(w.live kind).map fun p => ⟨p.1, "running"⟩, w.created⟩

/-- Answers of calls that succeed. -/
def exampleAnswer (w : DeleteWorld) : (c : Call) → LauncherSig.Reply c
  | .newDeleteStateMachine | .createResource _ _ | .putDeleteQueue _ _ | .deleteResources _ _
  | .finishUpdate _ _ | .log _ => .ok ()
  | .listCached kind =>
      .ok (((w.lazy kind).resolve.2.lookup w.now).1.getD (exampleListing w kind))
  | .describe kind => .ok (exampleListing w kind)
  | .takeDeleteQueue kind => .ok (w.queue kind)
  | .time => .ok w.now
  | _ => .error .other

def exampleCalls (i : DeleteThread) (choices : List Nat) : List (System.Action deleteSystem) :=
  choices.map (.respond i exampleAnswer)

def exampleId : AwsExternalId := ⟨some "i-1", none⟩

def exampleMachine : DeleteThread := .aws exampleId 0

/-- A machine reads no listing that is older than the machine. -/
def allowed (w : DeleteWorld) : Event deleteSystem → Bool
  | .call i (.listCached _) (.ok l) => w.madeAt i ≤ l.fetchedAt
  | .call _ .ttlCacheGet _ | .call _ (.ttlCachePut _) _ => false
  | _ => true

theorem fresh_of_allowed (w : DeleteWorld) (e : Event deleteSystem) (h : allowed w e = true) :
    Fresh w e := by
  unfold Fresh
  split
  · rename_i i kind l
    rintro p ⟨-, -, older, -⟩
    have young : w.madeAt i ≤ l.fetchedAt := of_decide_eq_true h
    exact older.trans_le young
  · cases h
  · cases h
  · trivial

def exampleMake : List (System.Action deleteSystem) :=
  .start exampleMachine MachineOp.make :: exampleCalls exampleMachine [0]

def exampleAdvance (calls : Nat) : List (System.Action deleteSystem) :=
  .start exampleMachine MachineOp.advance :: exampleCalls exampleMachine (List.replicate calls 0)

def exampleCreate : List (System.Action deleteSystem) :=
  .start (.creator 0) (CloudKind.server, "i-1") :: exampleCalls (.creator 0) [0]

/-- An instance is created, listed, terminated, and no longer listed. -/
def deleteSchedule : List (System.Action deleteSystem) :=
  exampleCreate ++ exampleMake ++ exampleAdvance 3 ++
    .start .deleter CloudKind.server :: exampleCalls .deleter [0, 1] ++
    .start (.executor .server) () :: exampleCalls (.executor .server) [0, 0, 0] ++
    exampleAdvance 1

/-- A machine is complete after the instance was created, listed and terminated. -/
theorem complete_settled_deleteSchedule : ∃ cfg,
    System.exec allowed (init 0) deleteSchedule = some cfg ∧
      (("i-1", 0) ∉ cfg.world.live .server ∨ 0 ∈ cfg.world.requested .server) := by
  have hexec : ∃ cfg machine, System.exec allowed (init 0) deleteSchedule = some cfg ∧
      cfg.world.madeAt exampleMachine = 1 ∧
      cfg.thread exampleMachine = .pure (some machine) ∧ machine.complete = true :=
    ⟨_, _, rfl, rfl, rfl, rfl⟩
  obtain ⟨cfg, machine, hcfg, made, idle, complete⟩ := hexec
  have run := System.exec_run _ fresh_of_allowed hcfg
  have existed : 0 < cfg.world.madeAt exampleMachine := made ▸ Nat.one_pos
  exact ⟨cfg, hcfg, complete_settled run (i := exampleMachine) (s := some machine) idle complete
    (p := ("i-1", 0)) (show exampleMachine.names .server = some "i-1" from rfl) existed⟩

/-- The machine of an instance that was created after the listing was made is complete at
once, and the instance stays. -/
theorem not_forall_complete_settled :
    ¬ ∀ (ttl : Nat) (cfg : Config deleteSystem),
      deleteSystem.Run (System.always deleteSystem) (init ttl) cfg →
      ∀ (i : DeleteThread) (s : i.State), cfg.thread i = .pure s → Complete i s →
      ∀ (kind : CloudKind) (p : String × Nat), i.names kind = some p.1 →
      p.2 < cfg.world.madeAt i → p ∉ cfg.world.live kind ∨ p.2 ∈ cfg.world.requested kind := by
  intro h
  have hexec : ∃ cfg machine, System.exec (fun _ _ => true) (init 10)
      (.start (.reader 0) CloudKind.server :: exampleCalls (.reader 0) [0] ++
        exampleCreate ++ exampleMake ++ exampleAdvance 2) = some cfg ∧
      cfg.thread exampleMachine = .pure (some machine) ∧ machine.complete = true ∧
      cfg.world.live .server = [("i-1", 0)] ∧ cfg.world.madeAt exampleMachine = 1 ∧
      cfg.world.requested .server = [] := ⟨_, _, rfl, rfl, rfl, rfl, rfl, rfl⟩
  obtain ⟨cfg, machine, hcfg, idle, complete, live, made, notRequested⟩ := hexec
  have settled := h 10 cfg (System.exec_run _ (fun _ _ _ => trivial) hcfg) exampleMachine
    (some machine) idle complete .server ("i-1", 0) rfl (by rw [made]; exact Nat.one_pos)
  rw [live, notRequested] at settled
  rcases settled with gone | requested
  · exact gone (List.mem_singleton_self _)
  · exact List.not_mem_nil requested

end DeleteSystem

end Nodepool
