import Mathlib.Data.List.Perm.Basic
import Mathlib.Data.List.ReduceOption
import Mathlib.Logic.Function.Basic
import Mathlib.Tactic
import Nodepool.Zk.Models

/-!
`StaticNodeProvider.getRegisteredNodes` of `nodepool/driver/static/provider.py`: the nodes that
are registered in ZooKeeper, by node tuple and slot.

The nodes come in any order. Those whose slot is free are put there at once; the others, among
them the nodes of tuples that are not configured, get the first free slot afterwards, or a slot
of their own at the end.
-/

namespace Nodepool.Static

/-- `nodeTuple` of a static node or of a node in ZooKeeper, where each part may be missing. -/
structure NodeTuple where
  hostname : Option String
  username : Option String
  port : Option ℕ
deriving DecidableEq, Repr

/-- A static node of the configuration. -/
structure StaticNode where
  tuple : NodeTuple
  maxParallelJobs : ℤ
deriving DecidableEq, Repr

/-- What is read of a node in ZooKeeper; slots are stored as they are enumerated. -/
structure Registered where
  id : String
  provider : String
  state : NodeState
  tuple : NodeTuple
  slot : Option ℕ
deriving DecidableEq, Repr

/-- `_node_slots` -/
abbrev Table : Type := NodeTuple → Option (List (Option Registered))

/-- Start with as many slots as jobs for each tuple; a later static node with the same tuple
takes the place of an earlier one. -/
def initSlots (pools : List (List StaticNode)) : Table :=
  pools.flatten.foldl (fun table static => Function.update table static.tuple
    (some (List.replicate static.maxParallelJobs.toNat none))) fun _ => none

/-- The first loop, for one node that is registered. -/
def place (acc : Table × List Registered) (node : Registered) : Table × List Registered :=
  match acc.1 node.tuple with
  | some slots =>
      match node.slot with
      | some slot =>
          if slot < slots.length ∧ slots[slot]? = some none then
            (Function.update acc.1 node.tuple (some (slots.set slot (some node))), acc.2)
          else (acc.1, acc.2 ++ [node])
      | none => (acc.1, acc.2 ++ [node])
  | none => (Function.update acc.1 node.tuple (some []), acc.2 ++ [node])

/-- The second loop. -/
def fill (table : Table) (node : Registered) : Table :=
  match table node.tuple with
  | some slots =>
      if none ∈ slots then
        Function.update table node.tuple (some (slots.set (slots.idxOf none) (some node)))
      else Function.update table node.tuple (some (slots ++ [some node]))
  -- does not happen: every node that is left over has an entry
  | none => table

/-- The node counts as registered with this provider. -/
def Counts (provider : String) (node : Registered) : Prop :=
  node.provider = provider ∧ node.state ≠ .building ∧ node.state ≠ .deleting

instance (provider : String) : DecidablePred (Counts provider) := fun node => by
  unfold Counts; exact inferInstance

def getRegisteredNodes (provider : String) (pools : List (List StaticNode))
    (nodes : List Registered) : Table :=
  let placed := (nodes.filter fun node => Counts provider node).foldl place (initSlots pools, [])
  placed.2.foldl fill placed.1

/-- `max-parallel-jobs` of a configured tuple. -/
def maxParallelJobs (pools : List (List StaticNode)) (tuple : NodeTuple) : Option ℤ :=
  (pools.flatten.reverse.find? fun static => static.tuple = tuple).map StaticNode.maxParallelJobs

/-- The slots of a tuple. -/
def slots (table : Table) (tuple : NodeTuple) : List (Option Registered) :=
  (table tuple).getD []

/-- The nodes of a tuple. -/
def ofTuple (nodes : List Registered) (tuple : NodeTuple) : List Registered :=
  nodes.filter fun node => node.tuple = tuple

/-- What is asked of the table. -/
structure Right (provider : String) (pools : List (List StaticNode)) (nodes : List Registered)
    (table : Table) : Prop where
  /-- a registered node is once under its own tuple, and never under another one -/
  once : ∀ node ∈ nodes, Counts provider node → ∀ tuple,
    (slots table tuple).count (some node) = if tuple = node.tuple then 1 else 0
  long : ∀ tuple, ∀ jobs ∈ maxParallelJobs pools tuple,
    (table tuple).isSome ∧ jobs ≤ (slots table tuple).length
  /-- a slot is free only if there are fewer nodes than jobs -/
  free : ∀ tuple, none ∈ slots table tuple → ∃ jobs ∈ maxParallelJobs pools tuple,
    ((ofTuple (nodes.filter fun node => Counts provider node) tuple).length : ℤ) < jobs

/-! ### The invariant of the loops -/

/-- How many slots a tuple starts with. -/
def capacity (pools : List (List StaticNode)) (tuple : NodeTuple) : ℕ :=
  ((maxParallelJobs pools tuple).getD 0).toNat

/-- The nodes that have been read are in the table or left over. -/
structure Inv (pools : List (List StaticNode)) (done : List Registered) (table : Table)
    (rest : List Registered) : Prop where
  account : ∀ tuple, ((slots table tuple).reduceOption ++ ofTuple rest tuple).Perm
    (ofTuple done tuple)
  known : ∀ node ∈ rest, (table node.tuple).isSome
  configured : ∀ tuple, (maxParallelJobs pools tuple).isSome → (table tuple).isSome
  long : ∀ tuple, ∀ l ∈ table tuple, capacity pools tuple ≤ l.length
  full : ∀ tuple, none ∈ slots table tuple → (slots table tuple).length = capacity pools tuple

theorem reduceOption_set {l : List (Option Registered)} {i : ℕ} (free : l[i]? = some none)
    (node : Registered) : (l.set i (some node)).reduceOption.Perm (node :: l.reduceOption) := by
  induction l generalizing i with
  | nil => cases free
  | cons first l ih =>
      cases i with
      | zero =>
          cases free
          exact .refl _
      | succ i =>
          cases first with
          | none => exact ih free
          | some other => exact ((ih free).cons other).trans (.swap node other _)

section Moves

variable {pools : List (List StaticNode)} {done rest : List Registered} {table : Table}
  {node : Registered}

theorem slots_update (table : Table) (tuple tuple' : NodeTuple) (l : List (Option Registered)) :
    slots (Function.update table tuple (some l)) tuple' =
      if tuple' = tuple then l else slots table tuple' := by
  unfold slots
  rw [Function.update_apply]
  split <;> rfl

theorem isSome_update (table : Table) (tuple tuple' : NodeTuple) (l : List (Option Registered))
    (known : (table tuple').isSome) : (Function.update table tuple (some l) tuple').isSome := by
  rw [Function.update_apply]
  split
  · rfl
  · exact known

theorem slots_eq {tuple : NodeTuple} {l : List (Option Registered)} (h : table tuple = some l) :
    slots table tuple = l := by
  rw [slots, h]
  rfl

theorem Inv.perm {rest' : List Registered} (inv : Inv pools done table rest)
    (perm : rest.Perm rest') : Inv pools done table rest' :=
  { inv with
    account := fun tuple => ((perm.filter _).symm.append_left _).trans (inv.account tuple)
    known := fun node mem => inv.known node (perm.mem_iff.mpr mem) }

/-- A node is read, and is left over for now. -/
theorem Inv.arrive (inv : Inv pools done table rest) (known : (table node.tuple).isSome) :
    Inv pools (done ++ [node]) table (node :: rest) := by
  refine { inv with
    account := fun tuple => ?_
    known := List.forall_mem_cons.mpr ⟨known, inv.known⟩ }
  have account := inv.account tuple
  unfold ofTuple at account ⊢
  rw [List.filter_append, List.filter_cons, List.filter_singleton]
  by_cases own : node.tuple = tuple
  · simp only [own, decide_true, if_true]
    exact List.perm_middle.trans ((account.cons node).trans (List.perm_append_singleton _ _).symm)
  · simpa [own] using account

/-- The tuple of a node gets an entry. -/
theorem Inv.enter (inv : Inv pools done table rest) {tuple : NodeTuple}
    (unknown : table tuple = none) :
    Inv pools done (Function.update table tuple (some [])) rest := by
  have empty : slots table tuple = [] := by rw [slots, unknown]; rfl
  have same : ∀ tuple', slots (Function.update table tuple (some [])) tuple' =
      slots table tuple' := by
    intro tuple'
    rw [slots_update]
    split
    · rename_i own
      rw [own, empty]
    · rfl
  have unconfigured : capacity pools tuple = 0 := by
    have none : maxParallelJobs pools tuple = none := by
      by_contra some
      have := inv.configured tuple (Option.isSome_iff_ne_none.mpr some)
      rw [unknown] at this
      cases this
    rw [capacity, none]
    rfl
  constructor
  · exact fun tuple' => (same tuple').symm ▸ inv.account tuple'
  · exact fun node mem => isSome_update _ _ _ _ (inv.known node mem)
  · exact fun tuple' some => isSome_update _ _ _ _ (inv.configured tuple' some)
  · intro tuple' l mem
    rw [Function.update_apply] at mem
    split at mem
    · rename_i own
      rw [own, unconfigured]
      exact Nat.zero_le _
    · exact inv.long tuple' l mem
  · exact fun tuple' free => by rw [same] at free ⊢; exact inv.full tuple' free

/-- A node that is left over gets a slot. -/
theorem Inv.put {l l' : List (Option Registered)} (inv : Inv pools done table (node :: rest))
    (entry : table node.tuple = some l) (perm : l'.reduceOption.Perm (node :: l.reduceOption))
    (long : l.length ≤ l'.length) (full : none ∈ l' → none ∈ l ∧ l'.length = l.length) :
    Inv pools done (Function.update table node.tuple (some l')) rest := by
  constructor
  · intro tuple
    have account := inv.account tuple
    unfold ofTuple at account ⊢
    rw [List.filter_cons] at account
    rw [slots_update]
    by_cases own : tuple = node.tuple
    · subst own
      rw [slots_eq entry] at account
      simp only [decide_true, if_true] at account ⊢
      exact ((perm.append_right _).trans List.perm_middle.symm).trans account
    · rw [if_neg own]
      simpa [Ne.symm own] using account
  · exact fun other mem => isSome_update _ _ _ _ (inv.known other (List.mem_cons_of_mem _ mem))
  · exact fun tuple some => isSome_update _ _ _ _ (inv.configured tuple some)
  · intro tuple k mem
    rw [Function.update_apply] at mem
    split at mem
    · rename_i own
      cases mem
      exact (own ▸ inv.long node.tuple l entry).trans long
    · exact inv.long tuple k mem
  · intro tuple free
    rw [slots_update] at free ⊢
    split at free
    · rename_i own
      obtain ⟨before, same⟩ := full free
      have := inv.full node.tuple (by rwa [slots_eq entry])
      rw [slots_eq entry] at this
      rw [if_pos own, own, same, this]
    · rename_i other
      rw [if_neg other]
      exact inv.full tuple free

/-- A free slot is taken. -/
theorem Inv.take {l : List (Option Registered)} (inv : Inv pools done table (node :: rest))
    (entry : table node.tuple = some l) {i : ℕ} (free : l[i]? = some none) :
    Inv pools done (Function.update table node.tuple (some (l.set i (some node)))) rest := by
  refine inv.put entry (reduceOption_set free node) (List.length_set ..).ge fun mem => ?_
  refine ⟨List.mem_of_getElem? free, List.length_set ..⟩

/-- The step lemma of the first loop. -/
theorem Inv.place (inv : Inv pools done table rest) (node : Registered) :
    Inv pools (done ++ [node]) (place (table, rest) node).1 (place (table, rest) node).2 := by
  have left {table : Table} (inv : Inv pools (done ++ [node]) table (node :: rest)) :
      Inv pools (done ++ [node]) table (rest ++ [node]) :=
    inv.perm (List.perm_append_singleton node rest).symm
  unfold Static.place
  cases entry : table node.tuple with
  | none =>
      simp only [entry]
      have entered := inv.enter entry
      exact left (entered.arrive (by rw [Function.update_self]; rfl))
  | some l =>
      have known : (table node.tuple).isSome := by rw [entry]; rfl
      have arrived := inv.arrive known
      cases slot : node.slot with
      | none =>
          simp only [entry]
          exact left arrived
      | some i =>
          simp only [entry]
          split
          · rename_i free
            exact arrived.take entry free.2
          · exact left arrived

/-- The step lemma of the second loop. -/
theorem Inv.fill (inv : Inv pools done table (node :: rest)) :
    Inv pools done (fill table node) rest := by
  obtain ⟨l, entry⟩ := Option.isSome_iff_exists.mp (inv.known node List.mem_cons_self)
  unfold Static.fill
  simp only [entry]
  split
  · rename_i free
    exact inv.take entry (List.getElem?_idxOf free)
  · rename_i taken
    refine inv.put entry ?_ (List.length_append ▸ Nat.le_add_right _ _) fun mem => ?_
    · rw [List.reduceOption_append]
      exact List.perm_append_singleton node _
    · simp [taken] at mem

/-- The run lemma of the first loop. -/
theorem Inv.foldl_place (nodes : List Registered) (inv : Inv pools done table rest) :
    Inv pools (done ++ nodes) (nodes.foldl Static.place (table, rest)).1
      (nodes.foldl Static.place (table, rest)).2 := by
  induction nodes generalizing done table rest with
  | nil => simpa using inv
  | cons node nodes ih => simpa using ih (inv.place node)

/-- The run lemma of the second loop. -/
theorem Inv.foldl_fill (inv : Inv pools done table rest) :
    Inv pools done (rest.foldl Static.fill table) [] := by
  induction rest generalizing table with
  | nil => exact inv
  | cons node rest ih => exact ih inv.fill

end Moves

theorem initSlots_eq (pools : List (List StaticNode)) (tuple : NodeTuple) :
    initSlots pools tuple =
      (maxParallelJobs pools tuple).map fun jobs => List.replicate jobs.toNat none := by
  unfold initSlots maxParallelJobs
  induction pools.flatten using List.reverseRecOn with
  | nil => rfl
  | append_singleton statics static ih =>
      rw [List.foldl_append, List.reverse_append, List.foldl_cons, List.foldl_nil,
        List.reverse_singleton, List.singleton_append, List.find?_cons, Function.update_apply, ih]
      by_cases own : tuple = static.tuple
      · simp [own]
      · simp [own, Ne.symm own]

theorem Inv.init (pools : List (List StaticNode)) : Inv pools [] (initSlots pools) [] := by
  have slots_init (tuple : NodeTuple) : slots (initSlots pools) tuple =
      List.replicate (capacity pools tuple) none := by
    rw [slots, initSlots_eq, capacity]
    cases maxParallelJobs pools tuple <;> rfl
  constructor
  · intro tuple
    rw [slots_init, List.reduceOption_replicate_none]
    exact .refl _
  · exact fun _ mem => absurd mem List.not_mem_nil
  · intro tuple some
    rwa [initSlots_eq, Option.isSome_map]
  · intro tuple l mem
    have := slots_init tuple
    rw [slots_eq mem] at this
    rw [this, List.length_replicate]
  · exact fun tuple _ => by rw [slots_init, List.length_replicate]

theorem count_some (l : List (Option Registered)) (node : Registered) :
    l.count (some node) = l.reduceOption.count node := by
  induction l with
  | nil => rfl
  | cons first l ih =>
      cases first with
      | none => simpa using ih
      | some other => simp [List.count_cons, ih]

/-- Whatever nodes are in ZooKeeper, the table has each of them once, has a slot for each job,
and has a free slot only where there are fewer nodes than jobs. -/
theorem getRegisteredNodes_right (provider : String) (pools : List (List StaticNode))
    (nodes : List Registered) (distinct : nodes.Nodup) :
    Right provider pools nodes (getRegisteredNodes provider pools nodes) := by
  have inv : Inv pools (nodes.filter fun node => Counts provider node)
      (getRegisteredNodes provider pools nodes) [] := by
    have placed := (Inv.init pools).foldl_place (nodes.filter fun node => Counts provider node)
    exact placed.foldl_fill
  have account (tuple : NodeTuple) :
      (slots (getRegisteredNodes provider pools nodes) tuple).reduceOption.Perm
        (ofTuple (nodes.filter fun node => Counts provider node) tuple) := by
    simpa [ofTuple] using inv.account tuple
  constructor
  · intro node mem counts tuple
    rw [count_some, (account tuple).count_eq]
    split
    · rename_i own
      have kept : node ∈ ofTuple (nodes.filter fun node => Counts provider node) tuple := by
        simp [ofTuple, mem, counts, own]
      exact List.count_eq_one_of_mem ((distinct.filter _).filter _) kept
    · rename_i other
      refine List.count_eq_zero.mpr fun mem => other ?_
      exact (of_decide_eq_true (List.mem_filter.mp mem).2).symm
  · intro tuple jobs mem
    have some := inv.configured tuple (Option.isSome_iff_exists.mpr ⟨jobs, mem⟩)
    obtain ⟨l, entry⟩ := Option.isSome_iff_exists.mp some
    have long := inv.long tuple l entry
    rw [capacity, mem, Option.getD_some] at long
    exact ⟨some, by rw [slots_eq entry]; omega⟩
  · intro tuple free
    have fewer := List.reduceOption_length_lt_iff.mpr free
    rw [(account tuple).length_eq, inv.full tuple free, capacity] at fewer
    cases configured : maxParallelJobs pools tuple with
    | none =>
        rw [configured] at fewer
        exact absurd fewer (Nat.not_lt_zero _)
    | some jobs =>
        rw [configured, Option.getD_some] at fewer
        exact ⟨jobs, rfl, by omega⟩

/-! ### Three nodes for two jobs -/

def exampleTuple : NodeTuple := ⟨some "198.51.100.1", some "zuul", some 22⟩

def exampleNodes : List Registered :=
  [⟨"1", "static", .ready, exampleTuple, some 1⟩, ⟨"2", "static", .inUse, exampleTuple, some 1⟩,
    ⟨"3", "static", .ready, exampleTuple, none⟩]

theorem getRegisteredNodes_right_example :
    exampleNodes.Nodup ∧
      Right "static" [[⟨exampleTuple, 2⟩]] exampleNodes
        (getRegisteredNodes "static" [[⟨exampleTuple, 2⟩]] exampleNodes) :=
  have distinct : exampleNodes.Nodup := by decide
  ⟨distinct, getRegisteredNodes_right "static" [[⟨exampleTuple, 2⟩]] exampleNodes distinct⟩

end Nodepool.Static
