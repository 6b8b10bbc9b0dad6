import Nodepool.Zk.NodeFaults

/-!
`ZooKeeper.deleteOldestUnusedNode`, which makes room in a pool that is at its quota.

It is meant to do nothing while a node of the pool has been `DELETING` for less than five
minutes. The test divides the state time, which is in seconds, by 1000, so it finds such a
node only during the first five minutes of the epoch.
-/

namespace Nodepool.OldestUnused

open Effect Method NodeFaults ZooKeeper

/-- A node is locked or it is not; nothing else goes wrong but stores. -/
structure Locks (E : Faults) : Prop where
  iterate : E.call .nodeIterator = none
  lock : ∀ o, OnlyRefused E o
  unlock : ∀ o, Unlockable E o

/-- The nodes of the cache, each of which has been stored. -/
structure Cached (w : World) : Prop where
  nodup : w.refs.Nodup
  named : ∀ o ∈ w.refs, (w.object o).id ≠ none

section Nodes

variable (E : Faults) (w : World) (provider pool : String) (o : NodeRef)

/-- The node is one of the provider's pool. -/
def InPool : Prop := (w.object o).node.provider = some provider ∧ (w.object o).node.pool = some pool

/-- The node of the pool entered `DELETING` less than five minutes ago. -/
def Recent : Prop :=
  InPool w provider pool o ∧ (w.object o).node.state = .deleting ∧
    E.now < (w.object o).node.stateTime + maxDeleteAge

/-- The test of the source, with a state time in milliseconds. -/
def PassesTest : Prop :=
  InPool w provider pool o ∧ (w.object o).node.state = .deleting ∧
    1000 * E.now < (w.object o).node.stateTime + 1000 * maxDeleteAge

/-- The node of the pool is `READY` and not allocated. -/
def Candidate : Prop :=
  InPool w provider pool o ∧ (w.object o).node.state = .ready ∧
    ¬ truthy (w.object o).node.allocatedTo

/-- The data is that of an unused node. -/
def Unused (node : Node) : Prop := node.state = .ready ∧ ¬ truthy node.allocatedTo

instance : Decidable (InPool w provider pool o) := inferInstanceAs (Decidable (_ ∧ _))
instance : Decidable (PassesTest E w provider pool o) := inferInstanceAs (Decidable (_ ∧ _ ∧ _))
instance : Decidable (Candidate w provider pool o) := inferInstanceAs (Decidable (_ ∧ _ ∧ _))
instance (node : Node) : Decidable (Unused node) := inferInstanceAs (Decidable (_ ∧ _))

/-- A candidate that can be locked, and that is still unused then. -/
def Eligible : Prop :=
  o ∈ w.refs ∧ Candidate w provider pool o ∧ Lockable E o ∧ Unused (w.stored o)

end Nodes

/-- The data of an unused node that is to be deleted. -/
def deleting (now : ℕ) (node : Node) : Node := { node with state := .deleting, stateTime := now }

/-- The nodes in ZooKeeper after `deleteOldestUnusedNode`. -/
def delete (E : Faults) (w : World) (provider pool : String) : NodeRef → Node :=
  ((deleteOldestUnusedNode provider pool : LauncherM Unit Bool).runAlone (answer E) () w).2.stored

/-- Nothing changes while a node is being deleted; otherwise, if the stores succeed, the
oldest of the eligible nodes is set to be deleted, and no other. -/
def DeletesOldest (E : Faults) (w : World) (provider pool : String) : Prop :=
  ((∃ o ∈ w.refs, Recent E w provider pool o) → delete E w provider pool = w.stored) ∧
  ((¬ ∃ o ∈ w.refs, Recent E w provider pool o) → (∀ o, E.call (.setNode o) = none) →
    (∃ o, Eligible E w provider pool o ∧
      (∀ o', Eligible E w provider pool o' →
        (w.object o).node.stateTime ≤ (w.object o').node.stateTime) ∧
      delete E w provider pool =
        Function.update w.stored o (deleting E.now (w.stored o))) ∨
    (∀ o, ¬ Eligible E w provider pool o) ∧ delete E w provider pool = w.stored)

/-- While a node is being deleted, the test of the source finds one, or there is nothing
that could be deleted. -/
def Noticed (E : Faults) (w : World) (provider pool : String) : Prop :=
  (∃ o ∈ w.refs, Recent E w provider pool o) →
    (∃ o ∈ w.refs, PassesTest E w provider pool o) ∨
      ∀ o, Eligible E w provider pool o → stores E o = false

variable {E : Faults} {w : World} {provider pool : String} {o : NodeRef}

/-! ### The candidates -/

theorem unusedNodes_wp (os : List NodeRef) :
    (unusedNodes provider pool os : LauncherM Unit _).wp (context E)
      (fun found _ w' => w' = w ∧ found =
        if ∃ o ∈ os, PassesTest E w provider pool o then none
        else some ((os.filter fun o => Candidate w provider pool o).map
          fun o => ((w.object o).node.stateTime, o)))
      (fun _ _ _ => False) () w := by
  induction os with
  | nil => exact ⟨rfl, by simp⟩
  | cons o os ih =>
      unfold unusedNodes
      rw [wp_bind]
      refine readNode_wp ?_
      rw [wp_bind]
      refine wp_answer ?_
      change Method.wp _ _ _ _ () w
      by_cases inPool : (w.object o).node.provider = some provider ∧
          (w.object o).node.pool = some pool
      case neg =>
        have test : ¬ PassesTest E w provider pool o := fun h => inPool h.1
        have candidate : ¬ Candidate w provider pool o := fun h => inPool h.1
        rw [if_neg inPool]
        simpa [test, candidate] using ih
      rw [if_pos inPool]
      by_cases unused : (w.object o).node.state = .ready ∧ ¬ truthy (w.object o).node.allocatedTo
      case pos =>
        have test : ¬ PassesTest E w provider pool o := fun h => by
          rw [h.2.1] at unused
          exact absurd unused.1 (by decide)
        have candidate : Candidate w provider pool o := ⟨inPool, unused⟩
        rw [if_pos unused, wp_bind]
        refine wp_mono ih ?_ fun _ _ _ h => h
        rintro found ⟨⟩ w' ⟨rfl, rfl⟩
        refine ⟨rfl, ?_⟩
        simp only [List.exists_mem_cons_iff, test, false_or, List.filter_cons, candidate,
          decide_true, if_true, List.map_cons]
        split <;> rfl
      have candidate : ¬ Candidate w provider pool o := fun h => unused h.2
      rw [if_neg unused]
      by_cases test : PassesTest E w provider pool o
      · rw [if_pos test.2]
        exact ⟨rfl, by rw [if_pos ⟨o, List.mem_cons_self, test⟩]⟩
      · rw [if_neg fun h => test ⟨inPool, h⟩]
        simpa [test, candidate] using ih

/-! ### One candidate after the other -/

/-- What becomes of the nodes when the given ones are tried. -/
def sweep (E : Faults) : List NodeRef → (NodeRef → Node) → NodeRef → Node
  | [], nodes => nodes
  | o :: os, nodes =>
      if Lockable E o ∧ Unused (nodes o) then
        match E.call (.setNode o) with
        | none => Function.update nodes o (deleting E.now (nodes o))
        | some (_, true) => sweep E os (Function.update nodes o (deleting E.now (nodes o)))
        | some (_, false) => sweep E os nodes
      else sweep E os nodes

theorem sweep_skip {nodes : NodeRef → Node} (h : ¬ (Lockable E o ∧ Unused (nodes o)))
    (os : List NodeRef) : sweep E (o :: os) nodes = sweep E os nodes := if_neg h

/-- One candidate has been tried: it is deleted, or the next one is to be tried. -/
structure Tried (E : Faults) (o : NodeRef) (w : World) (deleted : Bool) (w' : World) : Prop where
  object : ∀ o' ≠ o, w'.object o' = w.object o'
  stored : ∀ os, (if deleted then w'.stored else sweep E os w'.stored) = sweep E (o :: os) w.stored

theorem deleteUnusedNode_wp (locks : Locks E) (named : (w.object o).id ≠ none) :
    (deleteUnusedNode o : LauncherM Unit Bool).wp (context E)
      (fun deleted _ w' => Tried E o w deleted w') (fun _ _ _ => False) () w := by
  unfold deleteUnusedNode
  rw [wp_bind, wp_attempt]
  refine lockNode_wp (fun lockable => ?_) fun e w' not refused same => ?_
  case refine_2 =>
    obtain rfl := refused (locks.lock o)
    refine ⟨same.object, fun os => ?_⟩
    rw [sweep_skip fun h => not h.1, same.stored]
    rfl
  rw [wp_bind]
  refine readNode_wp ?_
  have data : ((w.locked o).object o).node = w.stored o := by simp [World.locked]
  have others : ∀ object, ∀ o' ≠ o, ((w.locked o).setObject o object).object o' = w.object o' := by
    intro object o' ho
    rw [World.setObject_ne _ ho, World.locked, World.setObject_ne _ ho]
  rw [data]
  by_cases unused : Unused (w.stored o)
  case neg =>
    have raced : (w.stored o).state ≠ .ready ∨ truthy (w.stored o).allocatedTo := by
      by_contra h
      rw [not_or, not_not] at h
      exact unused h
    rw [if_pos raced, wp_bind]
    refine unlockNode_wp (by simp [World.locked]) (fun _ => ?_) fun e w' not _ =>
      absurd (locks.unlock o) not
    refine ⟨others _, fun os => ?_⟩
    rw [sweep_skip fun h => unused h.2]
    rfl
  have still : ¬ ((w.stored o).state ≠ .ready ∨ truthy (w.stored o).allocatedTo) := by
    rintro (h | h)
    · exact h unused.1
    · exact unused.2 h
  rw [if_neg still, wp_bind, wp_attempt, wp_bind]
  refine assignState_wp ?_
  set w₁ := (w.locked o).setObject o (((w.locked o).object o).assign (.state .deleting E.now))
    with hw₁
  have node₁ : (w₁.object o).node = deleting E.now (w.stored o) := by
    rw [hw₁, World.setObject_self]
    simp [NodeObject.assign, deleting, data]
  have held₁ : (w₁.object o).lock = true := by
    rw [hw₁, World.setObject_self]
    simp [NodeObject.assign, World.locked]
  -- what is left when the node has been stored or not, and is unlocked
  have finish : ∀ {w₂ : World} {deleted : Bool}, w₂.object = w₁.object →
      (∀ os, (if deleted then w₂.stored else sweep E os w₂.stored) = sweep E (o :: os) w.stored) →
      (do
        ZooKeeper.unlockNode o
        pure deleted : LauncherM Unit Bool).wp (context E)
        (fun deleted _ w' => Tried E o w deleted w') (fun _ _ _ => False) () w₂ := by
    intro w₂ deleted same stored
    rw [wp_bind]
    refine unlockNode_wp (by rw [same]; exact held₁) (fun _ => ?_) fun e w' not _ =>
      absurd (locks.unlock o) not
    refine ⟨fun o' ho => ?_, stored⟩
    rw [World.unlocked, World.setObject_ne _ ho, same]
    exact others _ o' ho
  have tried : ∀ os, sweep E (o :: os) w.stored =
      match E.call (.setNode o) with
      | none => Function.update w.stored o (deleting E.now (w.stored o))
      | some (_, true) =>
          sweep E os (Function.update w.stored o (deleting E.now (w.stored o)))
      | some (_, false) => sweep E os w.stored := by
    intro os
    rw [sweep, if_pos ⟨lockable, unused⟩]
  refine storeNode_wp ?_ (fun stored => ?_) fun e effect fault => ?_
  · rw [hw₁, World.setObject_self]
    simpa [NodeObject.assign, World.locked] using named
  · refine finish rfl fun os => ?_
    rw [tried, stored, node₁]
    rfl
  · dsimp only
    rw [wp_bind]
    refine log_wp ?_
    cases effect with
    | true =>
        refine finish rfl fun os => ?_
        rw [tried, fault, node₁]
        rfl
    | false =>
        refine finish rfl fun os => ?_
        rw [tried, fault]
        rfl

theorem deleteFirstUnusedNode_wp (locks : Locks E) {os : List NodeRef} (nodup : os.Nodup)
    (named : ∀ o ∈ os, (w.object o).id ≠ none) :
    (deleteFirstUnusedNode os : LauncherM Unit Bool).wp (context E)
      (fun _ _ w' => w'.stored = sweep E os w.stored) (fun _ _ _ => False) () w := by
  induction os generalizing w with
  | nil => exact rfl
  | cons o os ih =>
      obtain ⟨fresh, nodup⟩ := List.nodup_cons.mp nodup
      unfold deleteFirstUnusedNode
      rw [wp_bind]
      refine wp_mono (deleteUnusedNode_wp locks (named o List.mem_cons_self)) ?_ fun _ _ _ h => h
      rintro deleted ⟨⟩ w₁ tried
      cases deleted with
      | true => exact tried.stored os
      | false =>
          have rest : ∀ o' ∈ os, (w₁.object o').id ≠ none := by
            intro o' mem
            rw [tried.object o' fun same => fresh (same ▸ mem)]
            exact named o' (List.mem_cons_of_mem _ mem)
          rw [if_neg Bool.false_ne_true]
          refine wp_mono (ih nodup rest) ?_ fun _ _ _ h => h
          rintro _ ⟨⟩ w₂ h
          exact h.trans (tried.stored os)

/-! ### What the candidates come to -/

theorem sweep_keep {os : List NodeRef} {nodes : NodeRef → Node} (h : ¬ Unused (nodes o)) :
    sweep E os nodes o = nodes o := by
  induction os generalizing nodes with
  | nil => rfl
  | cons o' os ih =>
      by_cases deletable : Lockable E o' ∧ Unused (nodes o')
      case neg =>
        rw [sweep_skip deletable]
        exact ih h
      have apart : o ≠ o' := by
        rintro rfl
        exact h deletable.2
      have kept : Function.update nodes o' (deleting E.now (nodes o')) o = nodes o :=
        Function.update_of_ne apart _ _
      rw [sweep, if_pos deletable]
      rcases E.call (.setNode o') with _ | ⟨e, effect⟩
      · exact kept
      · cases effect with
        | true => exact (ih (by rwa [kept])).trans kept
        | false => exact ih h

theorem not_unused_deleting (now : ℕ) (node : Node) : ¬ Unused (deleting now node) :=
  fun h => absurd h.1 (by simp [deleting])

/-- Nothing changes exactly when no store of a node that can be deleted takes effect. -/
theorem sweep_eq_iff {os : List NodeRef} {nodes : NodeRef → Node} :
    sweep E os nodes = nodes ↔
      ∀ o ∈ os, Lockable E o → Unused (nodes o) → stores E o = false := by
  induction os with
  | nil => exact iff_of_true rfl fun _ h => nomatch h
  | cons o os ih =>
      rw [List.forall_mem_cons]
      by_cases deletable : Lockable E o ∧ Unused (nodes o)
      case neg =>
        rw [sweep_skip deletable, ih]
        exact (and_iff_right fun lockable unused => absurd ⟨lockable, unused⟩ deletable).symm
      have changed : ∀ nodes' : NodeRef → Node, nodes' o = deleting E.now (nodes o) →
          nodes' ≠ nodes := by
        rintro nodes' ho rfl
        refine not_unused_deleting E.now (nodes' o) ?_
        rw [← ho]
        exact deletable.2
      rw [sweep, if_pos deletable]
      split
      case h_1 stored =>
        refine iff_of_false (changed _ (Function.update_self ..)) fun h => ?_
        have := h.1 deletable.1 deletable.2
        unfold stores at this
        rw [stored] at this
        cases this
      case h_2 e fault =>
        refine iff_of_false (changed _ ?_) fun h => ?_
        · have updated : Function.update nodes o (deleting E.now (nodes o)) o =
              deleting E.now (nodes o) := Function.update_self ..
          exact (sweep_keep (by rw [updated]; exact not_unused_deleting _ _)).trans updated
        · have := h.1 deletable.1 deletable.2
          unfold stores at this
          rw [fault] at this
          cases this
      case h_3 e fault =>
        rw [ih]
        exact (and_iff_right fun _ _ => by unfold stores; rw [fault]; rfl).symm

/-- With succeeding stores, the first node that can be deleted is. -/
theorem sweep_first (succeed : ∀ o, E.call (.setNode o) = none) (os : List NodeRef)
    (nodes : NodeRef → Node) :
    (∃ pre o post, os = pre ++ o :: post ∧ (∀ o' ∈ pre, ¬ (Lockable E o' ∧ Unused (nodes o'))) ∧
      Lockable E o ∧ Unused (nodes o) ∧
      sweep E os nodes = Function.update nodes o (deleting E.now (nodes o))) ∨
    (∀ o ∈ os, ¬ (Lockable E o ∧ Unused (nodes o))) ∧ sweep E os nodes = nodes := by
  induction os with
  | nil => exact .inr ⟨fun _ h => (nomatch h), rfl⟩
  | cons o os ih =>
      by_cases h : Lockable E o ∧ Unused (nodes o)
      · refine .inl ⟨[], o, os, rfl, fun _ h => (nomatch h), h.1, h.2, ?_⟩
        rw [sweep, if_pos h, succeed o]
      · rw [sweep_skip h]
        rcases ih with ⟨pre, o', post, rfl, before, rest⟩ | ⟨none, same⟩
        · exact .inl ⟨o :: pre, o', post, rfl, List.forall_mem_cons.mpr ⟨h, before⟩, rest⟩
        · exact .inr ⟨List.forall_mem_cons.mpr ⟨h, none⟩, same⟩

/-- The candidates in the order in which they are tried. -/
def candidates (w : World) (provider pool : String) : List NodeRef :=
  (((w.refs.filter fun o => Candidate w provider pool o).map
    fun o => ((w.object o).node.stateTime, o)).insertionSort fun a b => a.1 ≤ b.1).map (·.2)

instance : IsTrans (ℕ × NodeRef) fun a b => a.1 ≤ b.1 := ⟨fun _ _ _ => le_trans⟩

instance : Std.Total fun a b : ℕ × NodeRef => a.1 ≤ b.1 := ⟨fun _ _ => le_total _ _⟩

theorem candidates_perm :
    (candidates w provider pool).Perm (w.refs.filter fun o => Candidate w provider pool o) := by
  refine ((List.perm_insertionSort _ _).map _).trans ?_
  rw [List.map_map]
  exact .of_eq (List.map_id' _)

theorem mem_candidates :
    o ∈ candidates w provider pool ↔ o ∈ w.refs ∧ Candidate w provider pool o := by
  rw [candidates_perm.mem_iff, List.mem_filter, decide_eq_true_iff]

theorem candidates_nodup (cached : Cached w) : (candidates w provider pool).Nodup :=
  candidates_perm.nodup_iff.mpr (cached.nodup.filter _)

/-- The oldest candidates come first. -/
theorem candidates_sorted (w : World) (provider pool : String) :
    (candidates w provider pool).Pairwise fun o o' =>
    (w.object o).node.stateTime ≤ (w.object o').node.stateTime := by
  refine List.pairwise_map.mpr ?_
  refine (List.pairwise_insertionSort _ _).imp_of_mem ?_
  intro a b ha hb le
  have aged : ∀ c ∈ (((w.refs.filter fun o => Candidate w provider pool o).map
      fun o => ((w.object o).node.stateTime, o)).insertionSort fun a b => a.1 ≤ b.1),
      c.1 = (w.object c.2).node.stateTime := by
    intro c hc
    obtain ⟨o, -, rfl⟩ := List.mem_map.mp ((List.perm_insertionSort _ _).mem_iff.mp hc)
    rfl
  rw [← aged a ha, ← aged b hb]
  exact le

theorem delete_eq (provider pool : String) (locks : Locks E) (cached : Cached w) :
    delete E w provider pool =
      if ∃ o ∈ w.refs, PassesTest E w provider pool o then w.stored
      else sweep E (candidates w provider pool) w.stored := by
  have spec : (deleteOldestUnusedNode provider pool : LauncherM Unit Bool).wp (context E)
      (fun _ _ w' => w'.stored = if ∃ o ∈ w.refs, PassesTest E w provider pool o then w.stored
        else sweep E (candidates w provider pool) w.stored) (fun _ _ _ => False) () w := by
    unfold deleteOldestUnusedNode
    rw [wp_bind]
    refine reply_wp rfl (fun _ => ?_) fun e effect fault => by
      rw [locks.iterate] at fault; cases fault
    rw [wp_bind]
    refine wp_mono (unusedNodes_wp w.refs) ?_ fun _ _ _ h => h
    rintro found ⟨⟩ w₁ ⟨rfl, rfl⟩
    by_cases noticed : ∃ o ∈ w₁.refs, PassesTest E w₁ provider pool o
    · rw [if_pos noticed]
      exact (if_pos noticed).symm
    · rw [if_neg noticed]
      refine wp_mono (deleteFirstUnusedNode_wp locks (candidates_nodup cached) fun o mem =>
        cached.named o (mem_candidates.mp mem).1) ?_ fun _ _ _ h => h
      exact fun _ _ _ h => h.trans (if_neg noticed).symm
  have h := runAlone_of_wp spec
  unfold delete
  generalize (deleteOldestUnusedNode provider pool : LauncherM Unit Bool).runAlone (answer E) ()
    w = out at h ⊢
  obtain ⟨⟨result, ⟨⟩⟩, w'⟩ := out
  cases result with
  | ok b => exact h
  | error e => exact h.elim

theorem eligible_iff : Eligible E w provider pool o ↔
    o ∈ candidates w provider pool ∧ Lockable E o ∧ Unused (w.stored o) := by
  rw [mem_candidates, and_assoc]
  rfl

theorem Recent.of_passesTest (h : PassesTest E w provider pool o) : Recent E w provider pool o :=
  ⟨h.1, h.2.1, by have := h.2.2; omega⟩

/-- Nothing changes when the test notices a node, or nothing can be deleted. -/
theorem delete_eq_stored_iff (provider pool : String) (locks : Locks E) (cached : Cached w) :
    delete E w provider pool = w.stored ↔
      (∃ o ∈ w.refs, PassesTest E w provider pool o) ∨
        ∀ o, Eligible E w provider pool o → stores E o = false := by
  rw [delete_eq provider pool locks cached]
  by_cases noticed : ∃ o ∈ w.refs, PassesTest E w provider pool o
  · rw [if_pos noticed]
    exact iff_of_true rfl (.inl noticed)
  · rw [if_neg noticed, or_iff_right noticed, sweep_eq_iff]
    refine forall_congr' fun o => ?_
    rw [eligible_iff]
    exact ⟨fun h e => h e.1 e.2.1 e.2.2, fun h mem lockable unused => h ⟨mem, lockable, unused⟩⟩

/-- The method does what it is meant to exactly when the recency test of the source notices
a node that is being deleted, or there is nothing to delete. -/
theorem deletesOldest_iff (E : Faults) (w : World) (provider pool : String) (locks : Locks E)
    (cached : Cached w) :
    DeletesOldest E w provider pool ↔ Noticed E w provider pool := by
  have unchanged := delete_eq_stored_iff provider pool locks cached
  have result := delete_eq provider pool locks cached
  unfold DeletesOldest Noticed
  constructor
  · exact fun h recent => unchanged.mp (h.1 recent)
  · refine fun h => ⟨fun recent => unchanged.mpr (h recent), fun quiet succeed => ?_⟩
    have unnoticed : ¬ ∃ o ∈ w.refs, PassesTest E w provider pool o :=
      fun ⟨o, mem, test⟩ => quiet ⟨o, mem, .of_passesTest test⟩
    rw [if_neg unnoticed] at result
    rcases sweep_first succeed (candidates w provider pool) w.stored with
      ⟨pre, o, post, split, before, lockable, unused, swept⟩ | ⟨none, swept⟩
    · have eligible : Eligible E w provider pool o :=
        eligible_iff.mpr ⟨by rw [split]; simp, lockable, unused⟩
      refine .inl ⟨o, eligible, fun o' eligible' => ?_, result.trans swept⟩
      obtain ⟨mem, deletable⟩ := eligible_iff.mp eligible'
      have sorted := candidates_sorted w provider pool
      rw [split] at mem sorted
      rcases List.mem_append.mp mem with earlier | later
      · exact absurd deletable (before o' earlier)
      · rcases List.mem_cons.mp later with rfl | later
        · exact le_rfl
        · exact (List.pairwise_cons.mp (List.pairwise_append.mp sorted).2.1).1 o' later
    · refine .inr ⟨fun o eligible => ?_, result.trans swept⟩
      obtain ⟨mem, deletable⟩ := eligible_iff.mp eligible
      exact none o mem deletable

/-! ### Two nodes, one of which is being deleted -/

def exampleNode (state : NodeState) (stateTime : ℕ) : Node where
  state := state
  stateTime := stateTime
  type := ["small"]
  provider := some "cloud"
  pool := some "main"
  launcher := none
  allocatedTo := none
  tenantName := none
  requestor := none
  resources := none
  externalId := none

/-- The node `1` has been ready since the time 1000, and the node `0` is being deleted
since the time 2000. -/
def exampleWorld : World where
  refs := [.cached 0, .cached 1]
  object
    | .cached 0 => ⟨some 0, exampleNode .deleting 2000, false, false, false⟩
    | _ => ⟨some 1, exampleNode .ready 1000, false, false, false⟩
  stored
    | .cached 0 => exampleNode .deleting 2000
    | _ => exampleNode .ready 1000
  request := none
  reads := 0

/-- Nothing fails, and the time is 2060. -/
def exampleFaults : Faults := ⟨fun _ => none, fun _ => none, 2060⟩

theorem exampleFaults_locks : Locks exampleFaults where
  iterate := rfl
  lock _ := ⟨fun _ _ h => (nomatch h), fun _ _ h => (nomatch h), rfl⟩
  unlock _ := ⟨rfl, rfl⟩

theorem exampleWorld_cached : Cached exampleWorld where
  nodup := by decide
  named := by decide

theorem deletesOldest_iff_example :
    DeletesOldest exampleFaults exampleWorld "cloud" "main" ↔
      Noticed exampleFaults exampleWorld "cloud" "main" :=
  deletesOldest_iff exampleFaults exampleWorld "cloud" "main" exampleFaults_locks
    exampleWorld_cached

/-- The ready node is deleted one minute after the other. -/
theorem not_forall_deletesOldest :
    ¬ ∀ (E : Faults) (w : World) (provider pool : String), Locks E → Cached w →
      DeletesOldest E w provider pool := by
  intro h
  have kept := (h exampleFaults exampleWorld "cloud" "main" exampleFaults_locks
    exampleWorld_cached).1 ⟨.cached 0, List.mem_cons_self, ⟨rfl, rfl⟩, rfl, by decide⟩
  rcases (delete_eq_stored_iff _ _ exampleFaults_locks exampleWorld_cached).mp kept with
    noticed | none
  · exact absurd noticed (by decide)
  · have eligible : Eligible exampleFaults exampleWorld "cloud" "main" (.cached 1) :=
      ⟨by decide, by decide, ⟨rfl, rfl, rfl⟩, by decide⟩
    exact absurd (none _ eligible) (by decide)

end Nodepool.OldestUnused
