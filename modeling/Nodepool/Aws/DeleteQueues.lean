import Mathlib.Data.List.Perm.Basic
import Mathlib.Logic.Function.Basic
import Mathlib.Tactic

/-!
The delete thread of `nodepool/driver/aws/adapter.py`: `_deleteInstance` and `_releaseHost`, which
put identifiers into two queues, and `_deleteThreadInner`, which takes them out in batches.

Every put and every get is a step of its own, so that the threads interleave in any way. What
has been put into a queue, what calls have deleted and what they have failed to delete is
recorded beside the queues.
-/

namespace Nodepool.Aws

inductive Kind where
  | instances
  | hosts
deriving DecidableEq

/-- Where the delete thread is. -/
inductive Phase (Id : Type) where
  /-- between two rounds -/
  | idle
  /-- in `_getBatch`, with what it has taken so far -/
  | getBatch (kind : Kind) (records : List Id)
  /-- before `terminate_instances` or `release_hosts` -/
  | call (kind : Kind) (records : List Id)
deriving DecidableEq

structure State (Id : Type) where
  /-- `delete_instance_queue` and `delete_host_queue` -/
  queue : Kind → List Id
  phase : Phase Id
  enqueued : Kind → List Id
  deleted : Kind → List Id
  /-- what was part of a call that raised -/
  failed : Kind → List Id

def initial {Id : Type} : State Id where
  queue _ := []
  phase := .idle
  enqueued _ := []
  deleted _ := []
  failed _ := []

/-- What a thread does. -/
inductive Action (Id : Type) where
  /-- `_deleteInstance` or `_releaseHost`, with what the listing has -/
  | delete (kind : Kind) (listed : List Id) (id : Id) (immediate : Bool)
  /-- `_deleteThreadInner` starts -/
  | begin
  /-- a `get` of a queue -/
  | get
  /-- `terminate_instances` or `release_hosts` returns or raises -/
  | call (raises : Bool)

def Action.raises {Id : Type} : Action Id → Bool
  | .call raises => raises
  | _ => false

variable {Id : Type}

/-- Add to the list of one kind. -/
def push (lists : Kind → List Id) (kind : Kind) (ids : List Id) : Kind → List Id :=
  Function.update lists kind (lists kind ++ ids)

/-- `_deleteInstance` and `_releaseHost`. A call that is made at once does not involve the
queues. -/
def delete_ [DecidableEq Id] (s : State Id) (kind : Kind) (listed : List Id) (id : Id)
    (immediate : Bool) : State Id :=
  if id ∉ listed then s
  else if immediate then s
  else { s with queue := push s.queue kind [id], enqueued := push s.enqueued kind [id] }

/-- What follows when a kind is done. -/
def Kind.next : Kind → Phase Id
  | .instances => .getBatch .hosts []
  | .hosts => .idle

/-- The batch that the cloud is asked to delete at once. -/
def batchSize : ℕ := 50

/-- A `get` of `_getBatch`. The first one waits for a record and gives up after a time, and the
others do not wait. -/
def get (s : State Id) (kind : Kind) (records : List Id) : State Id :=
  match s.queue kind with
  | [] => { s with phase := if records = [] then kind.next else .call kind records }
  | id :: rest =>
      { s with
        queue := Function.update s.queue kind rest
        phase :=
          if records ≠ [] ∧ batchSize ≤ (records ++ [id]).length then .call kind (records ++ [id])
          else .getBatch kind (records ++ [id]) }

/-- The call for a batch. When it raises, the thread starts over with a new round. -/
def call (s : State Id) (kind : Kind) (records : List Id) (raises : Bool) : State Id :=
  if raises then { s with phase := .idle, failed := push s.failed kind records }
  else { s with phase := kind.next, deleted := push s.deleted kind records }

def step [DecidableEq Id] (s : State Id) : Action Id → Option (State Id)
  | .delete kind listed id immediate => some (delete_ s kind listed id immediate)
  | .begin =>
      match s.phase with
      | .idle => some { s with phase := .getBatch .instances [] }
      | _ => none
  | .get =>
      match s.phase with
      | .getBatch kind records => some (get s kind records)
      | _ => none
  | .call raises =>
      match s.phase with
      | .call kind records => some (call s kind records raises)
      | _ => none

def run [DecidableEq Id] (s : State Id) : List (Action Id) → Option (State Id)
  | [] => some s
  | action :: actions => (step s action).bind (run · actions)

/-- What the delete thread holds of a kind. -/
def Phase.records : Phase Id → Kind → List Id
  | .idle, _ => []
  | .getBatch kind records, k => if k = kind then records else []
  | .call kind records, k => if k = kind then records else []

/-! ### The invariant -/

/-- What was put into a queue has been deleted, has been part of a call that raised, is held by
the delete thread or is in the queue. -/
structure Inv (s : State Id) : Prop where
  conserved : ∀ k, (s.enqueued k).Perm
    (s.deleted k ++ s.failed k ++ s.phase.records k ++ s.queue k)
  nonempty : ∀ kind records, s.phase = .call kind records → records ≠ []

theorem initial_inv : Inv (initial : State Id) := ⟨fun _ => .refl _, nofun⟩

theorem push_self (lists : Kind → List Id) (kind : Kind) (ids : List Id) :
    push lists kind ids kind = lists kind ++ ids := Function.update_self ..

theorem push_of_ne (lists : Kind → List Id) {kind k : Kind} (h : k ≠ kind) (ids : List Id) :
    push lists kind ids k = lists k := Function.update_of_ne h ..

theorem Kind.next_records (kind k : Kind) : (kind.next : Phase Id).records k = [] := by
  cases kind with
  | instances =>
      change (if k = .hosts then [] else []) = ([] : List Id)
      rw [ite_self]
  | hosts => rfl

theorem Inv.delete [DecidableEq Id] {s : State Id} (inv : Inv s) (kind : Kind) (listed : List Id)
    (id : Id) (immediate : Bool) : Inv (delete_ s kind listed id immediate) := by
  unfold delete_
  split
  · exact inv
  split
  · exact inv
  refine ⟨fun k => ?_, inv.nonempty⟩
  have conserved := inv.conserved k
  dsimp only
  by_cases h : k = kind
  · subst h
    rw [push_self, push_self, ← List.append_assoc]
    exact conserved.append_right [id]
  · rw [push_of_ne _ h, push_of_ne _ h]
    exact conserved

theorem Inv.get {s : State Id} (inv : Inv s) {kind : Kind} {records : List Id}
    (phase : s.phase = .getBatch kind records) : Inv (get s kind records) := by
  have conserved := inv.conserved
  rw [phase] at conserved
  unfold Nodepool.Aws.get
  cases queue : s.queue kind with
  | nil =>
      dsimp only
      by_cases empty : records = []
      · subst empty
        rw [if_pos rfl]
        refine ⟨fun k => ?_, fun _ _ h => by cases kind <;> cases h⟩
        have := conserved k
        dsimp only
        rw [Kind.next_records]
        rwa [Phase.records, ite_self] at this
      · rw [if_neg empty]
        refine ⟨conserved, fun _ _ h => ?_⟩
        cases h
        exact empty
  | cons id rest =>
      dsimp only
      have taken (k : Kind) : (s.enqueued k).Perm (s.deleted k ++ s.failed k ++
          (if k = kind then records ++ [id] else []) ++ Function.update s.queue kind rest k) := by
        have conserved := conserved k
        rw [Phase.records] at conserved
        by_cases h : k = kind
        · subst h
          rw [if_pos rfl, Function.update_self]
          rw [if_pos rfl, queue] at conserved
          simpa using conserved
        · rw [if_neg h, Function.update_of_ne h]
          rwa [if_neg h] at conserved
      split
      · refine ⟨taken, fun _ _ h => ?_⟩
        cases h
        exact List.append_ne_nil_of_right_ne_nil _ (List.cons_ne_nil _ _)
      · exact ⟨taken, nofun⟩

theorem Inv.call {s : State Id} (inv : Inv s) {kind : Kind} {records : List Id}
    (phase : s.phase = .call kind records) (raises : Bool) : Inv (call s kind records raises) := by
  have conserved := inv.conserved
  rw [phase] at conserved
  unfold Nodepool.Aws.call
  cases raises with
  | true =>
      refine ⟨fun k => ?_, nofun⟩
      have conserved := conserved k
      rw [Phase.records] at conserved
      simp only [if_true, Phase.records]
      by_cases h : k = kind
      · subst h
        rw [if_pos rfl] at conserved
        rw [push_self, List.append_nil, ← List.append_assoc]
        exact conserved
      · rw [if_neg h] at conserved
        rw [push_of_ne _ h]
        exact conserved
  | false =>
      refine ⟨fun k => ?_, fun _ _ h => by cases kind <;> cases h⟩
      have conserved := conserved k
      rw [Phase.records] at conserved
      simp only [Bool.false_eq_true, if_false]
      rw [Kind.next_records]
      by_cases h : k = kind
      · subst h
        rw [if_pos rfl] at conserved
        rw [push_self, List.append_nil]
        refine conserved.trans (List.Perm.append_right _ ?_)
        rw [List.append_assoc, List.append_assoc]
        exact List.perm_append_comm.append_left _
      · rw [if_neg h] at conserved
        rw [push_of_ne _ h]
        exact conserved

/-- The step lemma. -/
theorem Inv.step [DecidableEq Id] {s s' : State Id} (inv : Inv s) {action : Action Id}
    (step : step s action = some s') : Inv s' := by
  unfold Nodepool.Aws.step at step
  cases action with
  | delete kind listed id immediate =>
      cases step
      exact inv.delete kind listed id immediate
  | begin =>
      cases phase : s.phase with
      | idle =>
          rw [phase] at step
          cases step
          refine ⟨fun k => ?_, nofun⟩
          have conserved := inv.conserved k
          rw [phase] at conserved
          rwa [Phase.records, ite_self]
      | getBatch | call => simp [phase] at step
  | get =>
      cases phase : s.phase with
      | getBatch kind records =>
          rw [phase] at step
          cases step
          exact inv.get phase
      | idle | call => simp [phase] at step
  | call raises =>
      cases phase : s.phase with
      | call kind records =>
          rw [phase] at step
          cases step
          exact inv.call phase raises
      | idle | getBatch => simp [phase] at step

/-- A batch has failed. -/
def Failed (s : State Id) : Prop := ∃ kind, s.failed kind ≠ []

/-- Only a call that raises makes identifiers fail, and it always does. -/
theorem failed_step [DecidableEq Id] {s s' : State Id} (inv : Inv s) {action : Action Id}
    (step : step s action = some s') : Failed s' ↔ Failed s ∨ action.raises = true := by
  unfold Nodepool.Aws.step at step
  cases action with
  | delete kind listed id immediate =>
      cases step
      simp only [Action.raises, Bool.false_eq_true, or_false, Failed, delete_]
      split
      · rfl
      split <;> rfl
  | begin =>
      cases phase : s.phase with
      | idle =>
          rw [phase] at step
          cases step
          simp [Action.raises, Failed]
      | getBatch | call => simp [phase] at step
  | get =>
      cases phase : s.phase with
      | getBatch kind records =>
          rw [phase] at step
          cases step
          have kept : (get s kind records).failed = s.failed := by
            unfold get
            split <;> rfl
          simp [Action.raises, Failed, kept]
      | idle | call => simp [phase] at step
  | call raises =>
      cases phase : s.phase with
      | call kind records =>
          rw [phase] at step
          cases step
          cases raises with
          | false => simp [Action.raises, Failed, call]
          | true =>
              refine iff_of_true ⟨kind, ?_⟩ (.inr rfl)
              change push s.failed kind records kind ≠ []
              rw [push_self]
              exact List.append_ne_nil_of_right_ne_nil _ (inv.nonempty kind records phase)
      | idle | getBatch => simp [phase] at step

/-- The run lemma. -/
theorem inv_of_run [DecidableEq Id] {s s' : State Id} {actions : List (Action Id)} (inv : Inv s)
    (ran : run s actions = some s') :
    Inv s' ∧ (Failed s' ↔ Failed s ∨ ∃ action ∈ actions, action.raises = true) := by
  induction actions generalizing s with
  | nil =>
      cases ran
      simp [inv]
  | cons action actions ih =>
      obtain ⟨s₁, first, rest⟩ := Option.bind_eq_some_iff.mp ran
      obtain ⟨inv', failed⟩ := ih (inv.step first) rest
      refine ⟨inv', ?_⟩
      rw [failed, failed_step inv first, List.exists_mem_cons_iff, or_assoc]

/-! ### Between two rounds -/

/-- Each identifier that was put into a queue is there or has been deleted. -/
def NothingLost (s : State Id) : Prop :=
  ∀ kind, ∀ id ∈ s.enqueued kind, id ∈ s.queue kind ∨ id ∈ s.deleted kind

/-- No identifier is lost as long as no call raises, and one that raises loses those of its batch,
unless they have been put into the queue more than once. -/
theorem nothingLost_run [DecidableEq Id] {s : State Id} {actions : List (Action Id)}
    (ran : run initial actions = some s) (idle : s.phase = .idle) :
    ((∀ action ∈ actions, action.raises = false) → NothingLost s) ∧
      ((∀ kind, (s.enqueued kind).Nodup) → NothingLost s →
        ∀ action ∈ actions, action.raises = false) := by
  obtain ⟨inv, failed⟩ := inv_of_run initial_inv ran
  have conserved (k : Kind) : (s.enqueued k).Perm (s.deleted k ++ s.failed k ++ s.queue k) := by
    have conserved := inv.conserved k
    rw [idle] at conserved
    rwa [Phase.records, List.append_nil] at conserved
  have raised : Failed s ↔ ∃ action ∈ actions, action.raises = true := by
    rw [failed]
    exact or_iff_right fun ⟨_, h⟩ => h rfl
  constructor
  · intro calm kind id mem
    have none : s.failed kind = [] := by
      by_contra h
      obtain ⟨action, mem, raises⟩ := raised.mp ⟨kind, h⟩
      rw [calm action mem] at raises
      cases raises
    rw [(conserved kind).mem_iff, none, List.append_nil, List.mem_append] at mem
    exact mem.symm
  · intro once kept action mem
    by_contra h
    obtain ⟨kind, batch⟩ := raised.mpr ⟨action, mem, eq_true_of_ne_false h⟩
    obtain ⟨id, lost⟩ := List.exists_mem_of_ne_nil _ batch
    have nodup := (conserved kind).nodup_iff.mp (once kind)
    obtain ⟨front, -, apart⟩ := List.nodup_append'.mp nodup
    rcases kept kind id ((conserved kind).mem_iff.mpr (List.mem_append_left _
      (List.mem_append_right _ lost))) with queued | deleted
    · exact apart (List.mem_append_right _ lost) queued
    · exact (List.nodup_append'.mp front).2.2 deleted lost

/-! ### A batch -/

/-- One instance is deleted in a round. -/
def exampleRound (raises : Bool) : List (Action ℕ) :=
  [.delete .instances [7] 7 false, .begin, .get, .get, .call raises] ++
    if raises then [] else [.get]

theorem nothingLost_run_round : ∃ s, run initial (exampleRound false) = some s ∧
    s.phase = .idle ∧ s.deleted .instances = [7] ∧ NothingLost s :=
  have ran : run initial (exampleRound false) = some _ := rfl
  ⟨_, ran, rfl, rfl, (nothingLost_run ran rfl).1 (by decide)⟩

/-- The call raises, and the instance is neither in the queue nor deleted. -/
theorem round_lost : ∃ s, run initial (exampleRound true) = some s ∧ s.phase = .idle ∧
    7 ∈ s.enqueued .instances ∧ 7 ∉ s.queue .instances ∧ 7 ∉ s.deleted .instances ∧
    ¬ NothingLost s := by
  refine ⟨_, rfl, rfl, List.mem_cons_self, List.not_mem_nil, List.not_mem_nil, ?_⟩
  intro kept
  rcases kept .instances 7 List.mem_cons_self with h | h <;> exact absurd h List.not_mem_nil

end Nodepool.Aws
