import Nodepool.Effect.Footprint
import Nodepool.StateMachine.LaunchSystem

/-!
What each call does to the launch of a node. Every attempt belongs to the create state
machine that was made last. As long as the thread that starts the launch has not made
the first one, it is the only one that makes machines; from then on the runner is.
-/

namespace Nodepool

open Effect Method

namespace LaunchWorld

/-! ### How worlds follow one another -/

/-- Everything that the attempts depend on is the same. -/
structure Same (w w' : LaunchWorld) : Prop where
  machine : w'.launcher.stateMachine = w.launcher.stateMachine
  delete : w'.launcher.deleteStateMachine = w.launcher.deleteStateMachine
  attempts : w'.launcher.attempts = w.launcher.attempts
  state : w'.object.node.state = w.object.node.state
  externalId : w'.object.node.externalId = w.object.node.externalId
  stored : w'.stored.externalId = w.stored.externalId ∨
    w'.stored.externalId = w.object.node.externalId
  future : w'.future = w.future
  removed : w'.removed = w.removed
  made : w'.made = w.made
  failed : w'.failed = w.failed
  live : w'.live = w.live
  doomed : w'.doomed = w.doomed

/-- The machine that was made last belongs to the runner: the first launch is over, or
has made its machine. -/
def Begun (w : LaunchWorld) : Prop := w.future ≠ none ∨ w.launcher.stateMachine ≠ none

/-- The first launch is under way, and has not made its machine. -/
structure Starting (w : LaunchWorld) : Prop where
  future : w.future = none
  machine : w.launcher.stateMachine = none

/-- What the runner relies on: until the launch has begun, others may make the first
machine, and afterwards nobody else changes anything. -/
structure Later (w w' : LaunchWorld) : Prop where
  delete : w'.launcher.deleteStateMachine = w.launcher.deleteStateMachine
  state : w'.object.node.state = w.object.node.state
  externalId : w'.object.node.externalId = w.object.node.externalId
  removed : w'.removed = w.removed
  live : w'.live = w.live
  doomed : w'.doomed = w.doomed
  future : w.future ≠ none → w'.future ≠ none
  made : Begun w → w'.made = w.made
  failed : Begun w → w'.failed = w.failed
  machine : Begun w → w'.launcher.stateMachine = w.launcher.stateMachine
  started : ∀ {machine}, ¬ Begun w → w'.launcher.stateMachine = some machine →
    machine.externalId = none ∧ w'.failed = false

/-- What the thread that starts the launch relies on. -/
structure Awaited (w w' : LaunchWorld) : Prop where
  future : w'.future = w.future
  machine : Starting w → w'.launcher.stateMachine = none
  failed : Starting w → w'.failed = w.failed

/-- What holds of the world at all times. -/
structure Consistent (w : LaunchWorld) : Prop where
  early : w.launcher.stateMachine = none → w.live = [] ∧ w.doomed = []
  named : ∀ p ∈ w.live, p.2 ≠ ""
  live_le : ∀ p ∈ w.live, p.1 ≤ w.made
  /-- at most one instance of the node exists at a time -/
  single : ∀ p ∈ w.live, ∀ q ∈ w.live, p.1 = q.1
  launched : 0 < w.launcher.attempts

/-- Only the runner assigns what decides on the attempts, and makes machines once the
launch has begun. -/
def Owner : LaunchThread → LaunchWorld → Prop
  | .starter, w => Starting w
  | .runner, w => Begun w

/-- What a thread must respect: a create state machine is only advanced as long as its
attempt has not failed and there is nothing left of the attempt before, and no node is
stored as ready whose instance is being deleted. -/
def Req (i : LaunchThread) (w : LaunchWorld) : Call → Prop
  | .setNode _ => w.object.node.state = .ready → w.made ∉ w.doomed
  | .advanceCreate _ => i = .runner ∧ w.failed = false ∧ w.launcher.deleteStateMachine = none ∧
      ∀ p ∈ w.live, p.1 = w.made
  | .getCreateStateMachine _ _ _ _ _ => Owner i w
  | .assignLauncher _ (.stateMachine m) => Owner i w ∧
      ∃ machine, m = some machine ∧ machine.externalId = none ∧ w.failed = false
  | .assignLauncher _ (.attempts n) => i = .runner ∧ 0 < n
  | .assignLauncher _ (.deleteStateMachine _) => i = .runner
  | .assignNode _ (.state _ _) | .assignNode _ (.externalId _) => i = .runner
  | .advanceDelete _ => i = .runner
  | .log message => message = "Launch attempt failed" → i = .runner ∧ Begun w
  | .removeLauncher _ => i = .runner
  | .setFutureResult _ _ => i = .starter
  | _ => True

/-- The calls that do not touch what the attempts depend on. -/
def Calm : Call → Prop
  | .assignLauncher _ (.stateMachine _) | .assignLauncher _ (.attempts _)
  | .assignLauncher _ (.deleteStateMachine _) | .assignNode _ (.state _ _)
  | .assignNode _ (.externalId _) | .getCreateStateMachine _ _ _ _ _ | .advanceCreate _
  | .advanceDelete _ | .removeLauncher _ | .setFutureResult _ _ => False
  | .log message => message ≠ "Launch attempt failed"
  | _ => True

variable {w w' w'' : LaunchWorld}

namespace Same

theorem refl (w : LaunchWorld) : Same w w :=
  ⟨rfl, rfl, rfl, rfl, rfl, Or.inl rfl, rfl, rfl, rfl, rfl, rfl, rfl⟩

theorem setObject {object : NodeObject} (state : object.node.state = w.object.node.state)
    (externalId : object.node.externalId = w.object.node.externalId) :
    Same w (w.setObject object) :=
  ⟨rfl, rfl, rfl, state, externalId, Or.inl rfl, rfl, rfl, rfl, rfl, rfl, rfl⟩

theorem store (w : LaunchWorld) : Same w w.store :=
  ⟨rfl, rfl, rfl, rfl, rfl, Or.inr rfl, rfl, rfl, rfl, rfl, rfl, rfl⟩

theorem assign {a : LauncherAttr}
    (machine : (w.launcher.assign a).stateMachine = w.launcher.stateMachine)
    (delete : (w.launcher.assign a).deleteStateMachine = w.launcher.deleteStateMachine)
    (attempts : (w.launcher.assign a).attempts = w.launcher.attempts) : Same w (w.assign a) :=
  ⟨machine, delete, attempts, rfl, rfl, Or.inl rfl, rfl, rfl, rfl, rfl, rfl, rfl⟩

theorem later (h : Same w w') : Later w w' where
  delete := h.delete
  state := h.state
  externalId := h.externalId
  removed := h.removed
  live := h.live
  doomed := h.doomed
  future hf := by rwa [h.future]
  made _ := h.made
  failed _ := h.failed
  machine _ := h.machine
  started hb hm := absurd (Or.inr (by rw [← h.machine, hm]; exact Option.some_ne_none _)) hb

theorem awaited (h : Same w w') : Awaited w w' where
  future := h.future
  machine hs := h.machine.trans hs.machine
  failed _ := h.failed

theorem consistent (h : Same w w') (hc : w.Consistent) : w'.Consistent where
  early hm := by rw [h.live, h.doomed]; exact hc.early (h.machine.symm.trans hm)
  named := by rw [h.live]; exact hc.named
  live_le := by rw [h.live, h.made]; exact hc.live_le
  single := by rw [h.live]; exact hc.single
  launched := by rw [h.attempts]; exact hc.launched

end Same

theorem not_begun_iff : ¬ Begun w ↔ Starting w := by
  simp only [Begun, not_or, not_not]
  exact ⟨fun h => ⟨h.1, h.2⟩, fun h => ⟨h.1, h.2⟩⟩

namespace Later

theorem refl (w : LaunchWorld) : Later w w := (Same.refl w).later

theorem begun (h : Later w w') (hb : Begun w) : Begun w' :=
  hb.imp h.future fun hm => by rwa [h.machine hb]

theorem trans (h : Later w w') (h' : Later w' w'') : Later w w'' where
  delete := h'.delete.trans h.delete
  state := h'.state.trans h.state
  externalId := h'.externalId.trans h.externalId
  removed := h'.removed.trans h.removed
  live := h'.live.trans h.live
  doomed := h'.doomed.trans h.doomed
  future hf := h'.future (h.future hf)
  made hb := (h'.made (h.begun hb)).trans (h.made hb)
  failed hb := (h'.failed (h.begun hb)).trans (h.failed hb)
  machine hb := (h'.machine (h.begun hb)).trans (h.machine hb)
  started hb hm := by
    by_cases hb' : Begun w'
    · rw [h'.machine hb'] at hm
      rw [h'.failed hb']
      exact h.started hb hm
    · exact h'.started hb' hm

end Later

namespace Awaited

theorem refl (w : LaunchWorld) : Awaited w w := (Same.refl w).awaited

theorem starting (h : Awaited w w') (hs : Starting w) : Starting w' :=
  ⟨h.future.trans hs.future, h.machine hs⟩

theorem trans (h : Awaited w w') (h' : Awaited w' w'') : Awaited w w'' where
  future := h'.future.trans h.future
  machine hs := h'.machine (h.starting hs)
  failed hs := (h'.failed (h.starting hs)).trans (h.failed hs)

end Awaited

/-! ### One step -/

theorem mem_futureResult {r : Except Err Unit} (h : w' ∈ w.futureResult r) : w' = w := by
  unfold futureResult at h
  split at h
  · exact List.mem_singleton.mp h
  · split at h
    · exact List.mem_singleton.mp h
    · cases h
  · cases h

theorem mem_getCreateStateMachine {l : Nat} {hostname label : String} {image : Option String}
    {metadata : Metadata} {machine : StateMachine}
    (h : w' ∈ w.next (.getCreateStateMachine l hostname label image metadata) (.ok machine)) :
    machine.externalId = none ∧ w' = { w with made := w.made + 1, failed := false } := by
  obtain ⟨fresh, same⟩ := of_mem_ite h
  exact ⟨fresh.1, same⟩

theorem mem_startFutureDone {l : Nat} {done : Bool}
    (h : w' ∈ w.next (.startFutureDone l) (.ok done)) :
    w' = w ∧ (done = true → w.future ≠ none) := by
  obtain ⟨hd, same⟩ := of_mem_ite h
  refine ⟨same, fun ht hf => ?_⟩
  rw [ht, hf] at hd
  cases hd

theorem next_calm {c : Call} {r : LauncherSig.Reply c} (hc : Calm c) (h : w' ∈ w.next c r) :
    Same w w' := by
  cases c with
  | assignNode o a =>
      cases r with
      | error e => cases h
      | ok v =>
          obtain rfl := List.mem_singleton.mp h
          cases a <;> first | exact absurd hc id | exact .setObject rfl rfl
  | assignLauncher l a =>
      cases r with
      | error e => cases h
      | ok v =>
          obtain rfl := List.mem_singleton.mp h
          cases a <;> first | exact absurd hc id | exact .assign rfl rfl rfl
  | setNode o =>
      have cases_ : w' = w ∨ w' = w.store := by
        cases r with
        | error e => simpa [next] using h
        | ok v => exact Or.inr (List.mem_singleton.mp h)
      rcases cases_ with rfl | rfl
      · exact .refl _
      · exact .store w
  | startFutureResult l =>
      obtain rfl := mem_futureResult h
      exact .refl _
  | log message =>
      cases r with
      | error e => cases h
      | ok v =>
          obtain rfl := List.mem_singleton.mp h
          have : decide (message = "Launch attempt failed") = false := decide_eq_false hc
          exact { Same.refl w with failed := by simp [this] }
  | _ =>
      cases r <;> first | exact absurd hc id | skip
      all_goals
        simp only [next] at h
        first
          | (obtain rfl := List.mem_singleton.mp h; exact .refl _)
          | cases h
          | (split at h
             · obtain rfl := List.mem_singleton.mp h
               exact .refl _
             · cases h)

theorem mem_reported {n : Nat} {externalId : Option String} {p : Nat × String} :
    p ∈ reported n externalId ↔ p.1 = n ∧ externalId = some p.2 ∧ p.2 ≠ "" := by
  obtain ⟨attempt, id⟩ := p
  cases externalId with
  | none => simp [reported, truthy]
  | some e =>
      by_cases he : e = ""
      · subst he
        simp only [reported, truthy, ne_eq, not_true_eq_false, decide_false, Bool.false_eq_true,
          if_false, List.not_mem_nil, Option.some.injEq, false_iff, not_and]
        exact fun _ h => absurd h.symm
      · simp only [reported, truthy, ne_eq, he, not_false_eq_true, decide_true, if_true,
          Option.toList_some, List.map_cons, List.map_nil, List.mem_singleton, Prod.mk.injEq,
          Option.some.injEq]
        exact ⟨fun ⟨h, h'⟩ => ⟨h, h'.symm, h' ▸ he⟩, fun ⟨h, h', _⟩ => ⟨h, h'.symm⟩⟩

theorem mem_advanceCreate {outcome : Except Err (Option Instance)} {machine : StateMachine}
    (h : w' ∈ w.advanceCreate outcome machine) : w.launcher.stateMachine ≠ none ∧
      (w' = w.advance outcome machine ∨ truthy w.object.node.externalId = true ∧
        w' = (w.advance outcome machine).setObject
          (w.object.assign (.externalId machine.externalId))) := by
  unfold advanceCreate at h
  split at h
  · cases h
  · rename_i old hold
    refine ⟨by rw [hold]; exact Option.some_ne_none _, ?_⟩
    rcases List.mem_cons.mp h with h | h
    · exact Or.inl h
    · split at h
      · rename_i same
        exact Or.inr ⟨by rw [same.2]; exact same.1, List.mem_singleton.mp h⟩
      · cases h

/-- The machine is advanced while there is nothing left of earlier attempts: then its
own instance is the only one. -/
theorem mem_live_advance {outcome : Except Err (Option Instance)} {machine : StateMachine}
    (alone : ∀ p ∈ w.live, p.1 = w.made) {p : Nat × String}
    (h : p ∈ (w.advance outcome machine).live) :
    p.1 = w.made ∧ machine.externalId = some p.2 ∧ p.2 ≠ "" := by
  rcases List.mem_append.mp h with h | h
  · obtain ⟨hp, hne⟩ := List.mem_filter.mp h
    exact absurd (alone p hp) (of_decide_eq_true hne)
  · exact mem_reported.mp h

/-- What advancing the delete state machine leads to. -/
structure Unwinds (w : LaunchWorld) (outcome : Except Err Unit) (machine old : StateMachine)
    (w' : LaunchWorld) : Prop where
  before : w.launcher.deleteStateMachine = some old
  externalId : machine.externalId = old.externalId
  launcher : w'.launcher = w.launcher.assign (.deleteStateMachine (some machine))
  object : w'.object = w.object
  stored : w'.stored.externalId = w.stored.externalId
  future : w'.future = w.future
  removed : w'.removed = w.removed
  made : w'.made = w.made
  failed : w'.failed = w.failed
  live : ∀ p ∈ w'.live, p ∈ w.live ∧ (gone outcome machine = true → old.externalId ≠ some p.2)
  doomed : ∀ a ∈ w'.doomed, a ∈ w.doomed ∨ ∃ p ∈ w.live, old.externalId = some p.2 ∧ p.1 = a
  early : w.live = [] → w.doomed = [] → w'.live = [] ∧ w'.doomed = []

theorem mem_advanceDelete {outcome : Except Err Unit} {machine : StateMachine}
    (h : w' ∈ w.advanceDelete outcome machine) : ∃ old, Unwinds w outcome machine old w' := by
  unfold advanceDelete at h
  split at h
  · cases h
  · rename_i old hold
    split at h
    · rename_i he
      obtain rfl := List.mem_singleton.mp h
      refine ⟨old, hold, he, rfl, rfl, rfl, rfl, rfl, rfl, rfl, fun p hp => ?_, fun a ha => ?_, ?_⟩
      · simp only at hp
        split at hp
        · obtain ⟨hp, hne⟩ := List.mem_filter.mp hp
          exact ⟨hp, fun _ => of_decide_eq_true hne⟩
        · rename_i hg
          exact ⟨hp, fun h => absurd h hg⟩
      · rcases List.mem_append.mp ha with ha | ha
        · exact Or.inl ha
        · obtain ⟨p, hp, rfl⟩ := List.mem_map.mp ha
          obtain ⟨hp, hd⟩ := List.mem_filter.mp hp
          exact Or.inr ⟨p, hp, of_decide_eq_true hd, rfl⟩
      · intro hl hd
        simp [hl, hd]
    · cases h

theorem Consistent.frame (hc : w.Consistent) (live : ∀ p ∈ w'.live, p ∈ w.live)
    (made : w.made ≤ w'.made) (launched : 0 < w'.launcher.attempts)
    (early : w'.launcher.stateMachine = none → w'.live = [] ∧ w'.doomed = []) :
    w'.Consistent where
  early := early
  named p hp := hc.named p (live p hp)
  live_le p hp := (hc.live_le p (live p hp)).trans made
  single p hp q hq := hc.single p (live p hp) q (live q hq)
  launched := launched

/-- **Step lemma.** Every call keeps the world consistent. -/
theorem next_consistent {i : LaunchThread} {c : Call} {r : LauncherSig.Reply c}
    (hc : w.Consistent) (hreq : Req i w c) (h : w' ∈ w.next c r) : w'.Consistent := by
  by_cases calm : Calm c
  · exact (next_calm calm h).consistent hc
  cases c with
  | assignNode o a =>
      cases r with
      | error e => cases h
      | ok v =>
          obtain rfl := List.mem_singleton.mp h
          exact hc.frame (fun _ hp => hp) le_rfl hc.launched hc.early
  | assignLauncher l a =>
      cases r with
      | error e => cases h
      | ok v =>
          obtain rfl := List.mem_singleton.mp h
          cases a with
          | attempts n => exact hc.frame (fun _ hp => hp) le_rfl hreq.2 hc.early
          | stateMachine m =>
              obtain ⟨-, machine, rfl, -⟩ := hreq
              exact hc.frame (fun _ hp => hp) le_rfl hc.launched fun hm => nomatch hm
          | deleteStateMachine m => exact hc.frame (fun _ hp => hp) le_rfl hc.launched hc.early
          | _ => exact absurd trivial calm
  | getCreateStateMachine =>
      cases r with
      | error e =>
          obtain rfl := List.mem_singleton.mp h
          exact hc
      | ok machine =>
          obtain ⟨-, rfl⟩ := of_mem_ite h
          exact hc.frame (fun _ hp => hp) (Nat.le_succ _) hc.launched hc.early
  | advanceCreate l =>
      rcases r with e | ⟨outcome, machine⟩
      · cases h
      · obtain ⟨-, -, -, alone⟩ := hreq
        have key : (w.advance outcome machine).Consistent :=
          { early := fun hm => nomatch hm
            named := fun p hp => (mem_live_advance alone hp).2.2
            live_le := fun p hp => (mem_live_advance alone hp).1.le
            single := fun p hp q hq =>
              (mem_live_advance alone hp).1.trans (mem_live_advance alone hq).1.symm
            launched := hc.launched }
        obtain ⟨-, rfl | ⟨-, rfl⟩⟩ := mem_advanceCreate h
        · exact key
        · exact key.frame (fun _ hp => hp) le_rfl key.launched key.early
  | advanceDelete l =>
      rcases r with e | ⟨outcome, machine⟩
      · cases h
      · obtain ⟨old, u⟩ := mem_advanceDelete h
        have early : w'.launcher.stateMachine = none → w'.live = [] ∧ w'.doomed = [] := by
          intro hm
          rw [u.launcher] at hm
          obtain ⟨hl, hd⟩ := hc.early hm
          exact u.early hl hd
        exact hc.frame (fun p hp => (u.live p hp).1) u.made.ge
          (by rw [u.launcher]; exact hc.launched)
          early
  | log message =>
      cases r with
      | error e => cases h
      | ok v =>
          obtain rfl := List.mem_singleton.mp h
          exact hc.frame (fun _ hp => hp) le_rfl hc.launched hc.early
  | removeLauncher l =>
      cases r with
      | error e => cases h
      | ok v =>
          obtain rfl := List.mem_singleton.mp h
          exact hc.frame (fun _ hp => hp) le_rfl hc.launched hc.early
  | setFutureResult l res =>
      cases r <;>
        (obtain rfl := List.mem_singleton.mp h
         exact hc.frame (fun _ hp => hp) le_rfl hc.launched hc.early)
  | _ => exact absurd trivial calm

/-- What the thread that starts the launch does to the runner. -/
theorem next_later {c : Call} {r : LauncherSig.Reply c} (hreq : Req .starter w c)
    (h : w' ∈ w.next c r) : Later w w' := by
  by_cases calm : Calm c
  · exact (next_calm calm h).later
  cases c with
  | assignNode o a => cases a <;> first | exact absurd trivial calm | cases hreq
  | assignLauncher l a =>
      cases r with
      | error e => cases h
      | ok v =>
          obtain rfl := List.mem_singleton.mp h
          cases a with
          | attempts n => cases hreq.1
          | stateMachine m =>
              obtain ⟨starting, machine, rfl, hm, hf⟩ := hreq
              have notBegun := not_begun_iff.mpr starting
              exact { Later.refl w with
                made := fun hb => absurd hb notBegun
                failed := fun hb => absurd hb notBegun
                machine := fun hb => absurd hb notBegun
                started := fun _ h => Option.some.inj h ▸ ⟨hm, hf⟩ }
          | deleteStateMachine m => cases hreq
          | _ => exact absurd trivial calm
  | getCreateStateMachine =>
      cases r with
      | error e =>
          obtain rfl := List.mem_singleton.mp h
          exact .refl _
      | ok machine =>
          obtain ⟨-, rfl⟩ := of_mem_ite h
          have notBegun := not_begun_iff.mpr hreq
          exact { Later.refl w with
            made := fun hb => absurd hb notBegun
            failed := fun hb => absurd hb notBegun
            machine := fun hb => absurd hb notBegun
            started := fun _ hm => absurd (hm.symm.trans hreq.machine) (Option.some_ne_none _) }
  | advanceCreate l => cases hreq.1
  | advanceDelete l => cases hreq
  | log message =>
      have : message = "Launch attempt failed" := not_not.mp calm
      cases (hreq this).1
  | removeLauncher l => cases hreq
  | setFutureResult l res =>
      have key : w' = { w with future := some res } := by
        cases r <;> exact List.mem_singleton.mp h
      subst key
      exact { Later.refl w with future := fun _ => Option.some_ne_none _ }
  | _ => exact absurd trivial calm

/-- What the runner does to the thread that starts the launch. -/
theorem next_awaited {c : Call} {r : LauncherSig.Reply c} (hreq : Req .runner w c)
    (h : w' ∈ w.next c r) : Awaited w w' := by
  by_cases calm : Calm c
  · exact (next_calm calm h).awaited
  have notBegun : Starting w → ¬ Begun w := not_begun_iff.mpr
  cases c with
  | assignNode o a =>
      cases r with
      | error e => cases h
      | ok v =>
          obtain rfl := List.mem_singleton.mp h
          exact ⟨rfl, fun hs => hs.machine, fun _ => rfl⟩
  | assignLauncher l a =>
      cases r with
      | error e => cases h
      | ok v =>
          obtain rfl := List.mem_singleton.mp h
          cases a with
          | stateMachine m =>
              exact ⟨rfl, fun hs => absurd hreq.1 (notBegun hs), fun _ => rfl⟩
          | _ => exact ⟨rfl, fun hs => hs.machine, fun _ => rfl⟩
  | getCreateStateMachine hostname label image metadata =>
      cases r with
      | error e =>
          obtain rfl := List.mem_singleton.mp h
          exact .refl _
      | ok machine =>
          obtain ⟨-, rfl⟩ := mem_getCreateStateMachine h
          exact ⟨rfl, fun hs => absurd hreq (notBegun hs), fun hs => absurd hreq (notBegun hs)⟩
  | advanceCreate l =>
      rcases r with e | ⟨outcome, machine⟩
      · cases h
      · obtain ⟨hm, rfl | ⟨-, rfl⟩⟩ := mem_advanceCreate h <;>
          exact ⟨rfl, fun hs => absurd hs.machine hm, fun hs => absurd hs.machine hm⟩
  | advanceDelete l =>
      rcases r with e | ⟨outcome, machine⟩
      · cases h
      · obtain ⟨old, u⟩ := mem_advanceDelete h
        exact ⟨u.future, fun hs => by rw [u.launcher]; exact hs.machine, fun _ => u.failed⟩
  | log message =>
      have : message = "Launch attempt failed" := not_not.mp calm
      cases r with
      | error e => cases h
      | ok v =>
          obtain rfl := List.mem_singleton.mp h
          exact ⟨rfl, fun hs => hs.machine, fun hs => absurd (hreq this).2 (notBegun hs)⟩
  | removeLauncher l =>
      cases r with
      | error e => cases h
      | ok v =>
          obtain rfl := List.mem_singleton.mp h
          exact ⟨rfl, fun hs => hs.machine, fun _ => rfl⟩
  | setFutureResult l res => cases hreq
  | _ => exact absurd trivial calm

theorem Env.same (h : Env w w') : Same w w' := by
  cases h with
  | assignNode id state externalId => exact .setObject state externalId
  | storeNode => exact Same.store _

/-! ### Footprints -/

/-- The calls of `startStateMachine` before the adapter makes the machine. -/
def Prepares (c : Call) : Prop :=
  Calm c ∧ ∀ l request, c ≠ .assignLauncher l (.nodescanRequest request)

/-- Some attributes of the node may be assigned too. -/
def Touching (attrs : NodeAttr → Prop) (c : Call) : Prop :=
  Calm c ∨ ∃ o a, c = .assignNode o a ∧ attrs a

section Footprint

variable {σ : Type} {l : Nat}

/-- The footprints of a launcher that runs no attributes of its own. -/
abbrev CalmMethod {α : Type} (m : LauncherM σ α) : Prop := Within Calm (fun _ : σ => ()) m

abbrev TouchingMethod {α : Type} (attrs : NodeAttr → Prop) (m : LauncherM σ α) : Prop :=
  Within (Touching attrs) (fun _ : σ => ()) m

theorem calm_log {message : String} (h : message ≠ "Launch attempt failed") :
    Calm (.log message) := h

theorem prepares_storeNode (o : NodeRef) :
    Within Prepares (fun _ => ()) (ZooKeeper.storeNode o : LauncherM σ _) :=
  .bind (.perform ⟨trivial, nofun⟩) fun _ =>
    .ite (.perform ⟨trivial, nofun⟩) (.perform ⟨trivial, nofun⟩)

theorem calm_storeNode (o : NodeRef) : CalmMethod (ZooKeeper.storeNode o : LauncherM σ _) :=
  (prepares_storeNode o).mono fun _ h => h.1

theorem prepares_imageExternalId (provider : String) (label : PoolLabel) :
    Within Prepares (fun _ => ())
      (StateMachineNodeLauncher.imageExternalId provider label : LauncherM σ _) := by
  unfold StateMachineNodeLauncher.imageExternalId
  cases label.diskimage with
  | none => exact .pure
  | some diskimage =>
      refine .bind (.perform ⟨trivial, nofun⟩) fun image => ?_
      cases image with
      | none => exact .throw
      | some image => exact .pure

theorem calm_removeNodescanRequest :
    CalmMethod (StateMachineNodeLauncher.removeNodescanRequest l : LauncherM σ _) :=
  .bind (.perform trivial) fun _ => .bind (.perform trivial) fun _ => .perform trivial

theorem calm_reportKeyscan :
    CalmMethod (StateMachineNodeLauncher.reportKeyscan l : LauncherM σ _) :=
  .tryCatch
    (.bind (.perform trivial) fun _ => .bind (.perform trivial) fun _ =>
      .bind (.perform trivial) fun _ => .bind (.perform trivial) fun _ => .perform trivial)
    fun _ => .perform (calm_log (by decide))

section Touching

variable {attrs : NodeAttr → Prop}

theorem CalmMethod.touching {α : Type} {m : LauncherM σ α} (h : CalmMethod m) :
    TouchingMethod attrs m :=
  h.mono fun _ h => Or.inl h

theorem touching_assign (o : NodeRef) {a : NodeAttr} (h : attrs a) :
    TouchingMethod attrs (call (.assignNode o a) : LauncherM σ _) :=
  .perform (Or.inr ⟨o, a, rfl, h⟩)

theorem touching_calm {c : Call} (hc : Calm c) :
    TouchingMethod attrs (call c : LauncherM σ _) :=
  .perform (Or.inl hc)

end Touching

/-- The attributes that are stored once the instance is known. -/
def OfInstance : NodeAttr → Prop
  | .externalId _ | .resources _ => True
  | _ => False

def OfState : NodeAttr → Prop
  | .state _ _ => True
  | _ => False

theorem touching_submitNodescan (server : Option Instance) :
    TouchingMethod OfInstance
      (StateMachineNodeLauncher.submitNodescan l server : LauncherM σ _) := by
  have update : TouchingMethod OfInstance
      (StateMachineNodeLauncher.updateNodeFromInstance l server : LauncherM σ _) := by
    unfold StateMachineNodeLauncher.updateNodeFromInstance
    cases server with
    | none => exact .pure
    | some server =>
        exact .bind (touching_calm trivial) fun _ => .bind (touching_assign _ trivial) fun _ =>
          .bind (touching_calm trivial) fun _ => .bind (touching_assign _ trivial) fun _ =>
          (calm_storeNode _).touching
  exact .bind update fun _ => .bind (touching_calm trivial) fun _ =>
    .bind (touching_calm trivial) fun _ => .bind (touching_calm trivial) fun _ =>
    .bind (touching_calm trivial) fun _ => .bind (touching_calm trivial) fun _ =>
    touching_calm trivial

theorem touching_finishLaunch (r : Nat) :
    TouchingMethod OfState (StateMachineNodeLauncher.finishLaunch l r : LauncherM σ _) :=
  .bind (.tryCatch (touching_calm trivial) fun _ =>
      .bind (touching_calm (calm_log (by decide))) fun _ => .throw) fun _ =>
    .bind (touching_calm trivial) fun _ =>
    .bind (.bind (touching_calm trivial) fun _ => touching_assign _ trivial) fun _ =>
    (calm_storeNode _).touching

theorem calm_finishedNodescan (machine : StateMachine) (r : Option Nat) :
    CalmMethod (StateMachineNodeLauncher.finishedNodescan machine r : LauncherM σ _) := by
  unfold StateMachineNodeLauncher.finishedNodescan
  cases r with
  | none => exact .pure
  | some r => exact .ite (.bind (.perform trivial) fun _ => .pure) .pure

/-- The launch is prepared with calm calls, up to the point where the adapter makes the
machine. -/
theorem startStateMachine_wp {Γ : Context LauncherSig LaunchWorld} {B : LaunchWorld → Prop}
    (stable : Stable Γ Prepares B) {s : σ} (hB : B w) {Q : Unit → σ → LaunchWorld → Prop}
    {E : Err → σ → LaunchWorld → Prop} (exceptional : ∀ e s w, B w → E e s w)
    (make : ∀ hostname label image metadata s w, B w →
      (do let machine ← call (.getCreateStateMachine l hostname label image metadata)
          call (.assignLauncher l (.stateMachine (some machine))) : LauncherM σ _).wp Γ Q E s w) :
    (StateMachineNodeLauncher.startStateMachine l : LauncherM σ _).wp Γ Q E s w := by
  have prepare : ∀ {α : Type} {m : LauncherM σ α} {Q : α → σ → LaunchWorld → Prop} {s w},
      Within Prepares (fun _ : σ => ()) m → B w → (∀ a s w, B w → Q a s w) →
        m.wp Γ Q E s w := fun hm hB h =>
    wp_mono (hm.wp stable hB) (fun a s w hB => h a s w hB.2) fun e s w hB => exceptional e s w hB.2
  have calls : ∀ {c : Call}, Prepares c →
      Within Prepares (fun _ : σ => ()) (call c : LauncherM σ _) := fun hc => .perform hc
  refine wp_bind.mpr (prepare (calls ⟨trivial, nofun⟩) hB fun launcher s₁ w₁ h₁ => ?_)
  refine wp_bind.mpr (prepare (calls ⟨trivial, nofun⟩) h₁ fun object s₂ w₂ h₂ => ?_)
  refine wp_bind.mpr (prepare (calls ⟨trivial, nofun⟩) h₂ fun label s₃ w₃ h₃ => ?_)
  refine wp_bind.mpr (prepare (prepares_imageExternalId _ _) h₃ fun image s₄ w₄ h₄ => ?_)
  refine wp_bind.mpr (prepare (calls ⟨trivial, nofun⟩) h₄ fun quota s₅ w₅ h₅ => ?_)
  refine wp_bind.mpr (prepare (calls ⟨trivial, nofun⟩) h₅ fun _ s₆ w₆ h₆ => ?_)
  refine wp_bind.mpr (prepare (prepares_storeNode _) h₆ fun _ s₇ w₇ h₇ => ?_)
  refine wp_bind.mpr (prepare (calls ⟨trivial, nofun⟩) h₇ fun object s₈ w₈ h₈ => ?_)
  cases object.id with
  | none => exact exceptional _ s₈ w₈ h₈
  | some id => exact make _ _ _ _ s₈ w₈ h₈

end Footprint

end LaunchWorld

end Nodepool
