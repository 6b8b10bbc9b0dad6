import Nodepool.StateMachine.LaunchSteps

/-!
One live instance for each node through all attempts to launch it: in every run in
which no exception leaves `runStateMachine` while there is a create state machine, and
every delete state machine carries the external id that it was made for, a machine is
only advanced as long as its attempt has not failed and the instance of the attempt
before is gone.
-/

namespace Nodepool

open Effect Method

namespace LaunchSystem

open LaunchWorld

variable {l : Nat} {w w' : LaunchWorld}

/-- No exception leaves `runStateMachine` while there is a create state machine, so that
the loop has nothing to log; and a delete state machine carries the external id that it
was made for. -/
def Unwound (l : Nat) (w : LaunchWorld) : Event (launchSystem l) → Prop
  | .call _ (.log message) _ =>
      message = "Error running create state machine" → w.launcher.stateMachine = none
  | .call _ (.getDeleteStateMachine externalId) (.ok machine) => machine.externalId = externalId
  | _ => True

abbrev context (l : Nat) : Context LauncherSig LaunchWorld :=
  (launchSystem l).context (Unwound l) Consistent Later (Req .runner) .runner

/-! ### The state of the attempts -/

/-- The machine of the present attempt. While an earlier attempt is unwound it is not
advanced; afterwards its instance is the only one. -/
structure Attempt (machine : StateMachine) (w : LaunchWorld) : Prop where
  current : w.launcher.stateMachine = some machine
  doomed : ∀ a ∈ w.doomed, a < w.made
  alone : w.launcher.deleteStateMachine = none →
    ∀ p ∈ w.live, p.1 = w.made ∧ machine.externalId = some p.2
  unwinding : ∀ {delete}, w.launcher.deleteStateMachine = some delete →
    machine.externalId = none ∧ ∀ p ∈ w.live, p.1 < w.made ∧ delete.complete = false ∧
      delete.externalId = some p.2 ∧ w.object.node.externalId = some p.2

/-- No machine has been made yet. -/
structure Unmade (w : LaunchWorld) : Prop where
  machine : w.launcher.stateMachine = none
  live : w.live = []
  doomed : w.doomed = []

/-- The present attempt has not failed. -/
def Active (machine : StateMachine) (w : LaunchWorld) : Prop := Attempt machine w ∧ w.failed = false

/-- Between two passes. -/
def Settled (w : LaunchWorld) : Prop := Unmade w ∨ ∃ machine, Active machine w

/-- The node has failed, or its launch was aborted. -/
structure Ended (w : LaunchWorld) : Prop where
  building : w.object.node.state ≠ .building
  ready : w.object.node.state ≠ .ready

/-- After a pass. -/
def Passed (w : LaunchWorld) : Prop := Settled w ∨ Ended w

/-- The attempt has failed, or is about to. -/
def Broken (w : LaunchWorld) : Prop := (Unmade w ∧ Begun w) ∨ ∃ machine, Attempt machine w

/-- The external id of the node names whatever instance is left. -/
structure Named (w : LaunchWorld) : Prop where
  begun : Begun w
  doomed : ∀ a ∈ w.doomed, a < w.made
  live : ∀ p ∈ w.live, w.object.node.externalId = some p.2

/-- There is a delete state machine for whatever instance is left. -/
structure Unwinding (w : LaunchWorld) : Prop extends Named w where
  delete : ∃ machine, w.launcher.deleteStateMachine = some machine ∧ machine.complete = false ∧
    ∀ p ∈ w.live, machine.externalId = some p.2

/-- The create state machine of the next attempt has been made. -/
structure Renewed (w : LaunchWorld) : Prop extends Unwinding w where
  failed : w.failed = false
  before : ∀ p ∈ w.live, p.1 < w.made

section Later

variable {machine : StateMachine}

theorem Attempt.begun (h : Attempt machine w) : Begun w :=
  Or.inr (by rw [h.current]; exact Option.some_ne_none _)

theorem Attempt.later (h : Attempt machine w) (hl : Later w w') : Attempt machine w' where
  current := (hl.machine h.begun).trans h.current
  doomed := by rw [hl.doomed, hl.made h.begun]; exact h.doomed
  alone := by rw [hl.delete, hl.live, hl.made h.begun]; exact h.alone
  unwinding := by
    rw [hl.delete, hl.live, hl.made h.begun, hl.externalId]
    exact h.unwinding

theorem Active.later (h : Active machine w) (hl : Later w w') : Active machine w' :=
  ⟨h.1.later hl, (hl.failed h.1.begun).trans h.2⟩

theorem Unmade.later (h : Unmade w) (hb : Begun w) (hl : Later w w') : Unmade w' :=
  ⟨(hl.machine hb).trans h.machine, hl.live.trans h.live, hl.doomed.trans h.doomed⟩

theorem Settled.later (h : Settled w) (hl : Later w w') : Settled w' := by
  rcases h with h | ⟨machine, h⟩
  · by_cases hb : Begun w
    · exact Or.inl (h.later hb hl)
    · have live : w'.live = [] := hl.live.trans h.live
      have doomed : w'.doomed = [] := hl.doomed.trans h.doomed
      cases hm : w'.launcher.stateMachine with
      | none => exact Or.inl ⟨hm, live, doomed⟩
      | some machine =>
          obtain ⟨fresh, failed⟩ := hl.started hb hm
          have attempt : Attempt machine w' :=
            { current := hm
              doomed := by rw [doomed]; exact fun _ h => nomatch h
              alone := by rw [live]; exact fun _ _ h => nomatch h
              unwinding := by rw [live]; exact fun _ => ⟨fresh, fun _ h => nomatch h⟩ }
          exact Or.inr ⟨machine, attempt, failed⟩
  · exact Or.inr ⟨machine, h.later hl⟩

theorem Settled.active (h : Settled w) (hm : w.launcher.stateMachine = some machine) :
    Active machine w := by
  rcases h with h | ⟨m, h⟩
  · exact absurd (h.machine.symm.trans hm) (Option.some_ne_none _).symm
  · obtain rfl : m = machine := Option.some.inj (h.1.current.symm.trans hm)
    exact h

theorem Settled.broken (h : Settled w) (hb : Begun w) : Broken w :=
  h.imp (⟨·, hb⟩) fun ⟨machine, h⟩ => ⟨machine, h.1⟩

theorem Broken.begun (h : Broken w) : Begun w := h.elim (·.2) fun ⟨_, h⟩ => h.begun

theorem Broken.attempt (h : Broken w) (hm : w.launcher.stateMachine = some machine) :
    Attempt machine w := by
  rcases h with ⟨h, -⟩ | ⟨m, h⟩
  · exact absurd (h.machine.symm.trans hm) (Option.some_ne_none _).symm
  · obtain rfl : m = machine := Option.some.inj (h.current.symm.trans hm)
    exact h

/-- Whether the attempt has failed already is no part of it. -/
theorem Broken.fail (h : Broken w) (failed : Bool) : Broken { w with failed := failed } :=
  h.imp (fun h => ⟨⟨h.1.machine, h.1.live, h.1.doomed⟩, h.2⟩)
    fun ⟨machine, h⟩ => ⟨machine, h.current, h.doomed, h.alone, h.unwinding⟩

theorem Broken.later (h : Broken w) (hl : Later w w') : Broken w' := by
  rcases h with ⟨h, hb⟩ | ⟨machine, h⟩
  · exact Or.inl ⟨h.later hb hl, hl.begun hb⟩
  · exact Or.inr ⟨machine, h.later hl⟩

theorem Named.later (h : Named w) (hl : Later w w') : Named w' where
  begun := hl.begun h.begun
  doomed := by rw [hl.doomed, hl.made h.begun]; exact h.doomed
  live := by rw [hl.live, hl.externalId]; exact h.live

theorem Unwinding.later (h : Unwinding w) (hl : Later w w') : Unwinding w' where
  toNamed := h.toNamed.later hl
  delete := by rw [hl.delete, hl.live]; exact h.delete

theorem Renewed.later (h : Renewed w) (hl : Later w w') : Renewed w' where
  toUnwinding := h.toUnwinding.later hl
  failed := (hl.failed h.begun).trans h.failed
  before := by rw [hl.live, hl.made h.begun]; exact h.before

/-- The machine has an external id, so it was advanced, and nothing is unwound. -/
theorem Attempt.assignExternalId (h : Attempt machine w) (ht : truthy machine.externalId = true) :
    Named (w.setObject (w.object.assign (.externalId machine.externalId))) where
  begun := h.begun
  doomed := h.doomed
  live p hp := by
    cases hd : w.launcher.deleteStateMachine with
    | none => exact (h.alone hd p hp).2
    | some delete =>
        rw [(h.unwinding hd).1] at ht
        cases ht

/-- The machine has no external id, so whatever is left is being unwound. -/
theorem Attempt.named (h : Attempt machine w) (hi : w.Consistent)
    (ht : ¬ truthy machine.externalId = true) : Named w where
  begun := h.begun
  doomed := h.doomed
  live p hp := by
    cases hd : w.launcher.deleteStateMachine with
    | none =>
        rw [(h.alone hd p hp).2] at ht
        exact absurd (decide_eq_true (hi.named p hp)) ht
    | some delete => exact ((h.unwinding hd).2 p hp).2.2.2

end Later

/-! ### Calls of the runner -/

/-- An assertion that the runner can rely on, and under which it may store the node. -/
structure Lasting (B : LaunchWorld → Prop) : Prop where
  later : ∀ {w w'}, B w → Later w w' → B w'
  store : ∀ {w}, B w → w.Consistent → w.object.node.state = .ready → w.made ∉ w.doomed

theorem Lasting.attempt (machine : StateMachine) : Lasting (Attempt machine) where
  later := Attempt.later
  store h _ _ hm := lt_irrefl _ (h.doomed _ hm)

theorem Lasting.active (machine : StateMachine) : Lasting (Active machine) where
  later := Active.later
  store h _ _ hm := lt_irrefl _ (h.1.doomed _ hm)

theorem Lasting.broken : Lasting Broken where
  later := Broken.later
  store h _ _ hm := by
    rcases h with ⟨h, -⟩ | ⟨machine, h⟩
    · rw [h.doomed] at hm
      cases hm
    · exact lt_irrefl _ (h.doomed _ hm)

theorem Lasting.settled : Lasting Settled where
  later := Settled.later
  store h _ _ hm := by
    rcases h with h | ⟨machine, h⟩
    · rw [h.doomed] at hm
      cases hm
    · exact lt_irrefl _ (h.1.doomed _ hm)

theorem Lasting.named : Lasting Named where
  later := Named.later
  store h _ _ hm := lt_irrefl _ (h.doomed _ hm)

theorem Lasting.unwinding : Lasting Unwinding where
  later := Unwinding.later
  store h _ _ hm := lt_irrefl _ (h.doomed _ hm)

theorem Lasting.renewed : Lasting Renewed where
  later := Renewed.later
  store h _ _ hm := lt_irrefl _ (h.doomed _ hm)

theorem Lasting.stated {state : NodeState} (h : state ≠ .ready) :
    Lasting fun w => w.object.node.state = state where
  later hs hl := hl.state.trans hs
  store hs _ hr := absurd (hs.symm.trans hr) h

theorem Lasting.passed : Lasting Passed where
  later h hl := h.imp (·.later hl) fun h =>
    ⟨by rw [hl.state]; exact h.building, by rw [hl.state]; exact h.ready⟩
  store h hi hr := h.elim (Lasting.settled.store · hi hr) fun h => absurd hr h.ready

/-- What a calm call must respect, it respects under a lasting assertion. -/
theorem req_of_calm {i : LaunchThread} {c : Call} (hc : Calm c)
    (store : w.object.node.state = .ready → w.made ∉ w.doomed) : Req i w c := by
  cases c with
  | setNode => exact store
  | assignNode o a => cases a <;> first | exact absurd hc id | trivial
  | assignLauncher l a => cases a <;> first | exact absurd hc id | trivial
  | log message => exact fun h => absurd h hc
  | _ => first | exact absurd hc id | trivial

theorem Lasting.stable {B : LaunchWorld → Prop} (lasting : Lasting B) :
    Stable (context l) Calm B where
  rely h hl _ := lasting.later h hl
  req hc h hi := req_of_calm hc (lasting.store h hi)
  step hc h _ hs _ := lasting.later h (next_calm hc hs.1).later

theorem Lasting.touching {B : LaunchWorld → Prop} (lasting : Lasting B) {attrs : NodeAttr → Prop}
    (assign : ∀ {w a}, attrs a → B w → B (w.setObject (w.object.assign a))) :
    Stable (context l) (Touching attrs) B where
  rely h hl _ := lasting.later h hl
  req hc h hi := by
    rcases hc with hc | ⟨o, a, rfl, -⟩
    · exact req_of_calm hc (lasting.store h hi)
    · cases a <;> trivial
  step {c r w w'} hc h _ hs _ := by
    rcases hc with hc | ⟨o, a, rfl, ha⟩
    · exact lasting.later h (next_calm hc hs.1).later
    · have mem : w' ∈ w.next (.assignNode o a) r := hs.1
      cases r with
      | error e => cases mem
      | ok v =>
          obtain rfl := List.mem_singleton.mp mem
          exact assign ha h

section Calls

variable {σ : Type} {s : σ} {B : LaunchWorld → Prop} {E : Err → σ → LaunchWorld → Prop}

theorem wp_calm {c : Call} (hc : Calm c) (lasting : Lasting B) (hB : B w)
    {Q : c.Val → σ → LaunchWorld → Prop} (normal : ∀ v w', B w' → Q v s w')
    (exceptional : ∀ e w', B w' → E e s w') : (call c : LauncherM σ _).wp (context l) Q E s w :=
  lasting.stable.wp_perform hc hB normal exceptional

theorem wp_readLauncher (lasting : Lasting B) (hB : B w)
    {Q : NodeLauncher → σ → LaunchWorld → Prop}
    (normal : ∀ w', w'.Consistent → B w' → Q w'.launcher s w') :
    (call (.readLauncher l) : LauncherM σ _).wp (context l) Q E s w := by
  refine Method.wp_call (P := B) (fun h hl _ => lasting.later h hl) hB (fun _ _ _ => trivial) ?_ ?_
  · intro v w₁ w₂ h _ hs hi
    have mem : w₂ ∈ w₁.next (.readLauncher l) (.ok v) := hs.1
    obtain ⟨hv, rfl⟩ := of_mem_ite mem
    exact hv ▸ normal w₂ hi h
  · intro _ _ _ _ _ hs _
    cases hs.1

theorem wp_readNode {o : NodeRef} (lasting : Lasting B) (hB : B w)
    {Q : NodeObject → σ → LaunchWorld → Prop} (normal : ∀ w', B w' → Q w'.object s w') :
    (call (.readNode o) : LauncherM σ _).wp (context l) Q E s w := by
  refine Method.wp_call (P := B) (fun h hl _ => lasting.later h hl) hB (fun _ _ _ => trivial) ?_ ?_
  · intro v w₁ w₂ h _ hs _
    have mem : w₂ ∈ w₁.next (.readNode o) (.ok v) := hs.1
    obtain ⟨hv, rfl⟩ := of_mem_ite mem
    exact hv ▸ normal w₂ h
  · intro _ _ _ _ _ hs _
    cases hs.1

/-- An assignment to an attribute of the launcher. -/
theorem wp_assignLauncher {a : LauncherAttr} (lasting : Lasting B) (hB : B w)
    (hreq : ∀ {w}, B w → Req .runner w (.assignLauncher l a))
    {Q : Unit → σ → LaunchWorld → Prop}
    (normal : ∀ w', w'.Consistent → B w' → Q () s (w'.assign a)) :
    (call (.assignLauncher l a) : LauncherM σ _).wp (context l) Q E s w := by
  refine Method.wp_call (P := B) (fun h hl _ => lasting.later h hl) hB (fun _ h _ => hreq h) ?_ ?_
  · intro _ w₁ w₂ h hi hs _
    obtain rfl := List.mem_singleton.mp hs.1
    exact normal w₁ hi h
  · intro _ _ _ _ _ hs _
    cases hs.1

/-- An assignment to an attribute of the node. -/
theorem wp_assignNode {o : NodeRef} {a : NodeAttr} (lasting : Lasting B) (hB : B w)
    {Q : Unit → σ → LaunchWorld → Prop}
    (normal : ∀ w', B w' → Q () s (w'.setObject (w'.object.assign a))) :
    (call (.assignNode o a) : LauncherM σ _).wp (context l) Q E s w := by
  refine Method.wp_call (P := B) (fun h hl _ => lasting.later h hl) hB
    (fun _ _ _ => by cases a <;> trivial) ?_ ?_
  · intro _ w₁ w₂ h _ hs _
    obtain rfl := List.mem_singleton.mp hs.1
    exact normal w₁ h
  · intro _ _ _ _ _ hs _
    cases hs.1

/-- The adapter makes a delete state machine. -/
theorem wp_getDeleteStateMachine {externalId : Option String} (lasting : Lasting B) (hB : B w)
    {Q : StateMachine → σ → LaunchWorld → Prop}
    (normal : ∀ machine w', B w' → machine.complete = false → machine.externalId = externalId →
      Q machine s w')
    (exceptional : ∀ e w', B w' → E e s w') :
    (call (.getDeleteStateMachine externalId) : LauncherM σ _).wp (context l) Q E s w := by
  refine Method.wp_call (P := B) (fun h hl _ => lasting.later h hl) hB (fun _ _ _ => trivial) ?_ ?_
  · intro machine w₁ w₂ h _ hs _
    have mem : w₂ ∈ w₁.next (.getDeleteStateMachine externalId) (.ok machine) := hs.1
    obtain ⟨pending, rfl⟩ := of_mem_ite mem
    exact normal machine w₂ h pending hs.2
  · intro e w₁ w₂ h _ hs _
    obtain rfl := List.mem_singleton.mp hs.1
    exact exceptional e w₂ h

/-- A method of calm calls. -/
theorem Lasting.wp {α : Type} {m : LauncherM σ α} (within : Within Calm (fun _ : σ => ()) m)
    (lasting : Lasting B) (hB : B w) {Q : α → σ → LaunchWorld → Prop}
    (normal : ∀ a s w', B w' → Q a s w') (exceptional : ∀ e s w', B w' → E e s w') :
    m.wp (context l) Q E s w :=
  wp_mono (within.wp lasting.stable hB) (fun a s w h => normal a s w h.2)
    fun e s w h => exceptional e s w h.2

end Calls

/-! ### One pass of the runner -/

section Pass

variable {σ : Type} {s : σ} {machine : StateMachine}

/-- Once the delete state machine is dropped, the present attempt stands alone. -/
theorem Active.drop (h : Active machine w) (gone : w.live = []) :
    Active machine (w.assign (.deleteStateMachine none)) ∧
      (w.assign (.deleteStateMachine none)).launcher.deleteStateMachine = none :=
  ⟨⟨⟨h.1.current, h.1.doomed, by rw [assign_live, gone]; exact fun _ _ hp => (nomatch hp),
    fun hd => nomatch hd⟩, h.2⟩, rfl⟩

/-- Another delete state machine may be made for the same instance. -/
theorem Active.replace {old new : StateMachine} (h : Active machine w)
    (hd : w.launcher.deleteStateMachine = some old) (pending : new.complete = false)
    (same : new.externalId = old.externalId) :
    Active machine (w.assign (.deleteStateMachine (some new))) := by
  obtain ⟨fresh, left⟩ := h.1.unwinding hd
  refine ⟨⟨h.1.current, h.1.doomed, fun hn => (nomatch hn), fun {d} hd' => ⟨fresh, fun p hp => ?_⟩⟩,
    h.2⟩
  obtain rfl : new = d := Option.some.inj hd'
  obtain ⟨lt, -, named, id⟩ := left p hp
  exact ⟨lt, pending, same.trans named, id⟩

/-- Advancing the delete state machine: what it leaves is named by it, and nothing is
left once it is complete. -/
theorem Active.unwind {old new : StateMachine} {outcome : Except Err Unit} (h : Active machine w)
    (hd : w.launcher.deleteStateMachine = some old) (mem : w' ∈ w.advanceDelete outcome new) :
    Active machine w' ∧ w'.launcher.deleteStateMachine = some new ∧
      (outcome = .error .notFound → w'.live = []) := by
  obtain ⟨old', u⟩ := mem_advanceDelete mem
  obtain rfl : old = old' := Option.some.inj (hd.symm.trans u.before)
  obtain ⟨fresh, left⟩ := h.1.unwinding hd
  have gone : LaunchWorld.gone outcome new = true → w'.live = [] := by
    intro hg
    refine List.eq_nil_iff_forall_not_mem.mpr fun p hp => ?_
    obtain ⟨hp, hne⟩ := u.live p hp
    exact hne hg (left p hp).2.2.1
  have delete : w'.launcher.deleteStateMachine = some new := by rw [u.launcher]; rfl
  have attempt : Attempt machine w' := by
    refine ⟨by rw [u.launcher]; exact h.1.current, fun a ha => ?_, fun hn => ?_, fun {d} hd' => ?_⟩
    · rw [u.made]
      rcases u.doomed a ha with ha | ⟨p, hp, -, rfl⟩
      · exact h.1.doomed a ha
      · exact (left p hp).1
    · rw [delete] at hn
      cases hn
    · obtain rfl : new = d := Option.some.inj (delete.symm.trans hd')
      refine ⟨fresh, fun p hp => ?_⟩
      obtain ⟨hp', hne⟩ := u.live p hp
      obtain ⟨lt, -, named, id⟩ := left p hp'
      refine ⟨u.made ▸ lt, ?_, u.externalId.trans named, by rw [u.object]; exact id⟩
      cases hc : new.complete with
      | false => rfl
      | true =>
          have hg : LaunchWorld.gone outcome new = true := by simp [LaunchWorld.gone, hc]
          rw [gone hg] at hp
          cases hp
  refine ⟨⟨attempt, u.failed.trans h.2⟩, delete, fun hn => gone ?_⟩
  simp [LaunchWorld.gone, hn]

/-- Nobody else assigns the delete state machine. -/
theorem Lasting.active_delete (machine : StateMachine) (delete : Option StateMachine) :
    Lasting fun w => Active machine w ∧ w.launcher.deleteStateMachine = delete where
  later h hl := ⟨h.1.later hl, hl.delete.trans h.2⟩
  store h := (Lasting.active machine).store h.1

/-- What `runDeleteStateMachine` leaves. -/
abbrev Unwinds (machine : StateMachine) (unwound : Bool) (w : LaunchWorld) : Prop :=
  Active machine w ∧ (unwound = true → w.launcher.deleteStateMachine = none)

theorem dropDelete_wp {B : LaunchWorld → Prop} (lasting : Lasting B) (hB : B w)
    (gone : ∀ {w}, w.Consistent → B w → Active machine w ∧ w.live = []) :
    (do call (.assignLauncher l (.deleteStateMachine none)); pure true : LauncherM σ Bool).wp
      (context l) (fun unwound _ => Unwinds machine unwound) (fun _ _ => Broken) s w := by
  refine wp_bind.mpr ?_
  refine wp_assignLauncher (l := l) (a := .deleteStateMachine none) lasting hB (fun _ => rfl) ?_
  intro w₁ hi₁ h₁
  obtain ⟨active, left⟩ := gone hi₁ h₁
  have dropped := active.drop left
  exact ⟨dropped.1, fun _ => dropped.2⟩

theorem advanceDeleteStateMachine_wp {delete : StateMachine}
    (h : Active machine w ∧ w.launcher.deleteStateMachine = some delete)
    (ht : truthy delete.externalId = true) :
    (StateMachineNodeLauncher.advanceDeleteStateMachine l delete : LauncherM σ Bool).wp
      (context l) (fun unwound _ => Unwinds machine unwound) (fun _ _ => Broken) s w := by
  have lasting := Lasting.active_delete machine
  unfold StateMachineNodeLauncher.advanceDeleteStateMachine
  rw [if_pos ht]
  refine wp_bind.mpr ?_
  refine Method.wp_call (P := fun w => Active machine w ∧
    w.launcher.deleteStateMachine = some delete) (fun h hl _ => (lasting _).later h hl) h
    (fun _ _ _ => rfl) ?_ ?_
  · rintro ⟨outcome, new⟩ w₁ w₂ h₁ - hs -
    have mem : w₂ ∈ w₁.advanceDelete outcome new := hs.1
    obtain ⟨h₂, hd₂, gone⟩ := h₁.1.unwind h₁.2 mem
    have again : (do
        call (.log "Error in launch-delete state machine")
        let again ← call (.getDeleteStateMachine new.externalId)
        call (.assignLauncher l (.deleteStateMachine (some again)))
        pure false : LauncherM σ Bool).wp (context l)
          (fun unwound _ => Unwinds machine unwound) (fun _ _ => Broken) s w₂ := by
      refine wp_bind.mpr (wp_calm (calm_log (by decide)) (lasting (some new)) ⟨h₂, hd₂⟩ ?_ ?_)
      · intro _ w₃ h₃
        refine wp_bind.mpr (wp_getDeleteStateMachine (lasting (some new)) h₃ ?_ ?_)
        · intro again w₄ h₄ pending same
          refine wp_bind.mpr ?_
          refine wp_assignLauncher (l := l) (a := .deleteStateMachine (some again))
            (lasting (some new)) h₄ (fun _ => rfl) ?_
          exact fun w₅ _ h₅ => ⟨h₅.1.replace h₅.2 pending same, fun h => nomatch h⟩
        · exact fun _ _ h => Or.inr ⟨machine, h.1.1⟩
      · exact fun _ _ h => Or.inr ⟨machine, h.1.1⟩
    cases outcome with
    | ok _ => exact ⟨h₂, fun h => nomatch h⟩
    | error e =>
        cases e with
        | notFound =>
            have left : Lasting fun w => (Active machine w ∧
                w.launcher.deleteStateMachine = some new) ∧ w.live = [] :=
              ⟨fun h hl => ⟨(lasting _).later h.1 hl, hl.live.trans h.2⟩,
                fun h => (lasting _).store h.1⟩
            refine wp_bind.mpr (wp_calm (calm_log (by decide)) left ⟨⟨h₂, hd₂⟩, gone rfl⟩ ?_ ?_)
            · exact fun _ w₃ h₃ => dropDelete_wp left h₃ fun _ h => ⟨h.1.1, h.2⟩
            · exact fun _ _ h => Or.inr ⟨machine, h.1.1.1⟩
        | _ => exact again
  · intro _ _ _ _ _ hs _
    cases hs.1

theorem runDeleteStateMachine_wp (h : Active machine w) :
    (StateMachineNodeLauncher.runDeleteStateMachine l : LauncherM σ Bool).wp (context l)
      (fun unwound _ => Unwinds machine unwound) (fun _ _ => Broken) s w := by
  refine wp_bind.mpr (wp_readLauncher (.active machine) h fun w₁ _ h₁ => ?_)
  cases hd : w₁.launcher.deleteStateMachine with
  | none => exact ⟨h₁, fun _ => hd⟩
  | some delete =>
      by_cases hc : delete.complete = true
      · simp only [hc, if_true]
        refine dropDelete_wp (.active_delete machine (some delete)) ⟨h₁, hd⟩ fun _ h =>
          ⟨h.1, List.eq_nil_iff_forall_not_mem.mpr fun p hp => ?_⟩
        have pending := ((h.1.1.unwinding h.2).2 p hp).2.1
        rw [hc] at pending
        cases pending
      · simp only [hc]
        by_cases ht : truthy delete.externalId = true
        · exact advanceDeleteStateMachine_wp ⟨h₁, hd⟩ ht
        · change (StateMachineNodeLauncher.advanceDeleteStateMachine l delete).wp _ _ _ s w₁
          unfold StateMachineNodeLauncher.advanceDeleteStateMachine
          rw [if_neg ht]
          refine dropDelete_wp (.active_delete machine (some delete)) ⟨h₁, hd⟩ fun hi h =>
            ⟨h.1, List.eq_nil_iff_forall_not_mem.mpr fun p hp => ?_⟩
          obtain ⟨-, -, named, -⟩ := (h.1.1.unwinding h.2).2 p hp
          rw [named] at ht
          exact ht (decide_eq_true (hi.named p hp))

/-- The create state machine is advanced: what is there afterwards is its own. -/
theorem Active.advance {new : StateMachine} {outcome : Except Err (Option Instance)}
    (h : Active machine w) (hd : w.launcher.deleteStateMachine = none)
    (mem : w' ∈ w.advanceCreate outcome new) :
    Attempt new w' ∧ w'.launcher.deleteStateMachine = none ∧ w'.failed = !outcome.toBool := by
  have key : Attempt new (w.advance outcome new) :=
    { current := rfl
      doomed := h.1.doomed
      alone := fun _ p hp =>
        (mem_live_advance (fun q hq => (h.1.alone hd q hq).1) hp).imp_right (·.1)
      unwinding := fun hd' => absurd (hd.symm.trans hd') (Option.some_ne_none _).symm }
  have failed : (w.advance outcome new).failed = !outcome.toBool := by simp [h.2]
  obtain ⟨-, rfl | ⟨-, rfl⟩⟩ := mem_advanceCreate mem
  · exact ⟨key, hd, failed⟩
  · exact ⟨⟨key.current, key.doomed, key.alone,
      fun hd' => absurd (hd.symm.trans hd') (Option.some_ne_none _).symm⟩, hd, failed⟩

/-- The state of the node is no part of the attempt. -/
theorem finishLaunch_wp (h : Active machine w) (r : Nat) :
    (StateMachineNodeLauncher.finishLaunch l r : LauncherM σ _).wp (context l)
      (fun _ _ => Settled) (fun _ _ => Broken) s w := by
  have stable : Stable (context l) (Touching OfState) (Active machine) :=
    (Lasting.active machine).touching fun {w a} ha h => by
      cases a with
      | state => exact ⟨⟨h.1.current, h.1.doomed, h.1.alone, h.1.unwinding⟩, h.2⟩
      | _ => cases ha
  exact wp_mono ((touching_finishLaunch r).wp stable h) (fun _ _ _ h => Or.inr ⟨machine, h.2⟩)
    fun _ _ _ h => Or.inr ⟨machine, h.2.1⟩

/-- What is known of the instance is stored only while nothing is unwound. -/
theorem touching_wp {α : Type} {m : LauncherM σ α} (touching : TouchingMethod OfInstance m)
    (h : Active machine w ∧ w.launcher.deleteStateMachine = none) :
    m.wp (context l) (fun _ _ => Settled) (fun _ _ => Broken) s w := by
  have stable : Stable (context l) (Touching OfInstance) fun w =>
      Active machine w ∧ w.launcher.deleteStateMachine = none :=
    (Lasting.active_delete machine none).touching fun _ h =>
      ⟨⟨⟨h.1.1.current, h.1.1.doomed, h.1.1.alone,
        fun hd => absurd (h.2.symm.trans hd) (Option.some_ne_none _).symm⟩, h.1.2⟩, h.2⟩
  exact wp_mono (touching.wp stable h) (fun _ _ _ h => Or.inr ⟨machine, h.2.1⟩)
    fun _ _ _ h => Or.inr ⟨machine, h.2.1.1⟩

theorem advanceCreateStateMachine_wp (h : Active machine w)
    (hd : w.launcher.deleteStateMachine = none) :
    (StateMachineNodeLauncher.advanceCreateStateMachine l : LauncherM σ _).wp (context l)
      (fun _ _ => Settled) (fun _ _ => Broken) s w := by
  refine wp_bind.mpr (Method.wp_call
    (P := fun w => Active machine w ∧ w.launcher.deleteStateMachine = none)
    (fun h hl _ => (Lasting.active_delete machine none).later h hl) ⟨h, hd⟩ ?_ ?_ ?_)
  · exact fun w h _ => ⟨rfl, h.1.2, h.2, fun p hp => (h.1.1.alone h.2 p hp).1⟩
  · rintro ⟨outcome, new⟩ w₁ w₂ h₁ - hs -
    obtain ⟨attempt, hd₂, failed⟩ := h₁.1.advance h₁.2 hs.1
    cases outcome with
    | error e => exact Or.inr ⟨new, attempt⟩
    | ok server =>
        refine touching_wp ?_ ⟨⟨attempt, failed⟩, hd₂⟩
        refine .bind .pure fun server => .bind (touching_calm trivial) fun launcher =>
          .bind (touching_calm trivial) fun object => .bind (.ite ?_ .pure) fun _ =>
          .ite (touching_submitNodescan server) .pure
        exact .bind (touching_assign _ trivial) fun _ => (calm_storeNode _).touching
  · intro _ _ _ _ _ hs _
    cases hs.1

theorem runCreateStateMachine_wp (h : Active machine w) :
    (StateMachineNodeLauncher.runCreateStateMachine l machine : LauncherM σ _).wp (context l)
      (fun _ _ => Settled) (fun _ _ => Broken) s w := by
  have lasting := Lasting.active machine
  have broken : ∀ (_ : Err) w, Active machine w → Broken w := fun _ _ h => Or.inr ⟨machine, h.1⟩
  refine wp_bind.mpr (wp_readLauncher lasting h fun w₁ _ h₁ => ?_)
  have startTime : CalmMethod (when (w₁.launcher.startTime = none) (do
      let now ← call .time
      call (.assignLauncher l (.startTime (some now)))) : LauncherM σ _) :=
    .ite (.bind (.perform trivial) fun _ => .perform trivial) .pure
  refine wp_bind.mpr (lasting.wp startTime h₁ (fun _ s₂ w₂ h₂ => ?_) fun e _ => broken e)
  refine wp_bind.mpr (lasting.wp (calm_finishedNodescan machine _) h₂ (fun scanned s₃ w₃ h₃ => ?_)
    fun e _ => broken e)
  cases scanned with
  | some r => exact finishLaunch_wp h₃ r
  | none =>
      refine wp_bind.mpr (wp_calm (c := .time) trivial lasting h₃ (fun now w₄ h₄ => ?_) broken)
      refine wp_bind.mpr (wp_calm (c := .launchTimeout) trivial lasting h₄
        (fun timeout w₅ h₅ => ?_) broken)
      have timed : CalmMethod (raiseUnless (now - machine.startTime ≤ timeout) .timeout :
          LauncherM σ _) := .ite .pure .throw
      refine wp_bind.mpr (lasting.wp timed h₅ (fun _ s₆ w₆ h₆ => ?_) fun e _ => broken e)
      refine wp_bind.mpr (wp_mono (runDeleteStateMachine_wp h₆) ?_ fun _ _ _ h => h)
      rintro unwound s₇ w₇ ⟨h₇, hd⟩
      unfold when
      split
      · rename_i hu
        exact advanceCreateStateMachine_wp h₇ (hd hu)
      · exact Or.inr ⟨machine, h₇⟩

theorem awaitStart_wp (h : Settled w) :
    (StateMachineNodeLauncher.awaitStart l : LauncherM σ _).wp (context l)
      (fun _ _ => Settled) (fun _ _ => Broken) s w := by
  refine wp_bind.mpr (Method.wp_call (P := Settled) (fun h hl _ => h.later hl) h
    (fun _ _ _ => trivial) ?_ fun _ _ _ _ _ hs _ => nomatch hs.1)
  intro done w₁ w₂ h₁ _ hs _
  obtain ⟨rfl, hd⟩ := mem_startFutureDone hs.1
  unfold when
  split
  · rename_i done
    have lasting : Lasting fun w => Settled w ∧ Begun w :=
      ⟨fun h hl => ⟨h.1.later hl, hl.begun h.2⟩, fun h => Lasting.settled.store h.1⟩
    refine wp_bind.mpr (wp_calm (c := .startFutureResult l) trivial lasting ⟨h₁, Or.inl (hd done)⟩
      (fun _ w₃ h₃ => ?_) fun _ _ h => h.1.broken h.2)
    refine wp_bind.mpr (wp_readLauncher lasting h₃ fun w₄ _ h₄ => ?_)
    cases hm : w₄.launcher.stateMachine with
    | some machine => exact runCreateStateMachine_wp (h₄.1.active hm)
    | none => exact h₄.1.broken h₄.2
  · exact h₁

theorem tryStateMachine_wp (h : Settled w) :
    (StateMachineNodeLauncher.tryStateMachine l : LauncherM σ _).wp (context l)
      (fun _ _ => Settled) (fun _ _ => Broken) s w := by
  refine wp_bind.mpr (wp_readLauncher .settled h fun w₁ _ h₁ => ?_)
  cases hm : w₁.launcher.stateMachine with
  | some machine => exact runCreateStateMachine_wp (h₁.active hm)
  | none =>
      change (if w₁.launcher.startFuture then StateMachineNodeLauncher.awaitStart l
        else pure ()).wp _ _ _ s w₁
      split
      · exact awaitStart_wp h₁
      · exact h₁

/-! ### The `except` clauses -/

theorem Unwinding.renew (h : Unwinding w) (hi : w.Consistent) :
    Renewed { w with made := w.made + 1, failed := false } where
  begun := h.begun
  doomed a ha := (h.doomed a ha).trans (Nat.lt_succ_self _)
  live := h.live
  delete := h.delete
  failed := rfl
  before p hp := Nat.lt_succ_of_le (hi.live_le p hp)

theorem Renewed.settled (h : Renewed w) (fresh : machine.externalId = none) :
    Settled (w.assign (.stateMachine (some machine))) := by
  obtain ⟨delete, hd, pending, named⟩ := h.delete
  refine Or.inr ⟨machine, ⟨rfl, h.doomed, fun hn => ?_, fun {d} hd' => ⟨fresh, fun p hp => ?_⟩⟩,
    h.failed⟩
  · exact absurd (hn.symm.trans hd) (Option.some_ne_none _).symm
  · obtain rfl : delete = d := Option.some.inj (hd.symm.trans hd')
    exact ⟨h.before p hp, pending, named p hp, h.live p hp⟩

theorem makeMachine_wp {hostname label : String} {image : Option String} {metadata : Metadata}
    (h : Unwinding w) :
    (do let machine ← call (.getCreateStateMachine l hostname label image metadata)
        call (.assignLauncher l (.stateMachine (some machine))) : LauncherM σ _).wp (context l)
      (fun _ _ => Settled) (fun _ _ _ => True) s w := by
  refine wp_bind.mpr (Method.wp_call (P := Unwinding) (fun h hl _ => h.later hl) h
    (fun _ h _ => h.begun) ?_ fun _ _ _ _ _ _ _ => trivial)
  intro machine w₁ w₂ h₁ hi hs _
  have mem : w₂ ∈ w₁.next (.getCreateStateMachine l hostname label image metadata) (.ok machine) :=
    hs.1
  obtain ⟨fresh, rfl⟩ := mem_getCreateStateMachine mem
  refine wp_assignLauncher (l := l) (a := .stateMachine (some machine)) .renewed (h₁.renew hi) ?_ ?_
  · exact fun h => ⟨h.begun, machine, rfl, fresh, h.failed⟩
  · exact fun w₃ _ h₃ => h₃.settled fresh

theorem retryLaunch_wp (h : Named w) :
    (StateMachineNodeLauncher.retryLaunch l : LauncherM σ _).wp (context l)
      (fun _ _ => Settled) (fun _ _ _ => True) s w := by
  refine wp_bind.mpr (wp_readLauncher .named h fun w₁ _ h₁ => ?_)
  refine wp_bind.mpr (wp_readNode .named h₁ fun w₂ h₂ => ?_)
  have lasting : Lasting fun w => Named w ∧ w.object.node.externalId = w₂.object.node.externalId :=
    ⟨fun h hl => ⟨h.1.later hl, hl.externalId.trans h.2⟩, fun h => Lasting.named.store h.1⟩
  refine wp_bind.mpr (wp_getDeleteStateMachine lasting ⟨h₂, rfl⟩ ?_ fun _ _ _ => trivial)
  intro delete w₃ h₃ pending same
  refine wp_bind.mpr ?_
  refine wp_assignLauncher (l := l) (a := .deleteStateMachine (some delete)) lasting h₃
    (fun _ => rfl) fun w₄ _ h₄ => ?_
  have unwinding : Unwinding (w₄.assign (.deleteStateMachine (some delete))) :=
    ⟨⟨h₄.1.begun, h₄.1.doomed, h₄.1.live⟩, delete, rfl, pending,
      fun p hp => same.trans (h₄.2.symm.trans (h₄.1.live p hp))⟩
  refine wp_bind.mpr (wp_readLauncher .unwinding unwinding fun w₅ hi₅ h₅ => ?_)
  refine wp_bind.mpr ?_
  refine wp_assignLauncher (l := l) (a := .attempts (w₅.launcher.attempts + 1)) .unwinding h₅
    (fun _ => ⟨rfl, Nat.succ_pos _⟩) fun w₆ _ h₆ => ?_
  rw [if_neg hi₅.launched.ne']
  have again : Unwinding (w₆.assign (.attempts (w₅.launcher.attempts + 1))) :=
    ⟨⟨h₆.begun, h₆.doomed, h₆.live⟩, h₆.delete⟩
  exact startStateMachine_wp (Lasting.unwinding.stable.mono fun _ h => h.1) again
    (fun _ _ _ _ => trivial)
    fun _ _ _ _ _ _ h => makeMachine_wp h

/-- Whatever instance is left after a failure, the node names it. -/
theorem storeExternalId_wp (h : Broken w) :
    (StateMachineNodeLauncher.storeExternalId l : LauncherM σ _).wp (context l)
      (fun _ _ => Named) (fun _ _ _ => True) s w := by
  refine wp_bind.mpr (wp_readLauncher .broken h fun w₁ hi₁ h₁ => ?_)
  cases hm : w₁.launcher.stateMachine with
  | none =>
      rcases h₁ with ⟨h₁, begun⟩ | ⟨machine, h₁⟩
      · exact ⟨begun, by rw [h₁.doomed]; exact fun _ h => (nomatch h),
          by rw [h₁.live]; exact fun _ h => (nomatch h)⟩
      · exact absurd (hm.symm.trans h₁.current) (Option.some_ne_none _).symm
  | some machine =>
      have attempt := h₁.attempt hm
      change (when (truthy machine.externalId = true) (_ : LauncherM σ Unit)).wp _ _ _ s w₁
      unfold when
      split
      · rename_i ht
        refine wp_bind.mpr (wp_assignNode (.attempt machine) attempt fun w₂ h₂ => ?_)
        refine Lasting.named.wp (calm_storeNode _) (h₂.assignExternalId ht) (fun _ _ _ h => h)
          fun _ _ _ _ => trivial
      · rename_i ht
        exact attempt.named hi₁ ht

theorem failAttempt_wp (e : Err) (h : Broken w) :
    (StateMachineNodeLauncher.failAttempt l e : LauncherM σ _).wp (context l)
      (fun _ _ => Passed) (fun _ _ _ => True) s w := by
  refine wp_bind.mpr (Method.wp_call (P := Broken) (fun h hl _ => h.later hl) h
    (fun _ h _ _ => ⟨rfl, h.begun⟩) ?_ fun _ _ _ _ _ hs _ => nomatch hs.1)
  intro _ w₁ w₂ h₁ _ hs _
  obtain rfl := List.mem_singleton.mp hs.1
  refine wp_bind.mpr (wp_mono (storeExternalId_wp (h₁.fail _)) (fun _ s₃ w₃ h₃ => ?_)
    fun _ _ _ h => h)
  have report : CalmMethod (when (e = .launchKeyscan)
      (StateMachineNodeLauncher.reportKeyscan l) : LauncherM σ _) := .ite calm_reportKeyscan .pure
  refine wp_bind.mpr (Lasting.named.wp report h₃ (fun _ s₄ w₄ h₄ => ?_) fun _ _ _ _ => trivial)
  refine wp_bind.mpr (Lasting.named.wp calm_removeNodescanRequest h₄ (fun _ s₅ w₅ h₅ => ?_)
    fun _ _ _ _ => trivial)
  refine wp_bind.mpr (wp_readLauncher .named h₅ fun w₆ _ h₆ => ?_)
  split
  · refine wp_bind.mpr (wp_calm (c := .time) trivial .named h₆ (fun _ w₇ h₇ => ?_)
      fun _ _ _ => trivial)
    exact wp_assignNode .named h₇ fun w₈ _ => Or.inr ⟨fun h => (nomatch h), fun h => nomatch h⟩
  · exact wp_mono (retryLaunch_wp h₆) (fun _ _ _ h => Or.inl h) fun _ _ _ h => h

/-- After the node got a state in which it is not being built, the launcher is complete. -/
theorem finalState_wp {α : Type} {m : LauncherM σ α} {t : NodeState}
    (touching : TouchingMethod OfInstance m) (ready : t ≠ .ready) (building : t ≠ .building)
    (h : w.object.node.state = t) :
    m.wp (context l) (fun _ _ => Passed)
      (fun _ _ _ => True) s w := by
  have stable : Stable (context l) (Touching OfInstance) fun w => w.object.node.state = t :=
    (Lasting.stated ready).touching fun {w a} ha h => by
      cases a with
      | externalId => exact h
      | resources => exact h
      | _ => cases ha
  exact wp_mono (touching.wp stable h)
    (fun _ _ _ h => Or.inr ⟨h.2.trans_ne building, h.2.trans_ne ready⟩) fun _ _ _ _ => trivial

theorem touching_assignExternalId :
    TouchingMethod OfInstance (StateMachineNodeLauncher.assignExternalId l : LauncherM σ _) := by
  refine .bind (touching_calm trivial) fun launcher => ?_
  cases launcher.stateMachine with
  | none => exact .pure
  | some machine => exact touching_assign _ trivial

theorem lostSession_wp (h : Broken w) :
    (StateMachineNodeLauncher.lostSession l : LauncherM σ _).wp (context l)
      (fun _ _ => Passed) (fun _ _ _ => True) s w := by
  refine wp_bind.mpr (wp_calm (calm_log (by decide)) .broken h (fun _ w₁ h₁ => ?_)
    fun _ _ _ => trivial)
  refine wp_bind.mpr (wp_readLauncher .broken h₁ fun w₂ _ h₂ => ?_)
  refine wp_bind.mpr (wp_bind.mpr (wp_calm (c := .time) trivial .broken h₂ (fun now w₃ h₃ => ?_)
    fun _ _ _ => trivial))
  refine wp_assignNode .broken h₃ fun w₄ _ => ?_
  exact finalState_wp (t := .failed)
    (.bind touching_assignExternalId fun _ => calm_removeNodescanRequest.touching)
    (by decide) (by decide) rfl

theorem abortLaunch_wp (h : Broken w) :
    (StateMachineNodeLauncher.abortLaunch l : LauncherM σ _).wp (context l)
      (fun _ _ => Passed) (fun _ _ _ => True) s w := by
  refine wp_bind.mpr (wp_calm (calm_log (by decide)) .broken h (fun _ w₁ h₁ => ?_)
    fun _ _ _ => trivial)
  refine wp_bind.mpr (wp_readLauncher .broken h₁ fun w₂ _ h₂ => ?_)
  refine wp_bind.mpr (wp_bind.mpr (wp_calm (c := .time) trivial .broken h₂ (fun now w₃ h₃ => ?_)
    fun _ _ _ => trivial))
  refine wp_assignNode .broken h₃ fun w₄ _ => ?_
  exact finalState_wp (t := .aborted)
    (.bind touching_assignExternalId fun _ => .bind (calm_storeNode _).touching fun _ =>
      .bind (touching_calm trivial) fun _ => calm_removeNodescanRequest.touching)
    (by decide) (by decide) rfl

theorem runStateMachine_wp (h : Settled w) :
    (StateMachineNodeLauncher.runStateMachine l : LauncherM σ _).wp (context l)
      (fun _ _ => Passed) (fun _ _ _ => True) s w := by
  refine wp_tryCatch.mpr (wp_mono (tryStateMachine_wp h) (fun _ _ _ h => Or.inl h) ?_)
  intro e s₁ w₁ h₁
  cases e with
  | sessionExpired => exact lostSession_wp h₁
  | quota => exact abortLaunch_wp h₁
  | _ => exact failAttempt_wp _ h₁

/-- What holds of a launcher between two rounds of the runner. -/
def AtRest (w : LaunchWorld) : Prop := w.removed = true ∨ Settled w

theorem AtRest.later (h : AtRest w) (hl : Later w w') : AtRest w' :=
  h.imp (hl.removed.trans ·) (·.later hl)

/-- A launcher whose node is not being built any more leaves the list of the runner. -/
theorem removeComplete_wp (h : Passed w) :
    (do let complete ← StateMachineNodeLauncher.complete l
        when complete (call (.removeLauncher l)) : LauncherM σ Unit).wp (context l)
      (fun _ _ => AtRest) (fun _ _ _ => True) s w := by
  refine wp_bind.mpr (wp_bind.mpr (wp_readLauncher .passed h fun w₁ _ h₁ => ?_))
  refine wp_bind.mpr (wp_readNode .passed h₁ fun w₂ h₂ => ?_)
  refine wp_pure.mpr ?_
  unfold when
  split
  · refine Method.wp_call (P := fun _ => True) (fun _ _ _ => trivial) trivial (fun _ _ _ => rfl)
      ?_ fun _ _ _ _ _ _ _ => trivial
    intro _ w₃ w₄ _ _ hs _
    obtain rfl := List.mem_singleton.mp hs.1
    exact Or.inl rfl
  · rename_i hb
    exact Or.inr (h₂.resolve_right fun h => hb (decide_eq_true h.building))

/-- An exception is only logged as long as no machine has been made. -/
theorem logError_wp :
    (call (.log "Error running create state machine") : LauncherM σ _).wp (context l)
      (fun _ _ => AtRest) (fun _ _ => AtRest) s w := by
  refine Method.wp_call (P := fun _ => True) (fun _ _ _ => trivial) trivial
    (fun _ _ _ h => absurd h (by decide)) ?_ fun _ _ _ _ _ hs _ => nomatch hs.1
  intro _ w₁ w₂ _ hi hs _
  obtain rfl := List.mem_singleton.mp hs.1
  have none : w₁.launcher.stateMachine = none := hs.2 rfl
  obtain ⟨live, doomed⟩ := hi.early none
  exact Or.inr (Or.inl ⟨none, live, doomed⟩)

theorem runLauncher_wp (h : Settled w) :
    (StateMachineProvider.runLauncher l : LauncherM σ _).wp (context l)
      (fun _ _ => AtRest) (fun _ _ => AtRest) s w := by
  refine wp_tryCatch.mpr (wp_bind.mpr (wp_mono (runStateMachine_wp h) ?_ ?_))
  · exact fun _ _ _ h => wp_mono (removeComplete_wp h) (fun _ _ _ h => h) fun _ _ _ _ => logError_wp
  · exact fun _ _ _ _ => logError_wp

end Pass

/-! ### The thread that starts the launch -/

abbrev starterContext (l : Nat) : Context LauncherSig LaunchWorld :=
  (launchSystem l).context (Unwound l) Consistent Awaited (Req .starter) .starter

theorem starting_stable : Stable (starterContext l) Calm Starting where
  rely h hl _ := hl.starting h
  req hc h hi := req_of_calm hc fun _ hm => by
    rw [(hi.early h.machine).2] at hm
    cases hm
  step hc h _ hs _ := (next_calm hc hs.1).awaited.starting h

theorem makeFirstMachine_wp {σ : Type} {s : σ} {hostname label : String} {image : Option String}
    {metadata : Metadata} (h : Starting w) :
    (do let machine ← call (.getCreateStateMachine l hostname label image metadata)
        call (.assignLauncher l (.stateMachine (some machine))) : LauncherM σ _).wp
      (starterContext l) (fun _ _ _ => True) (fun _ _ _ => True) s w := by
  refine wp_bind.mpr (Method.wp_call (P := Starting) (fun h hl _ => hl.starting h) h
    (fun _ h _ => h) ?_ fun _ _ _ _ _ _ _ => trivial)
  intro machine w₁ w₂ h₁ _ hs _
  have mem : w₂ ∈ w₁.next (.getCreateStateMachine l hostname label image metadata) (.ok machine) :=
    hs.1
  obtain ⟨fresh, rfl⟩ := mem_getCreateStateMachine mem
  exact Method.wp_call (P := fun w => Starting w ∧ w.failed = false)
    (fun h hl _ => ⟨hl.starting h.1, (hl.failed h.1).trans h.2⟩) ⟨⟨h₁.future, h₁.machine⟩, rfl⟩
    (fun _ h _ => ⟨h.1, machine, rfl, fresh, h.2⟩) (fun _ _ _ _ _ _ _ => trivial)
    fun _ _ _ _ _ _ _ => trivial

theorem startFuture_wp (h : Starting w) {s : Unit} :
    (LaunchThread.startFuture l).wp (starterContext l)
      (fun _ _ w => w.future ≠ none) (fun _ _ w => w.future ≠ none) s w := by
  have finish : ∀ result s w, (call (.setFutureResult l result) : LauncherM Unit _).wp
      (starterContext l) (fun _ _ w => w.future ≠ none) (fun _ _ w => w.future ≠ none) s w := by
    intro result s w
    refine Method.wp_call (P := fun _ => True) (fun _ _ _ => trivial) trivial
      (fun _ _ _ => rfl) ?_ ?_
    · intro _ w₁ w₂ _ _ hs _
      obtain rfl := List.mem_singleton.mp hs.1
      exact Option.some_ne_none _
    · intro _ w₁ w₂ _ _ hs _
      obtain rfl := List.mem_singleton.mp hs.1
      exact Option.some_ne_none _
  refine wp_bind.mpr (wp_attempt.mpr (wp_mono (startStateMachine_wp
    (starting_stable.mono fun _ h => h.1) h
    (E := fun _ _ _ => True) (fun _ _ _ _ => trivial) fun _ _ _ _ _ _ h => makeFirstMachine_wp h)
    ?_ ?_))
  · exact fun _ s w _ => finish _ s w
  · exact fun _ s w _ => finish _ s w

/-! ### Runs -/

/-- What a thread relies on. -/
def rely : LaunchThread → LaunchWorld → LaunchWorld → Prop
  | .starter => Awaited
  | .runner => Later

/-- What holds while a thread is idle. -/
def idle : LaunchThread → LaunchWorld → Prop
  | .starter, w => w.future = none → w.launcher.stateMachine = none
  | .runner, w => AtRest w

def outline (l : Nat) : Outline (launchSystem l) (Unwound l) where
  inv := Consistent
  rely := rely
  req := Req
  linv i _ := idle i
  rely_refl i w := by
    cases i with
    | starter => exact Awaited.refl w
    | runner => exact Later.refl w
  rely_trans i _ _ _ h h' := by
    cases i with
    | starter => exact Awaited.trans h h'
    | runner => exact Later.trans h h'
  linv_stable i _ w w' h hr _ := by
    cases i with
    | starter =>
        intro hf
        have future : w.future = none := (Awaited.future hr).symm.trans hf
        exact Awaited.machine hr ⟨future, h future⟩
    | runner => exact AtRest.later h hr
  entry i _ _ w _ enabled _ h := by
    cases i with
    | starter =>
        have hf : w.future = none := Option.isNone_iff_eq_none.mp enabled
        change ((LaunchThread.startFuture l).toBody (fun _ s => s) ()).wp (starterContext l)
          (fun _ w => w.future = none → w.launcher.stateMachine = none) w
        refine wp_toBody.mpr (wp_mono (startFuture_wp ⟨hf, h hf⟩) ?_ ?_)
        · exact fun _ _ _ hn hf => absurd hf hn
        · exact fun _ _ _ hn hf => absurd hf hn
    | runner =>
        have settled : Settled w := Or.resolve_left h fun hr => by
          have : (!w.removed) = true := enabled
          rw [hr] at this
          cases this
        change ((StateMachineProvider.runLauncher l).toBody (fun _ s => s) ()).wp (context l)
          (fun _ => AtRest) w
        exact wp_toBody.mpr (runLauncher_wp settled)
  call_inv i _ _ _ _ hi hreq _ hs := next_consistent hi hreq hs
  call_rely i j _ _ _ _ hij _ hreq _ hs := by
    cases i with
    | starter =>
        cases j with
        | starter => exact absurd rfl hij
        | runner => exact next_later hreq hs
    | runner =>
        cases j with
        | starter => exact next_awaited hreq hs
        | runner => exact absurd rfl hij
  env_inv hi h := h.same.consistent hi
  env_rely j _ _ _ h := by
    cases j with
    | starter => exact h.same.awaited
    | runner => exact h.same.later

/-- At most one instance of the node exists; a create state machine is only advanced if
its attempt has not failed, no deletion is under way, and no instance of an earlier
attempt is left; and the node is only stored as ready if the deletion of the instance
of the present attempt was not started. -/
structure OneInstance {l : Nat} (cfg : Config (launchSystem l)) : Prop where
  single : ∀ p ∈ cfg.world.live, ∀ q ∈ cfg.world.live, p.1 = q.1
  advance : ∀ {i k}, cfg.thread i = .call (.advanceCreate l) k → cfg.world.failed = false ∧
    cfg.world.launcher.deleteStateMachine = none ∧ ∀ p ∈ cfg.world.live, p.1 = cfg.world.made
  ready : ∀ {i o k}, cfg.thread i = .call (.setNode o) k →
    cfg.world.object.node.state = .ready → cfg.world.made ∉ cfg.world.doomed

/-- **Main result.** In every run in which no exception leaves `runStateMachine` while
there is a create state machine, and every delete state machine carries the external id
that it was made for, there is one live instance for the node. -/
theorem one_instance {l : Nat} {id : NodeId} {node : Node} {handler : Nat}
    {providerName poolName : String} {retries : Nat} {cfg : Config (launchSystem l)}
    (run : (launchSystem l).Run (Unwound l)
      (init l id node handler providerName poolName retries) cfg) : OneInstance cfg := by
  have safe : (outline l).Safe (init l id node handler providerName poolName retries) := by
    refine Outline.Safe.of_idle ?_ fun i => ⟨(), rfl, ?_⟩
    · exact ⟨fun _ => ⟨rfl, rfl⟩, fun _ h => (nomatch h), fun _ h => (nomatch h),
        fun _ h => (nomatch h), Nat.succ_pos 0⟩
    · cases i with
      | starter => exact fun _ => rfl
      | runner => exact Or.inr (Or.inl ⟨rfl, rfl, rfl⟩)
  have safe' := (outline l).sound safe run
  exact ⟨safe'.inv.single, fun next => (safe'.req next).2, fun next => safe'.req next⟩

/-! ### Examples -/

/-- The machine fails after it has made a server. -/
def failedAdvance : Except Err (Option Instance) × StateMachine :=
  (.error .other, ⟨"creating", some "server", false, 0⟩)

/-- The launch starts and fails; in the next pass the server is deleted, and after that
the machine is about to be advanced. -/
def retrySchedule (label : Except Err PoolLabel) (n : Nat) :
    List (System.Action (launchSystem 0)) :=
  .start .starter () :: calls .starter (.ok smallLabel) failedAdvance 11 ++
    .start .runner () :: calls .runner label failedAdvance n ++
    .start .runner () :: calls .runner label failedAdvance 8 ++
    .start .runner () :: calls .runner label failedAdvance 6

/-- The condition on the steps, to be evaluated. -/
def allowed (w : LaunchWorld) : Event (launchSystem 0) → Bool
  | .call _ (.log message) _ =>
      message ≠ "Error running create state machine" || w.launcher.stateMachine = none
  | .call _ (.getDeleteStateMachine externalId) (.ok machine) => machine.externalId = externalId
  | _ => true

theorem unwound_of_allowed (w : LaunchWorld) (e : Event (launchSystem 0))
    (h : allowed w e = true) : Unwound 0 w e := by
  unfold Unwound
  split
  · intro hm
    simpa [allowed, hm] using h
  · simpa [allowed] using h
  · trivial

/-- The second attempt starts once the server of the first one is gone. -/
theorem one_instance_retrySchedule : ∃ cfg k,
    System.exec allowed exampleInit (retrySchedule (.ok smallLabel) 35) = some cfg ∧
      cfg.thread .runner = .call (.advanceCreate 0) k ∧ cfg.world.made = 2 ∧
      OneInstance cfg := by
  have hexec : ∃ cfg k, System.exec allowed exampleInit (retrySchedule (.ok smallLabel) 35) =
      some cfg ∧ cfg.thread .runner = .call (.advanceCreate 0) k ∧ cfg.world.made = 2 :=
    ⟨_, _, rfl, rfl, rfl⟩
  obtain ⟨cfg, k, hcfg, next, made⟩ := hexec
  exact ⟨cfg, k, hcfg, next, made, one_instance (System.exec_run _ unwound_of_allowed hcfg)⟩

/-- The retry cannot be started, e.g. because the label has no image any more: then the
failed machine is advanced again once its server is deleted. -/
theorem not_forall_one_instance :
    ¬ ∀ (l : Nat) (id : NodeId) (node : Node) (handler : Nat) (providerName poolName : String)
      (retries : Nat) (cfg : Config (launchSystem l)),
      (launchSystem l).Run (System.always (launchSystem l))
        (init l id node handler providerName poolName retries) cfg → OneInstance cfg := by
  intro h
  have hexec : ∃ cfg k, System.exec (fun _ _ => true) exampleInit
      (retrySchedule (.error .other) 27) = some cfg ∧
      cfg.thread .runner = .call (.advanceCreate 0) k ∧ cfg.world.failed = true :=
    ⟨_, _, rfl, rfl, rfl⟩
  obtain ⟨cfg, k, hcfg, next, failed⟩ := hexec
  have one := h _ _ _ _ _ _ _ cfg (System.exec_run _ (fun _ _ _ => trivial) hcfg)
  exact absurd ((one.advance next).1.symm.trans failed) (by decide)

end LaunchSystem

end Nodepool
