import Nodepool.StateMachine.LaunchSteps

/-!
What a launcher that is restarted finds: the stored external id of the node names every
resource that the create state machine has reported. It does in every run in which a
machine reports nothing new while the node already has an external id, and in which
`runStateMachine` does not give up before the external id is stored.
-/

namespace Nodepool

open Effect Method

namespace LaunchWorld

/-- The resources that an external id names; no id, or an empty one, names none. -/
def namedBy (names : String → List String) : Option String → List String
  | none => []
  | some e => if e = "" then [] else names e

variable {names : String → List String} {w w' w'' : LaunchWorld}

theorem namedBy_of_not_truthy {e : Option String} (h : ¬ truthy e = true) :
    namedBy names e = [] := by
  cases e with
  | none => rfl
  | some e =>
      have : e = "" := by simpa [truthy] using h
      exact if_pos this

/-- An external id names all that the present create state machine has reported. -/
def Names (names : String → List String) (w : LaunchWorld) (e : Option String) : Prop :=
  ∀ machine, w.launcher.stateMachine = some machine →
    namedBy names machine.externalId ⊆ namedBy names e

/-- The external id of the node does, in memory and as it is stored. -/
structure Recorded (names : String → List String) (w : LaunchWorld) : Prop where
  memory : Names names w w.object.node.externalId
  stored : Names names w w.stored.externalId

/-- The node may be stored, and a machine that was just made may take the place of the
present one. -/
structure Follows (w w' : LaunchWorld) : Prop where
  memory : w'.object.node.externalId = w.object.node.externalId
  stored : w'.stored.externalId = w.stored.externalId ∨
    w'.stored.externalId = w.object.node.externalId
  machine : w'.launcher.stateMachine = w.launcher.stateMachine ∨
    ∃ machine, w'.launcher.stateMachine = some machine ∧ machine.externalId = none

/-- What the others do to the runner. -/
structure Beside (w w' : LaunchWorld) : Prop extends Follows w w' where
  nodescan : w'.launcher.nodescanRequest = w.launcher.nodescanRequest

theorem Follows.refl (w : LaunchWorld) : Follows w w := ⟨rfl, Or.inl rfl, Or.inl rfl⟩

theorem Beside.refl (w : LaunchWorld) : Beside w w := ⟨.refl w, rfl⟩

theorem Follows.trans (h : Follows w w') (h' : Follows w' w'') : Follows w w'' where
  memory := h'.memory.trans h.memory
  stored := by
    rcases h'.stored with hs | hs
    · rw [hs]
      exact h.stored
    · exact Or.inr (hs.trans h.memory)
  machine := by
    rcases h'.machine with hm | hm
    · rw [hm]
      exact h.machine
    · exact Or.inr hm

theorem Beside.trans (h : Beside w w') (h' : Beside w' w'') : Beside w w'' :=
  ⟨h.toFollows.trans h'.toFollows, h'.nodescan.trans h.nodescan⟩

theorem Names.follows {e : Option String} (h : Names names w e) (hf : Follows w w') :
    Names names w' e := by
  intro machine hm
  rcases hf.machine with hs | ⟨m, hs, hn⟩
  · exact h machine (hs.symm.trans hm)
  · obtain rfl : m = machine := Option.some.inj (hs.symm.trans hm)
    rw [hn]
    exact List.nil_subset _

theorem Recorded.follows (h : Recorded names w) (hf : Follows w w') : Recorded names w' where
  memory := by
    rw [hf.memory]
    exact h.memory.follows hf
  stored := by
    rcases hf.stored with hs | hs
    · rw [hs]
      exact h.stored.follows hf
    · rw [hs]
      exact h.memory.follows hf

/-! ### One step -/

/-- The calls that neither assign the external id nor touch the machine. -/
def Innocent : Call → Prop
  | .assignLauncher _ (.stateMachine _) | .assignNode _ (.externalId _) | .advanceCreate _ => False
  | _ => True

/-- Only the runner advances machines and assigns external ids, and a machine that is
assigned was just made. -/
def Respects (i : LaunchThread) : Call → Prop
  | .assignLauncher _ (.stateMachine m) => ∃ machine, m = some machine ∧ machine.externalId = none
  | .assignNode _ (.externalId _) | .advanceCreate _ => i = .runner
  | .assignLauncher _ (.nodescanRequest _) => i = .runner
  | _ => True

theorem Same.follows (h : Same w w') : Follows w w' :=
  ⟨h.externalId, h.stored, Or.inl h.machine⟩

theorem next_innocent {c : Call} {r : LauncherSig.Reply c} (hc : Innocent c)
    (h : w' ∈ w.next c r) : Follows w w' := by
  by_cases calm : Calm c
  · exact (next_calm calm h).follows
  cases c with
  | assignNode o a =>
      cases a with
      | state =>
          cases r with
          | error e => cases h
          | ok v =>
              obtain rfl := List.mem_singleton.mp h
              exact ⟨rfl, Or.inl rfl, Or.inl rfl⟩
      | externalId => cases hc
      | _ => exact absurd trivial calm
  | assignLauncher l a =>
      cases r with
      | error e => cases h
      | ok v =>
          obtain rfl := List.mem_singleton.mp h
          cases a with
          | stateMachine m => cases hc
          | _ => exact ⟨rfl, Or.inl rfl, Or.inl rfl⟩
  | getCreateStateMachine hostname label image metadata =>
      cases r with
      | error e =>
          obtain rfl := List.mem_singleton.mp h
          exact .refl _
      | ok machine =>
          obtain ⟨-, rfl⟩ := mem_getCreateStateMachine h
          exact ⟨rfl, Or.inl rfl, Or.inl rfl⟩
  | advanceCreate l => cases hc
  | advanceDelete l =>
      rcases r with e | ⟨outcome, machine⟩
      · cases h
      · obtain ⟨old, u⟩ := mem_advanceDelete h
        exact ⟨by rw [u.object], Or.inl u.stored, Or.inl (by rw [u.launcher]; rfl)⟩
  | log message =>
      cases r with
      | error e => cases h
      | ok v =>
          obtain rfl := List.mem_singleton.mp h
          exact ⟨rfl, Or.inl rfl, Or.inl rfl⟩
  | removeLauncher l =>
      cases r with
      | error e => cases h
      | ok v =>
          obtain rfl := List.mem_singleton.mp h
          exact ⟨rfl, Or.inl rfl, Or.inl rfl⟩
  | setFutureResult l res =>
      cases r <;>
        (obtain rfl := List.mem_singleton.mp h
         exact ⟨rfl, Or.inl rfl, Or.inl rfl⟩)
  | _ => exact absurd trivial calm

/-- Only one assignment touches the request to scan the keys. -/
theorem next_nodescan {c : Call} {r : LauncherSig.Reply c} (h : w' ∈ w.next c r)
    (hc : ∀ l request, c ≠ .assignLauncher l (.nodescanRequest request)) :
    w'.launcher.nodescanRequest = w.launcher.nodescanRequest := by
  cases c with
  | assignLauncher l a =>
      cases r with
      | error e => cases h
      | ok v =>
          obtain rfl := List.mem_singleton.mp h
          cases a with
          | nodescanRequest request => exact absurd rfl (hc l request)
          | _ => rfl
  | setNode o =>
      have cases_ : w' = w ∨ w' = w.store := by
        cases r with
        | error e => simpa [next] using h
        | ok v => exact Or.inr (List.mem_singleton.mp h)
      rcases cases_ with rfl | rfl <;> rfl
  | startFutureResult l =>
      obtain rfl := mem_futureResult h
      rfl
  | advanceCreate l =>
      rcases r with e | ⟨outcome, machine⟩
      · cases h
      · obtain ⟨-, rfl | ⟨-, rfl⟩⟩ := mem_advanceCreate h <;> rfl
  | advanceDelete l =>
      rcases r with e | ⟨outcome, machine⟩
      · cases h
      · obtain ⟨old, u⟩ := mem_advanceDelete h
        rw [u.launcher]
        rfl
  | _ =>
      cases r <;> simp only [next] at h <;>
        first
          | (obtain rfl := List.mem_singleton.mp h; rfl)
          | cases h
          | (split at h
             · obtain rfl := List.mem_singleton.mp h
               rfl
             · cases h)

/-- What the thread that starts the launch does to the runner. -/
theorem next_beside {c : Call} {r : LauncherSig.Reply c} (hreq : Respects .starter c)
    (h : w' ∈ w.next c r) : Beside w w' := by
  by_cases innocent : Innocent c
  · refine ⟨next_innocent innocent h, next_nodescan h ?_⟩
    rintro l request rfl
    cases hreq
  cases c with
  | assignNode o a => cases a <;> first | exact absurd trivial innocent | cases hreq
  | assignLauncher l a =>
      cases r with
      | error e => cases h
      | ok v =>
          obtain rfl := List.mem_singleton.mp h
          cases a with
          | stateMachine m =>
              obtain ⟨machine, rfl, fresh⟩ := hreq
              exact ⟨⟨rfl, Or.inl rfl, Or.inr ⟨machine, rfl, fresh⟩⟩, rfl⟩
          | _ => exact absurd trivial innocent
  | advanceCreate l => cases hreq
  | _ => exact absurd trivial innocent

theorem Env.beside (h : Env w w') : Beside w w' := by
  refine ⟨h.same.follows, ?_⟩
  cases h <;> rfl

/-! ### The condition -/

/-- A create state machine that was advanced says what it has made: while the node has
an external id, that one names it already, unless the machine is complete, in which
case the instance names it. -/
def Covered (names : String → List String) (w : LaunchWorld) (server : Option Instance)
    (machine : StateMachine) : Prop :=
  match (if machine.complete ∧ w.launcher.nodescanRequest = none then server else none) with
  | some server => namedBy names machine.externalId ⊆ namedBy names server.externalId
  | none => truthy w.object.node.externalId = true →
      namedBy names machine.externalId ⊆ namedBy names w.object.node.externalId ∧
      namedBy names machine.externalId ⊆ namedBy names w.stored.externalId

/-- `runStateMachine` gives up: its session is lost, or an exception leaves it. -/
def GivesUp (message : String) : Prop :=
  message = "Lost ZooKeeper session trying to launch for node" ∨
    message = "Error running create state machine"

/-- What a machine reports while the node has an external id is named by it already; and
`runStateMachine` does not give up before what was reported is stored. -/
def Covers (names : String → List String) (l : Nat) (w : LaunchWorld) :
    Event (launchSystem l) → Prop
  | .call _ (.advanceCreate _) (.ok (.ok server, machine)) => Covered names w server machine
  | .call _ (.log message) _ => GivesUp message → Recorded names w
  | _ => True

end LaunchWorld

namespace LaunchSystem

open LaunchWorld

namespace ExternalId

variable {names : String → List String} {l : Nat} {w w' : LaunchWorld} {σ : Type} {s : σ}

abbrev context (names : String → List String) (l : Nat) : Context LauncherSig LaunchWorld :=
  (launchSystem l).context (Covers names l) (fun _ => True) Beside
    (fun _ => Respects .runner) .runner

/-! ### Methods -/

theorem respects_of_innocent {c : Call} (hc : Innocent c) : Respects .runner c := by
  cases c with
  | assignNode o a => cases a <;> first | exact absurd hc id | trivial
  | assignLauncher l a => cases a <;> first | exact absurd hc id | exact rfl | trivial
  | advanceCreate => cases hc
  | _ => trivial

/-- An assertion that survives whatever follows. -/
theorem stable_innocent {B : LaunchWorld → Prop} (lasting : ∀ {w w'}, B w → Follows w w' → B w') :
    Stable (context names l) Innocent B where
  rely h hf _ := lasting h hf.toFollows
  req hc _ _ := respects_of_innocent hc
  step hc h _ hs _ := lasting h (next_innocent hc hs.1)

/-- A method of innocent calls. -/
theorem innocent_wp {α : Type} {m : LauncherM σ α} (within : Within Innocent (fun _ : σ => ()) m)
    {B : LaunchWorld → Prop} (lasting : ∀ {w w'}, B w → Follows w w' → B w') (hB : B w) :
    m.wp (context names l) (fun _ _ => B) (fun _ _ => B) s w :=
  wp_mono (within.wp (stable_innocent lasting) hB) (fun _ _ _ h => h.2) fun _ _ _ h => h.2

section Footprint

theorem innocent_of_calm {c : Call} (hc : Calm c) : Innocent c := by
  cases c with
  | assignNode o a => cases a <;> first | exact absurd hc id | trivial
  | assignLauncher l a => cases a <;> first | exact absurd hc id | trivial
  | advanceCreate => cases hc
  | _ => trivial

abbrev InnocentMethod {α : Type} (m : LauncherM σ α) : Prop := Within Innocent (fun _ : σ => ()) m

theorem innocent_call {c : Call} (hc : Innocent c) : InnocentMethod (call c : LauncherM σ _) :=
  .perform hc

theorem innocent_calm {α : Type} {m : LauncherM σ α} (h : CalmMethod m) : InnocentMethod m :=
  h.mono fun _ => innocent_of_calm

theorem innocent_finishLaunch (r : Nat) :
    InnocentMethod (StateMachineNodeLauncher.finishLaunch l r : LauncherM σ _) :=
  (touching_finishLaunch r).mono fun c hc => by
    rcases hc with hc | ⟨o, a, rfl, ha⟩
    · exact innocent_of_calm hc
    · cases a <;> first | exact absurd ha id | trivial

theorem innocent_assignState (o : NodeRef) (state : NodeState) :
    InnocentMethod (ZooKeeper.assignState o state : LauncherM σ _) :=
  .bind (innocent_call trivial) fun _ => innocent_call trivial

theorem innocent_runDeleteStateMachine :
    InnocentMethod (StateMachineNodeLauncher.runDeleteStateMachine l : LauncherM σ _) := by
  have drop : InnocentMethod (do
      call (.assignLauncher l (.deleteStateMachine none)); pure true : LauncherM σ Bool) :=
    .bind (innocent_call trivial) fun _ => .pure
  refine .bind (innocent_call trivial) fun launcher => ?_
  cases launcher.deleteStateMachine with
  | none => exact .pure
  | some machine =>
      refine .ite drop (.ite (.bind (innocent_call trivial) fun advanced => ?_) drop)
      have again : InnocentMethod (do
          call (.log "Error in launch-delete state machine")
          let again ← call (.getDeleteStateMachine advanced.2.externalId)
          call (.assignLauncher l (.deleteStateMachine (some again)))
          pure false : LauncherM σ Bool) :=
        .bind (innocent_call trivial) fun _ => .bind (innocent_call trivial) fun _ =>
          .bind (innocent_call trivial) fun _ => .pure
      obtain ⟨outcome, machine⟩ := advanced
      cases outcome with
      | ok _ => exact .pure
      | error e =>
          cases e with
          | notFound => exact .bind (innocent_call trivial) fun _ => drop
          | _ => exact again

end Footprint

/-! ### The external id is stored -/

/-- The node names what the machine has reported, in memory. -/
abbrev Memory (names : String → List String) (w : LaunchWorld) : Prop :=
  Names names w w.object.node.externalId

theorem Memory.follows (h : Memory names w) (hf : Follows w w') : Memory names w' := by
  unfold Memory
  rw [hf.memory]
  exact Names.follows h hf

/-- What names all reports may be assigned; it goes on naming them. -/
theorem assignNode_wp {o : NodeRef} {e : Option String} (h : Names names w e) :
    (call (.assignNode o (.externalId e)) : LauncherM σ _).wp (context names l)
      (fun _ _ w => Memory names w ∧ Names names w e) (fun _ _ _ => True) s w := by
  refine Method.wp_call (P := fun w => Names names w e) (fun h hf _ => h.follows hf.toFollows) h
    (fun _ _ _ => rfl) ?_ fun _ _ _ _ _ _ _ => trivial
  intro _ w₁ w₂ h₁ _ hs _
  obtain rfl := List.mem_singleton.mp hs.1
  exact ⟨h₁, h₁⟩

theorem storeNode_wp {o : NodeRef} {e : Option String} (h : Memory names w ∧ Names names w e) :
    (ZooKeeper.storeNode o : LauncherM σ _).wp (context names l)
      (fun _ _ w => Recorded names w ∧ Names names w e) (fun _ _ _ => True) s w := by
  have lasting : ∀ {w w'}, Memory names w ∧ Names names w e → Follows w w' →
      Memory names w' ∧ Names names w' e := fun h hf => ⟨h.1.follows hf, h.2.follows hf⟩
  refine wp_bind.mpr (wp_mono (innocent_wp (innocent_call (c := .readNode o) trivial) lasting h) ?_
    fun _ _ _ _ => trivial)
  intro object s₁ w₁ h₁
  split
  · exact Method.wp_call (P := fun _ => True) (fun _ _ _ => trivial) trivial (fun _ _ _ => trivial)
      (fun _ _ _ _ _ hs _ => nomatch hs.1) fun _ _ _ _ _ hs _ => nomatch hs.1
  · refine Method.wp_call (P := fun w => Memory names w ∧ Names names w e)
      (fun h hf _ => lasting h hf.toFollows) h₁ (fun _ _ _ => trivial) ?_
      fun _ _ _ _ _ _ _ => trivial
    intro _ w₂ w₃ h₂ _ hs _
    obtain rfl := List.mem_singleton.mp hs.1
    exact ⟨⟨h₂.1, h₂.1⟩, h₂.2⟩

/-- Reading the launcher; a machine that takes the place of the one that was read has
reported nothing. -/
theorem readLauncher_wp {B : LaunchWorld → Prop} (lasting : ∀ {w w'}, B w → Beside w w' → B w')
    (hB : B w) {Q : NodeLauncher → σ → LaunchWorld → Prop} {E : Err → σ → LaunchWorld → Prop}
    (normal : ∀ w', B w' → Q w'.launcher s w') :
    (call (.readLauncher l) : LauncherM σ _).wp (context names l) Q E s w := by
  refine Method.wp_call (P := B) (fun h hf _ => lasting h hf) hB (fun _ _ _ => trivial) ?_ ?_
  · intro v w₁ w₂ h _ hs _
    have mem : w₂ ∈ w₁.next (.readLauncher l) (.ok v) := hs.1
    obtain ⟨hv, rfl⟩ := of_mem_ite mem
    exact hv ▸ normal w₂ h
  · intro _ _ _ _ _ hs _
    cases hs.1

theorem readNode_wp {o : NodeRef} {B : LaunchWorld → Prop}
    (lasting : ∀ {w w'}, B w → Beside w w' → B w') (hB : B w)
    {Q : NodeObject → σ → LaunchWorld → Prop} {E : Err → σ → LaunchWorld → Prop}
    (normal : ∀ w', B w' → Q w'.object s w') :
    (call (.readNode o) : LauncherM σ _).wp (context names l) Q E s w := by
  refine Method.wp_call (P := B) (fun h hf _ => lasting h hf) hB (fun _ _ _ => trivial) ?_ ?_
  · intro v w₁ w₂ h _ hs _
    have mem : w₂ ∈ w₁.next (.readNode o) (.ok v) := hs.1
    obtain ⟨hv, rfl⟩ := of_mem_ite mem
    exact hv ▸ normal w₂ h
  · intro _ _ _ _ _ hs _
    cases hs.1

theorem names_self {machine : StateMachine} (h : w.launcher.stateMachine = some machine) :
    Names names w machine.externalId := by
  intro m hm
  obtain rfl : machine = m := Option.some.inj (h.symm.trans hm)
  exact List.Subset.refl _

theorem names_of_none (h : w.launcher.stateMachine = none) (e : Option String) :
    Names names w e := fun _ hm => absurd (h.symm.trans hm) (Option.some_ne_none _).symm

theorem recorded_of_silent {e : Option String} (h : Names names w e) (ht : ¬ truthy e = true) :
    Recorded names w := by
  have silent : ∀ e', Names names w e' := by
    intro e' machine hm
    have := h machine hm
    rw [namedBy_of_not_truthy ht] at this
    rw [List.subset_nil.mp this]
    exact List.nil_subset _
  exact ⟨silent _, silent _⟩

theorem assignExternalId_wp :
    (StateMachineNodeLauncher.assignExternalId l : LauncherM σ _).wp (context names l)
      (fun _ _ => Memory names) (fun _ _ _ => True) s w := by
  refine wp_bind.mpr (readLauncher_wp (B := fun _ => True) (fun _ _ => trivial) trivial
    fun w₁ _ => ?_)
  cases hm : w₁.launcher.stateMachine with
  | none => exact names_of_none hm _
  | some machine =>
    exact wp_mono (assignNode_wp (names_self hm)) (fun _ _ _ h => h.1) fun _ _ _ h => h

theorem storeExternalId_wp :
    (StateMachineNodeLauncher.storeExternalId l : LauncherM σ _).wp (context names l)
      (fun _ _ => Recorded names) (fun _ _ _ => True) s w := by
  refine wp_bind.mpr (readLauncher_wp (B := fun _ => True) (fun _ _ => trivial) trivial
    fun w₁ _ => ?_)
  cases hm : w₁.launcher.stateMachine with
  | none => exact ⟨names_of_none hm _, names_of_none hm _⟩
  | some machine =>
      change (when (truthy machine.externalId = true) (_ : LauncherM σ Unit)).wp _ _ _ s w₁
      unfold when
      split
      · refine wp_bind.mpr (wp_mono (assignNode_wp (names_self hm)) (fun _ _ _ h => ?_)
          fun _ _ _ h => h)
        exact wp_mono (storeNode_wp h) (fun _ _ _ h => h.1) fun _ _ _ h => h
      · rename_i ht
        exact recorded_of_silent (names_self hm) ht

/-! ### One pass -/

section Pass

/-- What is stored of an instance names what its machine has reported. -/
theorem submitNodescan_wp {machine : StateMachine} {server : Option Instance}
    (h : Names names w machine.externalId)
    (covered : match server with
      | some server => namedBy names machine.externalId ⊆ namedBy names server.externalId
      | none => Recorded names w) :
    (StateMachineNodeLauncher.submitNodescan l server : LauncherM σ _).wp (context names l)
      (fun _ _ => Recorded names) (fun _ _ _ => True) s w := by
  have rest : InnocentMethod (do
      let launcher ← call (.readLauncher l)
      let object ← call (.readNode launcher.node)
      let _ ← call (.poolLabel launcher.poolName (object.node.type.headD ""))
      let r ← call (.newNodescanRequest launcher.node)
      call (.assignLauncher l (.nodescanRequest (some r)))
      call (.addNodescanRequest r) : LauncherM σ Unit) :=
    .bind (innocent_call trivial) fun _ => .bind (innocent_call trivial) fun _ =>
      .bind (innocent_call trivial) fun _ => .bind (innocent_call trivial) fun _ =>
      .bind (innocent_call trivial) fun _ => innocent_call trivial
  have finish : ∀ s w, Recorded names w → Method.wp (context names l) (do
      let launcher ← call (.readLauncher l)
      let object ← call (.readNode launcher.node)
      let _ ← call (.poolLabel launcher.poolName (object.node.type.headD ""))
      let r ← call (.newNodescanRequest launcher.node)
      call (.assignLauncher l (.nodescanRequest (some r)))
      call (.addNodescanRequest r) : LauncherM σ Unit)
      (fun _ _ => Recorded names) (fun _ _ _ => True) s w := fun s w h =>
    wp_mono (innocent_wp rest Recorded.follows h) (fun _ _ _ h => h) fun _ _ _ _ => trivial
  refine wp_bind.mpr ?_
  cases server with
  | none => exact finish s w covered
  | some server =>
      have memory : Names names w server.externalId := fun m hm =>
        List.Subset.trans (h m hm) covered
      refine wp_bind.mpr (readLauncher_wp (B := fun w => Names names w server.externalId)
        (fun h hf => h.follows hf.toFollows) memory fun w₁ h₁ => ?_)
      refine wp_bind.mpr (wp_mono (assignNode_wp h₁) (fun _ s₂ w₂ h₂ => ?_) fun _ _ _ h => h)
      have lasting : ∀ {w w'}, Memory names w ∧ Names names w server.externalId → Follows w w' →
          Memory names w' ∧ Names names w' server.externalId :=
        fun h hf => ⟨h.1.follows hf, h.2.follows hf⟩
      refine wp_bind.mpr (wp_mono (innocent_wp (innocent_call (c := .getQuotaInformation server)
        trivial) lasting h₂) (fun quota s₃ w₃ h₃ => ?_) fun _ _ _ _ => trivial)
      refine wp_bind.mpr (wp_mono (innocent_wp (innocent_call
        (c := .assignNode w₁.launcher.node (.resources quota.compute)) trivial) lasting h₃)
        (fun _ s₄ w₄ h₄ => ?_) fun _ _ _ _ => trivial)
      exact wp_mono (storeNode_wp h₄) (fun _ s₅ w₅ h₅ => finish s₅ w₅ h₅.1) fun _ _ _ h => h

/-- Where the instance of a machine is stored in this pass. -/
abbrev submitted (machine : StateMachine) (r : Option Nat) (server : Option Instance) :
    Option Instance :=
  if machine.complete ∧ r = none then server else none

/-- The machine was advanced: either the node names what it has reported, or it has no
external id yet, or its instance is stored now. -/
theorem recorded_advance {machine : StateMachine} {server : Option Instance}
    (covered : Covered names w server machine) (mem : w' ∈ w.advanceCreate (.ok server) machine) :
    Names names w' machine.externalId ∧
      w'.launcher.nodescanRequest = w.launcher.nodescanRequest ∧
      (truthy w'.object.node.externalId = true →
        submitted machine w.launcher.nodescanRequest server = none → Recorded names w') := by
  obtain ⟨-, rfl | ⟨ht, rfl⟩⟩ := mem_advanceCreate mem
  · refine ⟨names_self rfl, rfl, fun ht hn => ?_⟩
    unfold Covered at covered
    rw [show (if machine.complete ∧ w.launcher.nodescanRequest = none then server else none) = none
      from hn] at covered
    obtain ⟨memory, stored⟩ := covered ht
    refine ⟨fun m hm => ?_, fun m hm => ?_⟩
    · obtain rfl : machine = m := Option.some.inj hm
      exact memory
    · obtain rfl : machine = m := Option.some.inj hm
      exact stored
  · refine ⟨names_self rfl, rfl, fun _ hn => ⟨names_self rfl, fun m hm => ?_⟩⟩
    unfold Covered at covered
    rw [show (if machine.complete ∧ w.launcher.nodescanRequest = none then server else none) = none
      from hn] at covered
    obtain rfl : machine = m := Option.some.inj hm
    exact (covered ht).2

/-- The machine was advanced, and what it has reported is not stored yet. -/
structure Advanced (names : String → List String) (machine : StateMachine)
    (server : Option Instance) (r : Option Nat) (w : LaunchWorld) : Prop where
  named : Names names w machine.externalId
  nodescan : w.launcher.nodescanRequest = r
  recorded : truthy w.object.node.externalId = true → submitted machine r server = none →
    Recorded names w

theorem Advanced.beside {machine : StateMachine} {server : Option Instance} {r : Option Nat}
    (h : Advanced names machine server r w) (hf : Beside w w') :
    Advanced names machine server r w' where
  named := h.named.follows hf.toFollows
  nodescan := hf.nodescan.trans h.nodescan
  recorded ht hn := (h.recorded (hf.memory ▸ ht) hn).follows hf.toFollows

/-- The first external id that is reported is stored. -/
theorem storeReported_wp {o : NodeRef} {machine : StateMachine} {server : Option Instance}
    {r : Option Nat} (h : Advanced names machine server r w) :
    (when (¬ truthy w.object.node.externalId ∧ truthy machine.externalId) (do
      call (.assignNode o (.externalId machine.externalId))
      ZooKeeper.storeNode o) : LauncherM σ Unit).wp (context names l)
      (fun _ _ w => Names names w machine.externalId ∧
        (submitted machine r server = none → Recorded names w))
      (fun _ _ _ => True) s w := by
  unfold when
  split
  · refine wp_bind.mpr (wp_mono (assignNode_wp h.named) (fun _ s₁ w₁ h₁ => ?_) fun _ _ _ h => h)
    exact wp_mono (storeNode_wp h₁) (fun _ _ _ h => ⟨h.2, fun _ => h.1⟩) fun _ _ _ h => h
  · rename_i skipped
    refine ⟨h.named, fun hn => ?_⟩
    by_cases ht : truthy w.object.node.externalId = true
    · exact h.recorded ht hn
    · exact recorded_of_silent h.named fun ht' => skipped ⟨ht, ht'⟩

theorem advanceCreateStateMachine_wp :
    (StateMachineNodeLauncher.advanceCreateStateMachine l : LauncherM σ _).wp (context names l)
      (fun _ _ => Recorded names) (fun _ _ _ => True) s w := by
  refine wp_bind.mpr (Method.wp_call (P := fun _ => True) (fun _ _ _ => trivial) trivial
    (fun _ _ _ => rfl) ?_ fun _ _ _ _ _ _ _ => trivial)
  rintro ⟨outcome, machine⟩ w₁ w₂ _ _ hs _
  cases outcome with
  | error e => trivial
  | ok server =>
      have covered : Covered names w₁ server machine := hs.2
      obtain ⟨named, nodescan, recorded⟩ := recorded_advance covered hs.1
      have lasting : ∀ {w w'}, Advanced names machine server w₁.launcher.nodescanRequest w →
          Beside w w' → Advanced names machine server w₁.launcher.nodescanRequest w' :=
        fun h hf => h.beside hf
      refine wp_bind.mpr (wp_pure.mpr ?_)
      refine wp_bind.mpr (readLauncher_wp lasting ⟨named, nodescan, recorded⟩ fun w₃ h₃ => ?_)
      rw [h₃.nodescan]
      refine wp_bind.mpr (readNode_wp lasting h₃ fun w₄ h₄ => ?_)
      refine wp_bind.mpr (wp_mono (storeReported_wp h₄) (fun _ s₅ w₅ h₅ => ?_) fun _ _ _ h => h)
      unfold when
      split
      · rename_i complete
        have sub : submitted machine w₁.launcher.nodescanRequest server = server := if_pos complete
        refine submitNodescan_wp h₅.1 ?_
        cases server with
        | none => exact h₅.2 sub
        | some server =>
            unfold Covered at covered
            rw [if_pos complete] at covered
            exact covered
      · rename_i incomplete
        exact h₅.2 (if_neg incomplete)

/-- From a node that names all that was reported to one that does, unless the method
raises. -/
def Passes (names : String → List String) (l : Nat) {α : Type} (m : LauncherM σ α) : Prop :=
  ∀ s w, Recorded names w →
    m.wp (context names l) (fun _ _ => Recorded names) (fun _ _ _ => True) s w

theorem Passes.innocent {α : Type} {m : LauncherM σ α} (h : InnocentMethod m) :
    Passes names l m := fun _ _ hr =>
  wp_mono (innocent_wp h Recorded.follows hr) (fun _ _ _ h => h) fun _ _ _ _ => trivial

theorem Passes.bind {α β : Type} {m : LauncherM σ α} {f : α → LauncherM σ β}
    (hm : Passes names l m) (hf : ∀ a, Passes names l (f a)) : Passes names l (m >>= f) :=
  fun s w h => wp_bind.mpr (wp_mono (hm s w h) (fun a s w h => hf a s w h) fun _ _ _ h => h)

theorem Passes.ite {α : Type} {b : Prop} [Decidable b] {m m' : LauncherM σ α}
    (h : Passes names l m) (h' : Passes names l m') : Passes names l (if b then m else m') := by
  split
  · exact h
  · exact h'

theorem Passes.call {c : Call} (hc : Innocent c) :
    Passes names l (call c : LauncherM σ _) := .innocent (innocent_call hc)

theorem passes_runCreateStateMachine (machine : StateMachine) :
    Passes names l (StateMachineNodeLauncher.runCreateStateMachine l machine : LauncherM σ _) := by
  have startTime : ∀ b : Prop, ∀ [Decidable b], InnocentMethod (when b (do
      let now ← call .time
      call (.assignLauncher l (.startTime (some now)))) : LauncherM σ _) := fun _ =>
    .ite (.bind (innocent_call trivial) fun _ => innocent_call trivial) .pure
  refine .bind (.call trivial) fun launcher => .bind (.innocent (startTime _)) fun _ =>
    .bind (.innocent (innocent_calm (calm_finishedNodescan machine _))) fun scanned => ?_
  cases scanned with
  | some r => exact .innocent (innocent_finishLaunch r)
  | none =>
      refine .bind (.call trivial) fun now => .bind (.call trivial) fun timeout =>
        .bind (.innocent (.ite .pure .throw)) fun _ =>
        .bind (.innocent innocent_runDeleteStateMachine) fun unwound =>
        .ite (fun _ _ _ => advanceCreateStateMachine_wp) (.innocent .pure)

theorem passes_tryStateMachine :
    Passes names l (StateMachineNodeLauncher.tryStateMachine l : LauncherM σ _) := by
  have await : Passes names l (StateMachineNodeLauncher.awaitStart l : LauncherM σ _) := by
    refine .bind (.call trivial) fun done => .ite (.bind (.call trivial) fun _ =>
      .bind (.call trivial) fun launcher => ?_) (.innocent .pure)
    cases launcher.stateMachine with
    | some machine => exact passes_runCreateStateMachine machine
    | none => exact .innocent .throw
  refine .bind (.call trivial) fun launcher => ?_
  cases launcher.stateMachine with
  | some machine => exact passes_runCreateStateMachine machine
  | none => exact .ite await (.innocent .pure)

/-- The machine of the next attempt has reported nothing yet. -/
theorem passes_startStateMachine :
    Passes names l (StateMachineNodeLauncher.startStateMachine l : LauncherM σ _) := by
  intro s w h
  have stable : Stable (context names l) Prepares (Recorded names) :=
    (stable_innocent Recorded.follows).mono fun _ h => innocent_of_calm h.1
  refine startStateMachine_wp stable h (fun _ _ _ _ => trivial) ?_
  intro hostname label image metadata s w h
  refine wp_bind.mpr (Method.wp_call (P := Recorded names) (fun h hf _ => h.follows hf.toFollows) h
    (fun _ _ _ => trivial) ?_ fun _ _ _ _ _ _ _ => trivial)
  intro machine w₁ w₂ h₁ _ hs _
  have mem : w₂ ∈ w₁.next (.getCreateStateMachine l hostname label image metadata) (.ok machine) :=
    hs.1
  obtain ⟨fresh, rfl⟩ := mem_getCreateStateMachine mem
  refine Method.wp_call (P := Recorded names) (fun h hf _ => h.follows hf.toFollows)
    (h₁.follows ⟨rfl, Or.inl rfl, Or.inl rfl⟩) (fun _ _ _ => ⟨machine, rfl, fresh⟩) ?_
    fun _ _ _ _ _ _ _ => trivial
  intro _ w₃ w₄ h₃ _ hs _
  obtain rfl := List.mem_singleton.mp hs.1
  exact h₃.follows ⟨rfl, Or.inl rfl, Or.inr ⟨machine, rfl, fresh⟩⟩

theorem passes_retryLaunch :
    Passes names l (StateMachineNodeLauncher.retryLaunch l : LauncherM σ _) :=
  .bind (.call trivial) fun _ => .bind (.call trivial) fun _ => .bind (.call trivial) fun _ =>
    .bind (.call trivial) fun _ => .bind (.call trivial) fun _ => .bind (.call trivial) fun _ =>
    .ite (.bind (.call trivial) fun _ => .call trivial) passes_startStateMachine

theorem failAttempt_wp (e : Err) :
    (StateMachineNodeLauncher.failAttempt l e : LauncherM σ _).wp (context names l)
      (fun _ _ => Recorded names) (fun _ _ _ => True) s w := by
  refine wp_bind.mpr (wp_mono (innocent_wp (B := fun _ => True)
    (innocent_call (c := .log "Launch attempt failed") trivial) (fun _ _ => trivial) trivial)
    (fun _ s₁ w₁ _ => ?_) fun _ _ _ h => h)
  refine wp_bind.mpr (wp_mono storeExternalId_wp (fun _ s₂ w₂ h₂ => ?_) fun _ _ _ h => h)
  have rest : Passes names l (do
      when (e = .launchKeyscan) (StateMachineNodeLauncher.reportKeyscan l)
      StateMachineNodeLauncher.removeNodescanRequest l
      let launcher ← call (.readLauncher l)
      if launcher.retries ≤ launcher.attempts then
        ZooKeeper.assignState launcher.node .failed
      else StateMachineNodeLauncher.retryLaunch l : LauncherM σ Unit) :=
    .bind (.innocent (.ite (innocent_calm calm_reportKeyscan) .pure)) fun _ =>
      .bind (.innocent (innocent_calm calm_removeNodescanRequest)) fun _ =>
      .bind (.call trivial) fun _ => .ite (.innocent (innocent_assignState _ _)) passes_retryLaunch
  exact rest s₂ w₂ h₂

theorem abortLaunch_wp :
    (StateMachineNodeLauncher.abortLaunch l : LauncherM σ _).wp (context names l)
      (fun _ _ => Recorded names) (fun _ _ _ => True) s w := by
  have any : ∀ {α : Type} {m : LauncherM σ α} {Q : α → σ → LaunchWorld → Prop} {s w},
      InnocentMethod m → (∀ a s w, Q a s w) → m.wp (context names l) Q (fun _ _ _ => True) s w :=
    fun hm h => wp_mono (innocent_wp (B := fun _ => True) hm (fun _ _ => trivial) trivial)
      (fun a s w _ => h a s w) fun _ _ _ h => h
  refine wp_bind.mpr (any (innocent_call trivial) fun _ s₁ w₁ => ?_)
  refine wp_bind.mpr (any (innocent_call trivial) fun launcher s₂ w₂ => ?_)
  refine wp_bind.mpr (any (innocent_assignState _ _) fun _ s₃ w₃ => ?_)
  refine wp_bind.mpr (wp_mono assignExternalId_wp (fun _ s₄ w₄ h₄ => ?_) fun _ _ _ h => h)
  refine wp_bind.mpr (wp_mono (storeNode_wp ⟨h₄, h₄⟩) (fun _ s₅ w₅ h₅ => ?_) fun _ _ _ h => h)
  have rest : Passes names l (do
      call .invalidateQuotaCache
      StateMachineNodeLauncher.removeNodescanRequest l : LauncherM σ Unit) :=
    .bind (.call trivial) fun _ => .innocent (innocent_calm calm_removeNodescanRequest)
  exact rest s₅ w₅ h₅.1

/-- The session is only lost once everything is stored; then the assignment in memory
changes nothing. -/
theorem lostSession_wp :
    (StateMachineNodeLauncher.lostSession l : LauncherM σ _).wp (context names l)
      (fun _ _ => Recorded names) (fun _ _ _ => True) s w := by
  refine wp_bind.mpr (Method.wp_call (P := fun _ => True) (fun _ _ _ => trivial) trivial
    (fun _ _ _ => trivial) ?_ fun _ _ _ _ _ _ _ => trivial)
  intro _ w₁ w₂ _ _ hs _
  have recorded : Recorded names w₁ := hs.2 (Or.inl rfl)
  have mem : w₂ ∈ w₁.next (.log "Lost ZooKeeper session trying to launch for node") (.ok ()) := hs.1
  have assign : Passes names l (StateMachineNodeLauncher.assignExternalId l : LauncherM σ _) := by
    intro s w h
    refine wp_bind.mpr (readLauncher_wp (fun h hf => h.follows hf.toFollows) h fun w₃ h₃ => ?_)
    cases hm : w₃.launcher.stateMachine with
    | none => exact h₃
    | some machine =>
        refine Method.wp_call (P := fun w => Recorded names w ∧ Names names w machine.externalId)
          (fun h hf _ => ⟨h.1.follows hf.toFollows, h.2.follows hf.toFollows⟩)
          ⟨h₃, names_self hm⟩ (fun _ _ _ => rfl) ?_ fun _ _ _ _ _ _ _ => trivial
        intro _ w₄ w₅ h₄ _ hs _
        obtain rfl := List.mem_singleton.mp hs.1
        exact ⟨h₄.2, h₄.1.stored⟩
  have rest : Passes names l (do
      let launcher ← call (.readLauncher l)
      ZooKeeper.assignState launcher.node .failed
      StateMachineNodeLauncher.assignExternalId l
      StateMachineNodeLauncher.removeNodescanRequest l : LauncherM σ Unit) :=
    .bind (.call trivial) fun _ => .bind (.innocent (innocent_assignState _ _)) fun _ =>
      .bind assign fun _ => .innocent (innocent_calm calm_removeNodescanRequest)
  exact rest s w₂ (recorded.follows (next_innocent (c := .log _) trivial mem))

theorem passes_runStateMachine :
    Passes names l (StateMachineNodeLauncher.runStateMachine l : LauncherM σ _) := by
  intro s w h
  refine wp_tryCatch.mpr (wp_mono (passes_tryStateMachine s w h) (fun _ _ _ h => h) ?_)
  intro e s₁ w₁ _
  cases e with
  | sessionExpired => exact lostSession_wp
  | quota => exact abortLaunch_wp
  | _ => exact failAttempt_wp _

theorem runLauncher_wp (h : Recorded names w) :
    (StateMachineProvider.runLauncher l : LauncherM σ _).wp (context names l)
      (fun _ _ => Recorded names) (fun _ _ => Recorded names) s w := by
  have remove : Passes names l (do
      let complete ← StateMachineNodeLauncher.complete l
      when complete (call (.removeLauncher l)) : LauncherM σ Unit) :=
    .bind (.innocent (.bind (innocent_call trivial) fun _ => .bind (innocent_call trivial) fun _ =>
      .pure)) fun _ => .ite (.call trivial) (.innocent .pure)
  refine wp_tryCatch.mpr (wp_mono (passes_runStateMachine.bind (fun _ => remove) s w h)
    (fun _ _ _ h => h) ?_)
  intro _ s₁ w₁ _
  refine Method.wp_call (P := fun _ => True) (fun _ _ _ => trivial) trivial
    (fun _ _ _ => trivial) ?_ fun _ _ _ _ _ hs _ => nomatch hs.1
  intro _ w₂ w₃ _ _ hs _
  have recorded : Recorded names w₂ := hs.2 (Or.inr rfl)
  have mem : w₃ ∈ w₂.next (.log "Error running create state machine") (.ok ()) := hs.1
  exact recorded.follows (next_innocent (c := .log _) trivial mem)

end Pass

/-! ### Runs -/

abbrev starterContext (names : String → List String) (l : Nat) :
    Context LauncherSig LaunchWorld :=
  (launchSystem l).context (Covers names l) (fun _ => True) (fun _ _ => True)
    (fun _ => Respects .starter) .starter

theorem respects_of_prepares {i : LaunchThread} {c : Call} (hc : Prepares c) : Respects i c := by
  cases c with
  | assignNode o a => cases a <;> first | exact absurd hc.1 id | trivial
  | assignLauncher l a =>
      cases a with
      | nodescanRequest request => exact absurd rfl (hc.2 l request)
      | _ => first | exact absurd hc.1 id | trivial
  | advanceCreate => exact absurd hc.1 id
  | _ => trivial

/-- The thread that starts the launch assigns no machine but the one that was just made. -/
theorem startFuture_wp {s : Unit} :
    (LaunchThread.startFuture l).wp (starterContext names l) (fun _ _ _ => True)
      (fun _ _ _ => True) s w := by
  have stable : Stable (starterContext names l) Prepares fun _ => True :=
    { rely := fun _ _ _ => trivial
      req := fun hc _ _ => respects_of_prepares hc
      step := fun _ _ _ _ _ => trivial }
  refine wp_bind.mpr (wp_attempt.mpr (wp_mono (startStateMachine_wp stable trivial
    (Q := fun _ _ _ => True) (E := fun _ _ _ => True) (fun _ _ _ _ => trivial) ?_) ?_ ?_))
  · intro hostname label image metadata s w _
    refine wp_bind.mpr (Method.wp_call (P := fun _ => True) (fun _ _ _ => trivial) trivial
      (fun _ _ _ => trivial) ?_ fun _ _ _ _ _ _ _ => trivial)
    intro machine w₁ w₂ _ _ hs _
    have mem : w₂ ∈ w₁.next (.getCreateStateMachine l hostname label image metadata)
      (.ok machine) := hs.1
    obtain ⟨fresh, rfl⟩ := mem_getCreateStateMachine mem
    exact Method.wp_call (P := fun _ => True) (fun _ _ _ => trivial) trivial
      (fun _ _ _ => ⟨machine, rfl, fresh⟩) (fun _ _ _ _ _ _ _ => trivial)
      fun _ _ _ _ _ _ _ => trivial
  all_goals
    intro _ _ _ _
    exact Method.wp_call (P := fun _ => True) (fun _ _ _ => trivial) trivial (fun _ _ _ => trivial)
      (fun _ _ _ _ _ _ _ => trivial) fun _ _ _ _ _ _ _ => trivial

/-- What a thread relies on. -/
def rely : LaunchThread → LaunchWorld → LaunchWorld → Prop
  | .starter => fun _ _ => True
  | .runner => Beside

/-- What holds while a thread is idle. -/
def idle (names : String → List String) : LaunchThread → LaunchWorld → Prop
  | .starter, _ => True
  | .runner, w => Recorded names w

def outline (names : String → List String) (l : Nat) :
    Outline (launchSystem l) (Covers names l) where
  inv _ := True
  rely := rely
  req i _ := Respects i
  linv i _ := idle names i
  rely_refl i w := by
    cases i with
    | starter => trivial
    | runner => exact Beside.refl w
  rely_trans i _ _ _ h h' := by
    cases i with
    | starter => trivial
    | runner => exact Beside.trans h h'
  linv_stable i _ _ _ h hr _ := by
    cases i with
    | starter => trivial
    | runner => exact Recorded.follows h (Beside.toFollows hr)
  entry i _ _ w _ _ _ h := by
    cases i with
    | starter =>
        change ((LaunchThread.startFuture l).toBody (fun _ s => s) ()).wp (starterContext names l)
          (fun _ _ => True) w
        exact wp_toBody.mpr startFuture_wp
    | runner =>
        change ((StateMachineProvider.runLauncher l).toBody (fun _ s => s) ()).wp (context names l)
          (fun _ => Recorded names) w
        exact wp_toBody.mpr (runLauncher_wp h)
  call_inv _ _ _ _ _ _ _ _ _ := trivial
  call_rely i j _ _ _ _ hij _ hreq _ hs := by
    cases j with
    | starter => trivial
    | runner =>
        cases i with
        | starter => exact next_beside hreq hs
        | runner => exact absurd rfl hij
  env_inv _ _ := trivial
  env_rely j _ _ _ h := by
    cases j with
    | starter => trivial
    | runner => exact Env.beside h

/-- **Main result.** Between two passes of the runner the stored external id of the node
names every resource that the create state machine has reported, in every run in which
the machines report nothing new while the node has an external id, and in which
`runStateMachine` does not give up before what was reported is stored. -/
theorem stored_names {names : String → List String} {l : Nat} {id : NodeId} {node : Node}
    {handler : Nat} {providerName poolName : String} {retries : Nat}
    {cfg : Config (launchSystem l)}
    (run : (launchSystem l).Run (Covers names l)
      (init l id node handler providerName poolName retries) cfg)
    (idle : cfg.thread .runner = .pure ()) {machine : StateMachine}
    (current : cfg.world.launcher.stateMachine = some machine) :
    ∀ resource ∈ namedBy names machine.externalId,
      resource ∈ namedBy names cfg.world.stored.externalId := by
  have safe : (outline names l).Safe (init l id node handler providerName poolName retries) := by
    refine Outline.Safe.of_idle trivial fun i => ⟨(), rfl, ?_⟩
    cases i with
    | starter => trivial
    | runner => exact ⟨names_of_none rfl _, names_of_none rfl _⟩
  have recorded : Recorded names cfg.world := ((outline names l).sound safe run).idle idle
  exact recorded.stored machine current

/-! ### Examples -/

/-- A dedicated host, on which an instance is made later. -/
def dedicatedNames (e : String) : List String :=
  if e = "host+instance" then ["host", "instance"] else [e]

/-- The create state machine reports an external id, and is not complete. -/
def reports (e : String) : Except Err (Option Instance) × StateMachine :=
  (.ok none, ⟨"creating", some e, false, 0⟩)

/-- The launch starts, and the machine is advanced in one pass; in a second pass it may
be advanced again. -/
def reportSchedule (second : List (System.Action (launchSystem 0))) :
    List (System.Action (launchSystem 0)) :=
  .start .starter () :: calls .starter (.ok smallLabel) (reports "host") 11 ++
    .start .runner () :: calls .runner (.ok smallLabel) (reports "host") 15 ++ second

/-- The steps in which a machine reports something while the node has no external id. -/
def allowed (w : LaunchWorld) : Event (launchSystem 0) → Bool
  | .call _ (.advanceCreate _) (.ok (.ok _, machine)) =>
      w.object.node.externalId = none && !machine.complete
  | .call _ (.log _) _ => false
  | _ => true

theorem covers_of_allowed (w : LaunchWorld) (e : Event (launchSystem 0))
    (h : allowed w e = true) : Covers dedicatedNames 0 w e := by
  unfold Covers
  split
  · rename_i machine
    simp only [allowed, Bool.and_eq_true, decide_eq_true_eq, Bool.not_eq_true'] at h
    have incomplete : ¬ (machine.complete = true ∧ w.launcher.nodescanRequest = none) :=
      fun hc => absurd (h.2.symm.trans hc.1) (by decide)
    unfold Covered
    rw [if_neg incomplete, h.1]
    intro ht
    cases ht
  · cases h
  · trivial

/-- The host is stored once it is reported. -/
theorem stored_names_reportSchedule : ∃ cfg,
    System.exec allowed exampleInit (reportSchedule []) = some cfg ∧
      "host" ∈ namedBy dedicatedNames cfg.world.stored.externalId := by
  have hexec : ∃ cfg, System.exec allowed exampleInit (reportSchedule []) = some cfg ∧
      cfg.thread .runner = .pure () ∧
      cfg.world.launcher.stateMachine = some ⟨"creating", some "host", false, 0⟩ :=
    ⟨_, rfl, rfl, rfl⟩
  obtain ⟨cfg, hcfg, idle, current⟩ := hexec
  exact ⟨cfg, hcfg, stored_names (System.exec_run _ covers_of_allowed hcfg) idle current "host"
    (by decide)⟩

/-- The instance on the host is reported later, when the node has an external id. -/
theorem not_forall_stored_names :
    ¬ ∀ (names : String → List String) (l : Nat) (id : NodeId) (node : Node) (handler : Nat)
      (providerName poolName : String) (retries : Nat) (cfg : Config (launchSystem l)),
      (launchSystem l).Run (System.always (launchSystem l))
        (init l id node handler providerName poolName retries) cfg →
      cfg.thread .runner = .pure () → ∀ machine, cfg.world.launcher.stateMachine = some machine →
      ∀ resource ∈ namedBy names machine.externalId,
        resource ∈ namedBy names cfg.world.stored.externalId := by
  intro h
  have hexec : ∃ cfg, System.exec (fun _ _ => true) exampleInit (reportSchedule
      (.start .runner () :: calls .runner (.ok smallLabel) (reports "host+instance") 10)) =
        some cfg ∧ cfg.thread .runner = .pure () ∧
      cfg.world.launcher.stateMachine = some ⟨"creating", some "host+instance", false, 0⟩ ∧
      cfg.world.stored.externalId = some "host" := ⟨_, rfl, rfl, rfl, rfl⟩
  obtain ⟨cfg, hcfg, idle, current, stored⟩ := hexec
  have lost := h dedicatedNames _ _ _ _ _ _ _ cfg (System.exec_run _ (fun _ _ _ => trivial) hcfg)
    idle _ current "instance" (by decide)
  rw [stored] at lost
  exact absurd lost (by decide)

end ExternalId

end LaunchSystem

end Nodepool
