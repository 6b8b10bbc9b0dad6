import Nodepool.Driver.DeclineMethods

/-!
How pools decline a request, over all runs of the pools and cleanup workers that handle it.

A pool adds at most itself to `declined_by`. A pool that has added itself stores the request FAILED
or REQUESTED, as the pools that were registered when it asked have all declined or not, and launches
nothing for it. What is unlocked FAILED or FULFILLED stays as it is.
-/

namespace Nodepool

open Effect Method NodeRequestHandler

namespace DeclineSystem

variable {requestId name : String} {i j : Party} {w : DeclineWorld}

/-! ### Runs -/

/-- What is known of a party between two of its operations. -/
def Idle (requestId : String) :
    (i : Party) → (declineSystem requestId).State i → DeclineWorld → Prop
  | .pool name, handler, w => ∀ h, handler = some h → Holds requestId name h w
  | .cleanup _, _, _ => True

theorem Idle.rely {t : (declineSystem requestId).State i} {w w' : DeclineWorld}
    (h : Idle requestId i t w) (rely : Rely i w w') : Idle requestId i t w' := by
  cases i with
  | pool name => exact fun handler kept => (h handler kept).rely rely
  | cleanup _ => trivial

theorem pool_wp (op : PoolWorker.Op) {handler : Option (Handler Unit)}
    (enabled : op.enabled requestId handler = true)
    (idle : ∀ h, handler = some h → Holds requestId name h w) :
    (op.body name handler).wp (ctx requestId (.pool name))
      (fun handler' w' => ∀ h, handler' = some h → Holds requestId name h w') w := by
  cases op with
  | take cached decline =>
      cases handler with
      | some _ => cases enabled
      | none =>
          have id : cached.id = requestId := of_decide_eq_true enabled
          have started : (Handler.init name cached ()).request.id = requestId := id
          refine Prog.wp_bind.mpr (Prog.wp_mono (takeRequest_wp decline rfl started rfl rfl) ?_)
          rintro ⟨_ | kept, h⟩ w' holds h' same
          · cases same
          · cases kept with
            | true => cases same; exact holds rfl
            | false => cases same
  | run =>
      cases handler with
      | none => cases enabled
      | some h =>
          have holds := idle h rfl
          have paused : h.paused = true := enabled
          have active : h.done = false := Bool.not_eq_true _ ▸ fun done =>
            nomatch (holds.done done).symm.trans paused
          have undeclined : name ∉ h.request.declinedBy := fun declined =>
            nomatch (holds.declined active declined).2.symm.trans paused
          have working : Working requestId name h w :=
            ⟨holds.launcherId, holds.id active, active, holds.mine active, undeclined⟩
          refine Prog.wp_bind.mpr (Prog.wp_mono
            (run_wp working fun _ => holds.undecided active undeclined) ?_)
          rintro ⟨_ | _, h'⟩ w' holds' h'' same
          · exact holds'.elim
          · cases same
            exact holds'
  | poll =>
      cases handler with
      | none => cases enabled
      | some h =>
          refine Prog.wp_bind.mpr (Prog.wp_mono (poll_wp (idle h rfl)) ?_)
          rintro ⟨_ | finished, h'⟩ w' kept h'' same
          · cases same
            exact kept
          · cases finished with
            | true => cases same
            | false => cases same; exact kept rfl

def declines : Outline (declineSystem requestId) (declineSystem requestId).always where
  inv := Inv requestId
  rely := Rely
  req := req requestId
  linv := Idle requestId
  rely_refl := Rely.refl
  rely_trans _ := Rely.trans
  linv_stable _ _ _ _ h rely _ := h.rely rely
  entry i op s w _ enabled _ idle := by
    cases i with
    | pool name => exact pool_wp op enabled idle
    | cleanup launcher =>
        have respects : (CleanupWorker.cleanupLostRequests : LauncherM Unit Unit).wp
            (ctx requestId (.cleanup launcher)) (fun _ _ _ => True) (fun _ _ _ => True) () w :=
          cleanupLostRequests_wp
        exact wp_toBody_of_respects (fun _ s => s) respects
  call_inv i _ _ _ _ inv hreq _ mem := call_inv inv hreq mem
  call_rely i j _ _ _ _ ne _ hreq _ mem := call_rely ne hreq mem
  env_inv inv h := env_inv inv h
  env_rely _ _ _ _ h := env_rely h

/-- A request that a client has stored, and that nobody has taken yet. -/
structure Initial (requestId : String) (cfg : Config (declineSystem requestId)) : Prop where
  id : ∀ r, cfg.world.request = some r → r.id = requestId
  nodup : ∀ r, cfg.world.request = some r → r.declinedBy.Nodup
  holder : cfg.world.holder = none
  closed : cfg.world.closed = cfg.world.request.any (·.isFinal)
  pool : ∀ name, cfg.thread (.pool name) = .pure none
  cleanup : ∀ launcher, cfg.thread (.cleanup launcher) = .pure ()

theorem Initial.safe {cfg : Config (declineSystem requestId)} (h : Initial requestId cfg) :
    declines.Safe cfg := by
  refine .of_idle ⟨h.id, h.nodup, fun closed r stored => ?_, fun r stored final _ => ?_⟩ fun i => ?_
  · rw [h.closed, stored] at closed
    exact closed
  · rw [h.closed, stored]
    exact final
  · cases i with
    | pool name => exact ⟨none, h.pool name, fun _ kept => nomatch kept⟩
    | cleanup launcher => exact ⟨(), h.cleanup launcher, trivial⟩

/-- The later version of a request: it differs in what handling it changes (the state, the pools
that have declined, the nodes), and no pool that has declined it is taken off the list. -/
structure Extends (r r' : NodeRequest) : Prop where
  same : { r' with state := r.state, declinedBy := r.declinedBy, nodes := r.nodes } = r
  declinedBy : r.declinedBy <+: r'.declinedBy

theorem Extends.refl (r : NodeRequest) : Extends r r := ⟨rfl, List.prefix_rfl⟩

theorem Extends.trans {r r' r'' : NodeRequest} (h : Extends r r') (h' : Extends r' r'') :
    Extends r r'' where
  same := by
    have := h.same
    rw [← h'.same] at this
    exact this
  declinedBy := h.declinedBy.trans h'.declinedBy

theorem Permitted.extends {r data : NodeRequest} (h : Permitted w r data i) : Extends r data := by
  cases i with
  | pool name =>
      refine ⟨h.1.same, ?_⟩
      rcases h.1.declinedBy with same | ⟨-, added⟩
      · exact ⟨[], by rw [same, List.append_nil]⟩
      · rw [added]
        exact List.prefix_append _ _
  | cleanup _ =>
      rw [h.2]
      exact ⟨rfl, List.prefix_rfl⟩

variable {init mid cfg cfg' : Config (declineSystem requestId)}

/-- A step leaves what is stored, or the request is deleted, or a party stores it that may; what
was closed stays so. -/
theorem step_request {e : Event (declineSystem requestId)} (safe : declines.Safe cfg)
    (step : (declineSystem requestId).Step cfg e cfg') :
    (cfg.world.closed = true → cfg'.world.closed = true) ∧
    (cfg'.world.request = cfg.world.request ∨ cfg'.world.request = none ∨
      cfg.world.closed = false ∧ ∃ i r data, cfg.world.request = some r ∧
        cfg'.world.request = some data ∧ Permitted cfg.world r data i) := by
  cases step with
  | start i op idle enabled => exact ⟨fun closed => closed, .inl rfl⟩
  | env h => exact ⟨fun closed => h.closed.trans closed, h.request.imp_right .inl⟩
  | call i r next mem =>
      have hreq := safe.req next
      rcases next_cases mem with rfl | ⟨stored, data, rfl, hstored, rfl⟩ | ⟨-, -, rfl⟩ |
        ⟨-, rfl⟩ | ⟨_, -, rfl⟩
      · exact ⟨fun closed => closed, .inl rfl⟩
      · obtain ⟨-, isOpen, permitted⟩ := hreq rfl
        exact ⟨fun closed => closed,
          .inr (.inr ⟨isOpen, i, stored, data, hstored, rfl, permitted stored hstored⟩)⟩
      · exact ⟨fun closed => closed, .inl rfl⟩
      · exact ⟨fun closed => Bool.or_eq_true _ _ ▸ .inl closed, .inl rfl⟩
      · exact ⟨fun closed => closed, .inl rfl⟩

/-! ### An example -/

def examplePool (id : String) : PoolComponent := ⟨id, id, "provider", ["label"], 100, false⟩

/-- A request, and two pools that are registered. -/
def exampleInit : Config (declineSystem HandlerSystem.exampleRequest.id) where
  world := {
    request := some HandlerSystem.exampleRequest
    holder := none
    pools := fun _ => [examplePool "a", examplePool "b"]
    asked := fun _ => []
    closed := false }
  thread
    | .pool _ => .pure none
    | .cleanup _ => .pure ()

theorem exampleInit_initial : Initial HandlerSystem.exampleRequest.id exampleInit where
  id := by rintro _ ⟨⟩; rfl
  nodup := by rintro _ ⟨⟩; exact List.nodup_nil
  holder := rfl
  closed := rfl
  pool _ := rfl
  cleanup _ := rfl

def exampleNode : Node where
  state := .init
  stateTime := 0
  type := ["label"]
  provider := some "provider"
  pool := some "a"
  launcher := some "a"
  allocatedTo := some HandlerSystem.exampleRequest.id
  tenantName := none
  requestor := none
  resources := none
  externalId := none

/-- Everything works, and there is quota for new nodes. -/
def exampleAnswer (name : String) (w : DeclineWorld) : (c : Call) → LauncherSig.Reply c
  | .acquireRequestLock _ | .acquireThreadLock _ | .acquireLock _ => .ok true
  | .getRequest _ => match w.request with
      | some r => .ok r
      | none => .error .noNode
  | .getRegisteredPools => .ok (w.pools (.pool name))
  | .getProviderConfig => .ok (some ⟨"provider", ["label"]⟩)
  | .getPoolConfig => .ok (some ⟨name, ["label"], .int 1, []⟩)
  | .errorLabels => .ok []
  | .imagesAvailable | .hasProviderQuota _ | .hasRemainingQuota _ => .ok true
  | .time => .ok 0
  | .newNode _ => .ok (.own 0)
  | .readNode _ => .ok ⟨none, exampleNode, false, false, false⟩
  | .updateNode _ => .ok exampleNode
  | .setRequest _ _ | .releaseRequestLock _ | .log _ | .setNodeMetadata _ | .createNode _
  | .assignNode _ _ => .ok ()
  | _ => .error .other

def takeSchedule (name : String) (decline : Bool) (replies : Nat) :
    List (System.Action (declineSystem HandlerSystem.exampleRequest.id)) :=
  .start (.pool name) (.take HandlerSystem.exampleRequest decline) ::
    List.replicate replies (.respond (.pool name) (exampleAnswer name) 0)

/-! ### What holds of every run -/

/-- **Declining is never undone.** In every run, whatever is stored of a request later extends what
was stored before: pools are only added to `declined_by`, each at most once. -/
theorem declined_grows (hinit : Initial requestId init)
    (before : (declineSystem requestId).Run (declineSystem requestId).always init mid)
    (after : (declineSystem requestId).Run (declineSystem requestId).always mid cfg)
    {r r' : NodeRequest} (stored : mid.world.request = some r)
    (later : cfg.world.request = some r') :
    Extends r r' ∧ r'.declinedBy.Nodup := by
  have safe := declines.sound hinit.safe (before.trans after)
  refine ⟨?_, safe.inv.nodup r' later⟩
  have safeMid := declines.sound hinit.safe before
  clear before safe
  induction after generalizing r' with
  | refl =>
      obtain rfl := Option.some.inj (stored.symm.trans later)
      exact .refl r
  | tail prefix_ ok step ih =>
      have safe := declines.sound safeMid prefix_
      rcases (step_request safe step).2 with same | gone | ⟨-, i, r₁, data, hr₁, hdata, permitted⟩
      · exact ih (same.symm.trans later)
      · cases gone.symm.trans later
      · obtain rfl := Option.some.inj (hdata.symm.trans later)
        exact (ih hr₁).trans permitted.extends

/-- The pool "a" declines, then the pool "b". -/
theorem declined_grows_example : ∃ r r' : NodeRequest, Extends r r' ∧ r'.declinedBy.Nodup ∧
    r.declinedBy = ["a"] ∧ r'.declinedBy = ["a", "b"] := by
  have hexec : ∃ mid cfg r r',
      System.exec (fun _ _ => true) exampleInit (takeSchedule "a" true 6) = some mid ∧
      System.exec (fun _ _ => true) mid (takeSchedule "b" true 6) = some cfg ∧
      mid.world.request = some r ∧ cfg.world.request = some r' ∧ r.declinedBy = ["a"] ∧
      r'.declinedBy = ["a", "b"] :=
    ⟨_, _, _, _, rfl, rfl, rfl, rfl, rfl, rfl⟩
  obtain ⟨mid, cfg, r, r', hmid, hcfg, stored, later, one, both⟩ := hexec
  have before := System.exec_run (declineSystem _).always (fun _ _ _ => trivial) hmid
  have after := System.exec_run (declineSystem _).always (fun _ _ _ => trivial) hcfg
  have grows := declined_grows exampleInit_initial before after stored later
  exact ⟨r, r', grows.1, grows.2, one, both⟩

/-- **Deciding.** A pool stores the request only with its lock held, and adds at most itself to
`declined_by`. If it has added itself, the request becomes FAILED when every pool that was
registered when it asked has declined, and REQUESTED otherwise; it stores PENDING or FULFILLED
only if it has not declined. -/
theorem store_decides (hinit : Initial requestId init)
    (run : (declineSystem requestId).Run (declineSystem requestId).always init cfg) {name : String}
    {data : NodeRequest} {k} (next : cfg.thread (.pool name) = .call (.setRequest requestId data) k)
    {r : NodeRequest} (stored : cfg.world.request = some r) :
    cfg.world.holder = some (.pool name) ∧ Follows name r data ∧
      Decided name (cfg.world.asked (.pool name)) data := by
  obtain ⟨holder, -, permitted⟩ := (declines.sound hinit.safe run).req next rfl
  exact ⟨holder, permitted r stored⟩

/-- The pool "b" is the last to decline. -/
theorem store_decides_example : ∃ (w : DeclineWorld) (r data : NodeRequest),
    w.holder = some (.pool "b") ∧ Follows "b" r data ∧ Decided "b" (w.asked (.pool "b")) data ∧
      data.state = .failed := by
  have hexec : ∃ cfg r data k,
      System.exec (fun _ _ => true) exampleInit
        (takeSchedule "a" true 6 ++ takeSchedule "b" true 4) = some cfg ∧
      cfg.thread (.pool "b") = .call (.setRequest HandlerSystem.exampleRequest.id data) k ∧
      cfg.world.request = some r ∧ data.state = .failed :=
    ⟨_, _, _, _, rfl, rfl, rfl, rfl⟩
  obtain ⟨cfg, r, data, k, hcfg, next, stored, failed⟩ := hexec
  have run := System.exec_run (declineSystem _).always (fun _ _ _ => trivial) hcfg
  obtain ⟨holder, follows, decided⟩ := store_decides exampleInit_initial run next stored
  exact ⟨cfg.world, r, data, holder, follows, decided, failed⟩

/-- **Launching.** A pool launches nodes only while it holds the lock of a request that is not
finished and that it has not declined. -/
theorem launch_undeclined (hinit : Initial requestId init)
    (run : (declineSystem requestId).Run (declineSystem requestId).always init cfg) {name : String}
    {o : NodeRef} {k} (next : cfg.thread (.pool name) = .call (.launch o) k) :
    cfg.world.holder = some (.pool name) ∧ cfg.world.closed = false ∧
      ∀ r, cfg.world.request = some r → name ∉ r.declinedBy := by
  obtain ⟨holder, isOpen, undeclined⟩ := (declines.sound hinit.safe run).req next
  exact ⟨holder, isOpen, undeclined name rfl⟩

theorem launch_undeclined_example : ∃ (w : DeclineWorld) (r : NodeRequest),
    w.request = some r ∧ w.holder = some (.pool "a") ∧ w.closed = false ∧
      ∀ r, w.request = some r → "a" ∉ r.declinedBy := by
  have hexec : ∃ cfg r o k,
      System.exec (fun _ _ => true) exampleInit (takeSchedule "a" false 24) = some cfg ∧
      cfg.thread (.pool "a") = .call (.launch o) k ∧ cfg.world.request = some r :=
    ⟨_, _, _, _, rfl, rfl, rfl⟩
  obtain ⟨cfg, r, o, k, hcfg, next, stored⟩ := hexec
  have run := System.exec_run (declineSystem _).always (fun _ _ _ => trivial) hcfg
  exact ⟨cfg.world, r, stored, launch_undeclined exampleInit_initial run next⟩

/-- **The end is final.** A request that is FAILED or FULFILLED and not locked stays as it is until
it is deleted, whatever pools and cleanup workers do. -/
theorem final_stays (hinit : Initial requestId init)
    (before : (declineSystem requestId).Run (declineSystem requestId).always init mid)
    {r : NodeRequest} (stored : mid.world.request = some r)
    (final : r.state = .failed ∨ r.state = .fulfilled) (unlocked : mid.world.holder = none)
    (after : (declineSystem requestId).Run (declineSystem requestId).always mid cfg) :
    cfg.world.request = some r ∨ cfg.world.request = none := by
  have safe := declines.sound hinit.safe before
  have closed := safe.inv.closed r stored (decide_eq_true final) unlocked
  have key : cfg.world.closed = true ∧ (cfg.world.request = some r ∨ cfg.world.request = none) := by
    clear before unlocked
    induction after with
    | refl => exact ⟨closed, .inl stored⟩
    | tail prefix_ ok step ih =>
        obtain ⟨closed', request⟩ := ih
        have := step_request (declines.sound safe prefix_) step
        refine ⟨this.1 closed', ?_⟩
        rcases this.2 with same | gone | ⟨isOpen, -⟩
        · rwa [same]
        · exact .inr gone
        · cases isOpen.symm.trans closed'
  exact key.2

/-- The pool "a" looks at the request once more, after both have declined. -/
theorem final_stays_example : ∃ (r : NodeRequest) (w : DeclineWorld), r.state = .failed ∧
    (w.request = some r ∨ w.request = none) := by
  have hexec : ∃ mid cfg r,
      System.exec (fun _ _ => true) exampleInit
        (takeSchedule "a" true 6 ++ takeSchedule "b" true 6) = some mid ∧
      System.exec (fun _ _ => true) mid (takeSchedule "a" false 3) = some cfg ∧
      mid.world.request = some r ∧ r.state = .failed ∧ mid.world.holder = none :=
    ⟨_, _, _, rfl, rfl, rfl, rfl, rfl⟩
  obtain ⟨mid, cfg, r, hmid, hcfg, stored, failed, unlocked⟩ := hexec
  have before := System.exec_run (declineSystem _).always (fun _ _ _ => trivial) hmid
  have after := System.exec_run (declineSystem _).always (fun _ _ _ => trivial) hcfg
  exact ⟨r, cfg.world, failed,
    final_stays exampleInit_initial before stored (.inl failed) unlocked after⟩

end DeclineSystem

end Nodepool
