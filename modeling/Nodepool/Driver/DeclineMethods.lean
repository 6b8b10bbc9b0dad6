import Nodepool.Driver.DeclineSystem

/-!
What the methods that handle a request do to it, in any company of pools and cleanup workers.

Whoever stores the request holds its lock and has read it since, so that what it stores follows
what is stored: `req` is what each party respects, and `Rely` what it gets in return. Each method
of a handler has one lemma, from the store of a request up to `run`, `poll` and the part of the
pool worker that takes the request; the cleanup worker comes last.
-/

namespace Nodepool

open Effect Method NodeRequestHandler

namespace DeclineSystem

/-! ### What is kept -/

/-- What the pool stores follows what is stored: it may have declined the request. -/
structure Follows (name : String) (r data : NodeRequest) : Prop where
  same : { data with state := r.state, declinedBy := r.declinedBy, nodes := r.nodes } = r
  declinedBy : data.declinedBy = r.declinedBy ∨
    name ∉ r.declinedBy ∧ data.declinedBy = r.declinedBy ++ [name]

/-- The pool has decided about the request, knowing some registered pools. -/
def Decided (name : String) (asked : List PoolComponent) (data : NodeRequest) : Prop :=
  match data.state with
  | .pending => name ∉ data.declinedBy
  | .fulfilled => name ∉ data.declinedBy
  | .failed => name ∈ data.declinedBy ∧ asked.map (·.id) ⊆ data.declinedBy
  | .requested => name ∈ data.declinedBy ∧ ¬ asked.map (·.id) ⊆ data.declinedBy

/-- What a party may store. -/
def Permitted (w : DeclineWorld) (r data : NodeRequest) : Party → Prop
  | .pool name => Follows name r data ∧ Decided name (w.asked (.pool name)) data
  | .cleanup _ => r.state = .pending ∧ data = { r with state := .requested, nodes := [] }

variable {requestId : String}

/-- What a party respects. -/
def req (requestId : String) (i : Party) (w : DeclineWorld) : Call → Prop
  | .setRequest id data => id = requestId → w.holder = some i ∧ w.closed = false ∧
      ∀ r, w.request = some r → Permitted w r data i
  | .releaseRequestLock id => id = requestId → w.holder = some i
  | .launch _ => w.holder = some i ∧ w.closed = false ∧
      ∀ name, i = .pool name → ∀ r, w.request = some r → name ∉ r.declinedBy
  | _ => True

structure Inv (requestId : String) (w : DeclineWorld) : Prop where
  id : ∀ r, w.request = some r → r.id = requestId
  nodup : ∀ r, w.request = some r → r.declinedBy.Nodup
  final : w.closed = true → ∀ r, w.request = some r → r.isFinal = true
  closed : ∀ r, w.request = some r → r.isFinal = true → w.holder = none → w.closed = true

/-- What a party relies on: nobody else stores the request while it holds the lock. -/
structure Rely (j : Party) (w w' : DeclineWorld) : Prop where
  held : w.holder = some j → w'.holder = some j ∧ w'.closed = w.closed ∧
    (w'.request = w.request ∨ w'.request = none)
  asked : w'.asked j = w.asked j

/-- The party holds the lock, and its object follows what is stored. -/
structure Mine (name : String) (data : NodeRequest) (w : DeclineWorld) : Prop where
  holder : w.holder = some (.pool name)
  isOpen : w.closed = false
  follows : ∀ r, w.request = some r → Follows name r data

/-- What is known of a handler while its pool worker does something else. -/
structure Holds (requestId name : String) (s : Handler Unit) (w : DeclineWorld) : Prop where
  launcherId : s.launcherId = name
  done : s.done = true → s.paused = false
  id : s.done = false → s.request.id = requestId
  mine : s.done = false → Mine name s.request w
  undecided : s.done = false → name ∉ s.request.declinedBy →
    s.request.state = .pending ∨ s.request.state = .fulfilled
  declined : s.done = false → name ∈ s.request.declinedBy →
    s.failedNodes ≠ [] ∧ s.paused = false

theorem Rely.refl (j : Party) (w : DeclineWorld) : Rely j w w where
  held held := ⟨held, rfl, .inl rfl⟩
  asked := rfl

theorem Rely.trans {j : Party} {a b c : DeclineWorld} (h : Rely j a b) (h' : Rely j b c) :
    Rely j a c where
  held held := by
    obtain ⟨held', closed, request⟩ := h.held held
    obtain ⟨held'', closed', request'⟩ := h'.held held'
    refine ⟨held'', closed'.trans closed, ?_⟩
    rcases request' with same | gone
    · exact request.imp same.trans same.trans
    · exact .inr gone
  asked := h'.asked.trans h.asked

theorem Follows.refl (name : String) (data : NodeRequest) : Follows name data data :=
  ⟨rfl, .inl rfl⟩

theorem Mine.rely {name : String} {data : NodeRequest} {w w' : DeclineWorld}
    (mine : Mine name data w) (rely : Rely (.pool name) w w') : Mine name data w' := by
  obtain ⟨holder, closed, request⟩ := rely.held mine.holder
  refine ⟨holder, closed.trans mine.isOpen, fun r stored => ?_⟩
  rcases request with same | gone
  · exact mine.follows r (same.symm.trans stored)
  · cases gone.symm.trans stored

/-- The pool has declined the request, or is not in the list that is stored. -/
theorem Mine.notMem {name : String} {data : NodeRequest} {w : DeclineWorld}
    (mine : Mine name data w) (fresh : name ∉ data.declinedBy) {r : NodeRequest}
    (stored : w.request = some r) : name ∉ r.declinedBy := by
  rcases (mine.follows r stored).declinedBy with same | ⟨notMem, -⟩
  · exact same ▸ fresh
  · exact notMem

/-! ### Calls -/

/-- How a party sees the world. -/
abbrev ctx (requestId : String) (i : Party) : Context LauncherSig DeclineWorld :=
  (declineSystem requestId).context (declineSystem requestId).always (Inv requestId) (Rely i)
    (req requestId i) i

/-- The calls that neither store the request nor take or release its lock, nor launch a node, nor
ask which pools are registered. -/
def Aside : Call → Prop
  | .setRequest _ _ | .releaseRequestLock _ | .acquireRequestLock _ | .launch _
  | .getRegisteredPools => False
  | _ => True

theorem Aside.of_onNodes {c : Call} (h : c.onNodes) : Aside c := by
  cases c <;> trivial

variable {i j : Party} {w w' : DeclineWorld} {c : Call} {r : LauncherSig.Reply c}

/-- What the calls of a party can do to the world. -/
theorem next_cases (mem : w' ∈ w.next requestId i c r) :
    w' = w ∨
    (∃ stored data, c = .setRequest requestId data ∧ w.request = some stored ∧
      w' = { w with request := some data }) ∨
    (c = .acquireRequestLock requestId ∧ w.holder = none ∧ w' = { w with holder := some i }) ∨
    (c = .releaseRequestLock requestId ∧
      w' = { w with holder := none, closed := w.closed || w.request.any (·.isFinal) }) ∨
    ∃ pools, c = .getRegisteredPools ∧
      w' = { w with asked := Function.update w.asked i pools } := by
  unfold DeclineWorld.next at mem
  split at mem
  · exact .inl (by split_ifs at mem <;> simp_all)
  · exact .inl (by split_ifs at mem <;> simp_all)
  · split_ifs at mem with other gone
    · exact .inl (List.mem_singleton.mp mem)
    · cases mem
    · obtain rfl := not_not.mp other
      obtain ⟨stored, hstored⟩ := Option.ne_none_iff_exists'.mp gone
      exact .inr (.inl ⟨stored, _, rfl, hstored, List.mem_singleton.mp mem⟩)
  · split_ifs at mem with other
    · exact .inl (List.mem_singleton.mp mem)
    · rcases List.mem_pair.mp mem with same | set
      · exact .inl same
      · obtain ⟨same, gone⟩ := not_or.mp other
        obtain rfl := not_not.mp same
        obtain ⟨stored, hstored⟩ := Option.ne_none_iff_exists'.mp gone
        exact .inr (.inl ⟨stored, _, rfl, hstored, set⟩)
  · split_ifs at mem with this free
    · obtain ⟨-, rfl⟩ := this
      exact .inr (.inr (.inl ⟨rfl, free, List.mem_singleton.mp mem⟩))
    · cases mem
    · exact .inl (List.mem_singleton.mp mem)
  · split_ifs at mem with this
    · subst this
      exact .inr (.inr (.inr (.inl ⟨rfl, List.mem_singleton.mp mem⟩)))
    · exact .inl (List.mem_singleton.mp mem)
  · exact .inl (of_mem_ite_not mem).2
  · split_ifs at mem
    · exact .inr (.inr (.inr (.inr ⟨_, rfl, List.mem_singleton.mp mem⟩)))
    · cases mem
  all_goals first
    | exact .inl (List.mem_singleton.mp mem)
    | exact absurd mem List.not_mem_nil

theorem next_aside (aside : Aside c) (mem : w' ∈ w.next requestId i c r) : w' = w := by
  rcases next_cases mem with same | ⟨_, _, rfl, -⟩ | ⟨rfl, -⟩ | ⟨rfl, -⟩ | ⟨_, rfl, -⟩
  · exact same
  all_goals exact aside.elim

/-- A party that makes a call it may make leaves the invariant and the others in peace. -/
theorem call_inv (inv : Inv requestId w) (hreq : req requestId i w c)
    (mem : w' ∈ w.next requestId i c r) : Inv requestId w' := by
  rcases next_cases mem with rfl | ⟨stored, data, rfl, hstored, rfl⟩ | ⟨rfl, free, rfl⟩ |
    ⟨rfl, rfl⟩ | ⟨pools, rfl, rfl⟩
  · exact inv
  · obtain ⟨holder, isOpen, permitted⟩ := hreq rfl
    have permitted := permitted stored hstored
    have nodup := inv.nodup stored hstored
    refine ⟨?_, ?_, fun closed => ?_, fun _ _ _ free => ?_⟩
    · intro r hr
      obtain rfl : data = r := Option.some.inj hr
      rw [← inv.id stored hstored]
      cases i with
      | pool name => exact (congrArg NodeRequest.id permitted.1.same :)
      | cleanup _ => rw [permitted.2]
    · intro r hr
      obtain rfl : data = r := Option.some.inj hr
      cases i with
      | pool name =>
          rcases permitted.1.declinedBy with same | ⟨fresh, added⟩
          · rwa [same]
          · rw [added, ← List.concat_eq_append]
            exact nodup.concat fresh
      | cleanup _ => rwa [permitted.2]
    · cases isOpen.symm.trans closed
    · cases holder.symm.trans free
  · exact ⟨inv.id, inv.nodup, inv.final, fun _ _ _ held => nomatch held⟩
  · refine ⟨inv.id, inv.nodup, fun closed r stored => ?_, fun r stored final _ => ?_⟩
    · rcases Bool.or_eq_true _ _ ▸ closed with before | now
      · exact inv.final before r stored
      · rw [stored] at now
        exact now
    · have : w.request.any (·.isFinal) = true := by
        rw [stored]
        exact final
      simp [this]
  · exact ⟨inv.id, inv.nodup, inv.final, inv.closed⟩

theorem call_rely (ne : i ≠ j) (hreq : req requestId i w c)
    (mem : w' ∈ w.next requestId i c r) : Rely j w w' := by
  rcases next_cases mem with rfl | ⟨stored, data, rfl, hstored, rfl⟩ | ⟨rfl, free, rfl⟩ |
    ⟨rfl, rfl⟩ | ⟨pools, rfl, rfl⟩
  · exact .refl j _
  · refine ⟨fun held => ?_, rfl⟩
    exact absurd (Option.some.inj ((hreq rfl).1.symm.trans held)) ne
  · refine ⟨fun held => ?_, rfl⟩
    cases free.symm.trans held
  · refine ⟨fun held => ?_, rfl⟩
    exact absurd (Option.some.inj ((hreq rfl).symm.trans held)) ne
  · exact ⟨fun held => ⟨held, rfl, .inl rfl⟩, Function.update_of_ne ne.symm _ _⟩

theorem env_inv (inv : Inv requestId w) (h : DeclineWorld.Env w w') : Inv requestId w' := by
  have stored : ∀ r, w'.request = some r → w.request = some r := fun r hr => by
    rcases h.request with same | gone
    · exact same.symm.trans hr
    · cases gone.symm.trans hr
  refine ⟨fun r hr => inv.id r (stored r hr), fun r hr => inv.nodup r (stored r hr),
    fun closed r hr => inv.final (h.closed ▸ closed) r (stored r hr), fun r hr final free => ?_⟩
  exact h.closed.trans (inv.closed r (stored r hr) final (h.holder.symm.trans free))

theorem env_rely (h : DeclineWorld.Env w w') : Rely j w w' where
  held held := ⟨h.holder.trans held, h.closed, h.request⟩
  asked := congrFun h.asked j

/-- What the party can rely on is kept by the calls aside. -/
theorem stable_aside {B : DeclineWorld → Prop} (rely : ∀ {w w'}, B w → Rely i w w' → B w') :
    Stable (ctx requestId i) Aside B where
  rely h hr _ := rely h hr
  req {c _} hc _ _ := by cases c <;> trivial
  step hc h _ hs _ := by
    rw [next_aside hc hs.1]
    exact h

/-! ### Methods of a handler -/

/-- A party that holds the lock of the request. -/
def HasLock (i : Party) (w : DeclineWorld) : Prop := w.holder = some i

theorem HasLock.rely {w w' : DeclineWorld} (h : HasLock i w) (rely : Rely i w w') :
    HasLock i w' :=
  (rely.held h).1

/-- The handler's object is what it may store. -/
structure Ready (name : String) (data : NodeRequest) (w : DeclineWorld) : Prop
    extends Mine name data w where
  decided : Decided name (w.asked (.pool name)) data

theorem Ready.rely {name : String} {data : NodeRequest} {w w' : DeclineWorld}
    (ready : Ready name data w) (rely : Rely (.pool name) w w') : Ready name data w' where
  toMine := ready.toMine.rely rely
  decided := rely.asked ▸ ready.decided

variable {name : String} {s : Handler Unit} {B : DeclineWorld → Prop}

/-- Calls that do not raise. -/
def InMemory : Call → Prop
  | .readNode _ | .assignNode _ _ | .log _ => True
  | _ => False

theorem inMemory_wp {σ : Type} {s : σ} (stable : ∀ {w w'}, B w → Rely i w w' → B w')
    (hc : InMemory c) (hB : B w) :
    (call c : LauncherM σ c.Val).wp (ctx requestId i) (fun _ s' w' => s' = s ∧ B w')
      (fun _ _ _ => False) s w := by
  have aside : Aside c := by cases c <;> trivial
  have stable' : Stable (ctx requestId i) Aside B := stable_aside stable
  refine wp_call (P := B) (fun h hr _ => stable h hr) hB (fun _ h hi => stable'.req aside h hi) ?_
    ?_
  · exact fun _ _ _ h hi hs hi' => ⟨rfl, stable'.step aside h hi hs hi'⟩
  · rintro e w₁ w₂ _ _ ⟨mem, -⟩ _
    cases c <;> first | exact absurd mem List.not_mem_nil | exact hc.elim

/-- What `unlockNodeSet` does to the node set is its own affair. -/
theorem unlockNodeSet_wp (clear : Bool) (stable : ∀ {w w'}, B w → Rely i w w' → B w') (hB : B w) :
    (unlockNodeSet clear).wp (ctx requestId i) (fun _ s' w' => s' = { s with nodeset := [] } ∧ B w')
      (fun _ _ _ => False) s w := by
  have onNodes {m : HandlerM Unit Unit} {message : String} {s : Handler Unit} {w : DeclineWorld}
      (within : Within Call.onNodes id m) (hB : B w) :
      (tryCatch m fun _ => call (.log message)).wp (ctx requestId i)
        (fun _ s' w' => s' = s ∧ B w') (fun _ _ _ => False) s w := by
    rw [wp_tryCatch]
    refine wp_mono ((within.mono fun _ => Aside.of_onNodes).wp (stable_aside stable) hB)
      (fun _ _ _ h => h) ?_
    rintro _ s₁ w₁ ⟨same, hB₁⟩
    obtain rfl : s₁ = s := same
    exact inMemory_wp stable trivial hB₁
  have round (o : NodeRef) (s : Handler Unit) (w : DeclineWorld) (hB : B w) :
      (unlockNodeOfSet clear o).wp (ctx requestId i) (fun _ s' w' => s' = s ∧ B w')
        (fun _ _ _ => False) s w := by
    rw [unlockNodeOfSet, wp_bind]
    refine wp_mono (inMemory_wp stable trivial hB) ?_ fun _ _ _ h => h
    rintro object s₁ w₁ ⟨rfl, hB₁⟩
    split
    · rw [wp_bind]
      refine wp_mono (Q := fun _ s' w' => s' = s₁ ∧ B w') ?_ ?_ fun _ _ _ h => h
      · unfold Nodepool.when
        split
        · rw [clearNodeAllocation, wp_bind]
          refine wp_mono (inMemory_wp stable trivial hB₁) ?_ fun _ _ _ h => h
          rintro _ _ w₂ ⟨rfl, hB₂⟩
          exact onNodes (ZooKeeper.storeNode_within o) hB₂
        · exact ⟨rfl, hB₁⟩
      · rintro _ _ w₂ ⟨rfl, hB₂⟩
        exact onNodes (ZooKeeper.unlockNode_within o) hB₂
    · exact ⟨rfl, hB₁⟩
  rw [unlockNodeSet, wp_bind, wp_self, wp_bind]
  refine wp_mono (wp_forEach (J := fun s' w' => s' = s ∧ B w') ?_ ⟨rfl, hB⟩) ?_ fun _ _ _ h => h
  · rintro o _ w₁ ⟨rfl, hB₁⟩
    exact round o _ w₁ hB₁
  · rintro _ _ w₁ ⟨rfl, hB₁⟩
    exact ⟨rfl, hB₁⟩

theorem getNodeRequest_wp (id : String) (stable : ∀ {w w'}, B w → Rely i w w' → B w') (hB : B w) :
    (ZooKeeper.getNodeRequest id).wp (ctx requestId i) (fun _ s' w' => s' = s ∧ B w')
      (fun _ s' w' => s' = s ∧ B w') s w := by
  have within : Within Aside (fun h => h) (ZooKeeper.getNodeRequest id : HandlerM Unit _) :=
    ZooKeeper.getNodeRequest_within trivial
  exact within.wp (stable_aside stable) hB

theorem storeNodeRequest_wp (id : s.request.id = requestId) (ready : Ready name s.request w) :
    storeNodeRequest.wp (ctx requestId (.pool name))
      (fun _ s' w' => s' = s ∧ Mine name s.request w')
      (fun _ s' w' => s' = s ∧ Mine name s.request w') s w := by
  rw [storeNodeRequest, wp_bind, wp_self, wp_bind]
  refine wp_mono (getNodeRequest_wp _ Ready.rely ready) ?_ fun _ _ _ h => ⟨h.1, h.2.toMine⟩
  rintro stored s₁ w₁ ⟨rfl, ready₁⟩
  split
  · exact ⟨rfl, ready₁.toMine⟩
  · have stored (r : LauncherSig.Reply (.setRequest s₁.request.id s₁.request))
        {w₂ w₃ : DeclineWorld} (ready₂ : Ready name s₁.request w₂)
        (mem : w₃ ∈ w₂.next requestId (.pool name) (.setRequest s₁.request.id s₁.request) r) :
        Mine name s₁.request w₃ := by
      rcases next_cases mem with rfl | ⟨_, data, hc, -, rfl⟩ | ⟨hc, -⟩ | ⟨hc, -⟩ | ⟨_, hc, -⟩
      · exact ready₂.toMine
      · obtain ⟨-, rfl⟩ : s₁.request.id = requestId ∧ s₁.request = data := by simpa using hc
        refine ⟨ready₂.holder, ready₂.isOpen, fun r hr => ?_⟩
        obtain rfl : s₁.request = r := Option.some.inj hr
        exact .refl name _
      all_goals cases hc
    refine wp_call (P := Ready name s₁.request) (fun h hr _ => h.rely hr) ready₁ ?_ ?_ ?_
    · exact fun w₂ ready₂ _ _ => ⟨ready₂.holder, ready₂.isOpen,
        fun r hr => ⟨ready₂.follows r hr, ready₂.decided⟩⟩
    · exact fun v _ _ ready₂ _ hs _ => ⟨rfl, stored (.ok v) ready₂ hs.1⟩
    · exact fun e _ _ ready₂ _ hs _ => ⟨rfl, stored (.error e) ready₂ hs.1⟩

/-- If the lock is not released, it is still held. -/
theorem unlockNodeRequest_wp (stable : ∀ {w w'}, B w → Rely i w w' → B w')
    (held : ∀ w, B w → HasLock i w) (hB : B w) :
    unlockNodeRequest.wp (ctx requestId i)
      (fun _ s' _ => s' = { s with requestLock := false, requestThreadLock := false })
      (fun _ s' w' => s' = s ∧ B w') s w := by
  rw [unlockNodeRequest, wp_bind, wp_self, wp_bind, raiseUnless]
  split
  · rw [wp_pure, wp_bind]
    refine wp_call (P := B) (fun h hr _ => stable h hr) hB (fun w₁ h _ _ => held w₁ h) ?_ ?_
    · exact fun _ _ _ _ _ _ _ => rfl
    · rintro e w₁ w₂ h _ ⟨mem, -⟩ _
      obtain ⟨-, rfl⟩ : e ≠ .zkLock ∧ w₂ = w₁ := of_mem_ite_not mem
      exact ⟨rfl, h⟩
  · exact ⟨rfl, hB⟩

/-- The pool adds itself, and decides with the pools that are registered then. -/
theorem declineLocally_wp (launcherId : s.launcherId = name) (mine : Mine name s.request w) :
    declineLocally.wp (ctx requestId (.pool name))
      (fun _ s' w' => { s' with request := s.request } = s ∧ s'.request.id = s.request.id ∧
        name ∈ s'.request.declinedBy ∧ Ready name s'.request w')
      (fun _ _ _ => False) s w := by
  have added : Mine name s.addDeclinedBy.request w := by
    refine ⟨mine.holder, mine.isOpen, fun r stored => ?_⟩
    have follows := mine.follows r stored
    unfold Handler.addDeclinedBy
    split
    · exact follows
    · rename_i fresh
      rw [launcherId] at fresh ⊢
      refine ⟨follows.same, .inr ?_⟩
      rcases follows.declinedBy with same | ⟨-, same⟩
      · rw [← same]
        exact ⟨fresh, rfl⟩
      · rw [same] at fresh
        exact absurd (List.mem_append_right _ List.mem_cons_self) fresh
  have listed : name ∈ s.addDeclinedBy.request.declinedBy := by
    unfold Handler.addDeclinedBy
    split
    · rwa [← launcherId]
    · rw [← launcherId]
      exact List.mem_append_right _ List.mem_cons_self
  have rest : { s.addDeclinedBy with request := s.request } = s ∧
      s.addDeclinedBy.request.id = s.request.id := by
    unfold Handler.addDeclinedBy
    split <;> exact ⟨rfl, rfl⟩
  have state (state : RequestState) {w : DeclineWorld}
      (mine : Mine name s.addDeclinedBy.request w)
      (decided : Decided name (w.asked (.pool name)) (s.addDeclinedBy.setState state).request) :
      { s.addDeclinedBy.setState state with request := s.request } = s ∧
        (s.addDeclinedBy.setState state).request.id = s.request.id ∧
        name ∈ (s.addDeclinedBy.setState state).request.declinedBy ∧
        Ready name (s.addDeclinedBy.setState state).request w :=
    ⟨rest.1, rest.2, listed, ⟨mine.holder, mine.isOpen, fun r stored =>
      ⟨(mine.follows r stored).same, (mine.follows r stored).declinedBy⟩⟩, decided⟩
  rw [declineLocally, wp_bind, wp_assign, wp_bind]
  refine wp_call (P := Mine name s.addDeclinedBy.request) (fun h hr _ => h.rely hr) added
    (fun _ _ _ => trivial) ?_ ?_
  · rintro pools w₁ w₂ mine₁ _ ⟨mem, -⟩ _
    obtain ⟨registered, mem⟩ := List.mem_ite_nil_right.mp mem
    obtain rfl := List.mem_singleton.mp mem
    rw [wp_bind, wp_self]
    split
    · rename_i all
      refine state .failed ⟨mine₁.holder, mine₁.isOpen, mine₁.follows⟩ ⟨listed, ?_⟩
      simpa [Handler.setState] using all
    · rename_i some
      refine state .requested ⟨mine₁.holder, mine₁.isOpen, mine₁.follows⟩ ⟨listed, ?_⟩
      simpa [Handler.setState] using some
  · rintro _ w₁ w₂ _ _ ⟨mem, -⟩ _
    exact absurd mem List.not_mem_nil

/-- A handler that gives the request back is done, whether the request can be stored or not. -/
theorem declinedHandlerCleanup_wp (id : s.request.id = requestId) (ready : Ready name s.request w) :
    declinedHandlerCleanup.wp (ctx requestId (.pool name))
      (fun _ s' _ => s'.launcherId = s.launcherId ∧ s'.done = true ∧ s'.paused = false)
      (fun _ _ _ => False) s w := by
  have ended (s₁ : Handler Unit) (w₁ : DeclineWorld)
      (h : s₁.launcherId = s.launcherId ∧ s₁.paused = false) :
      (call (.log "Unable to modify missing request")).wp (ctx requestId (.pool name))
        (fun _ s' _ => s'.launcherId = s.launcherId ∧ s'.paused = false) (fun _ _ _ => False)
        s₁ w₁ := by
    refine wp_mono (inMemory_wp (B := fun _ => True) (fun _ _ => trivial) trivial trivial) ?_
      fun _ _ _ h => h
    rintro _ _ _ ⟨rfl, -⟩
    exact h
  rw [declinedHandlerCleanup, wp_bind]
  refine wp_mono (unlockNodeSet_wp true Ready.rely ready) ?_ fun _ _ _ h => h
  rintro _ _ w₁ ⟨rfl, ready₁⟩
  rw [wp_bind, wp_assign, wp_bind, wp_tryCatch, wp_bind]
  refine wp_mono (storeNodeRequest_wp id ready₁) ?_ ?_
  · rintro _ s₂ w₂ ⟨rfl, mine⟩
    refine wp_mono (unlockNodeRequest_wp Mine.rely (fun _ h => h.holder) mine) ?_ ?_
    · rintro _ _ _ rfl
      exact ⟨rfl, rfl, rfl⟩
    · rintro _ s₃ w₃ ⟨rfl, -⟩
      refine wp_mono (ended _ w₃ ⟨rfl, rfl⟩) (fun _ _ _ h => ?_) fun _ _ _ h => h
      exact ⟨h.1, rfl, h.2⟩
  · rintro _ s₂ w₂ ⟨rfl, -⟩
    refine wp_mono (ended _ w₂ ⟨rfl, rfl⟩) (fun _ _ _ h => ?_) fun _ _ _ h => h
    exact ⟨h.1, rfl, h.2⟩

theorem declineRequest_wp (launcherId : s.launcherId = name) (id : s.request.id = requestId)
    (mine : Mine name s.request w) :
    declineRequest.wp (ctx requestId (.pool name))
      (fun _ s' _ => s'.launcherId = name ∧ s'.done = true ∧ s'.paused = false)
      (fun _ _ _ => False) s w := by
  rw [declineRequest, wp_bind]
  refine wp_mono (declineLocally_wp launcherId mine) ?_ fun _ _ _ h => h
  rintro _ s₁ w₁ ⟨rest, same, -, ready⟩
  refine wp_mono (declinedHandlerCleanup_wp (same.trans id) ready) ?_ fun _ _ _ h => h
  rintro _ s₂ _ ⟨same, done, running⟩
  exact ⟨same.trans ((congrArg Handler.launcherId rest :).trans launcherId), done, running⟩

/-! ### Working on the request -/

/-- What working on a request leaves alone. -/
def part (h : Handler Unit) : NodeRequest × String × Bool := (h.request, h.launcherId, h.done)

/-- The pool works on the request, which it has not declined. -/
structure Working (requestId name : String) (s : Handler Unit) (w : DeclineWorld) : Prop where
  launcherId : s.launcherId = name
  id : s.request.id = requestId
  active : s.done = false
  mine : Mine name s.request w
  undeclined : name ∉ s.request.declinedBy

def Accepted (r : NodeRequest) : Prop := r.state = .pending ∨ r.state = .fulfilled

theorem Holds.of_done (launcherId : s.launcherId = name) (done : s.done = true)
    (running : s.paused = false) : Holds requestId name s w where
  launcherId := launcherId
  done _ := running
  id active := nomatch done.symm.trans active
  mine active := nomatch done.symm.trans active
  undecided active := nomatch done.symm.trans active
  declined active := nomatch done.symm.trans active

theorem Working.holds (h : Working requestId name s w) (accepted : Accepted s.request) :
    Holds requestId name s w where
  launcherId := h.launcherId
  done done := nomatch h.active.symm.trans done
  id _ := h.id
  mine _ := h.mine
  undecided _ _ := accepted
  declined _ declined := absurd declined h.undeclined

theorem Working.frame {s' : Handler Unit} {w' : DeclineWorld} (h : Working requestId name s w)
    (same : part s' = part s) (mine : Mine name s.request w') : Working requestId name s' w' := by
  obtain ⟨request, launcherId, done⟩ := Prod.mk.injEq .. ▸ Prod.mk.injEq .. ▸ same
  exact ⟨launcherId.trans h.launcherId, request ▸ h.id, done.trans h.active, request ▸ mine,
    request ▸ h.undeclined⟩

/-- While a pool works on a request only its own stores matter. -/
theorem stable_working {data : NodeRequest} (undeclined : name ∉ data.declinedBy) :
    Stable (ctx requestId (.pool name)) Call.keepsRequest (Mine name data) where
  rely h hr _ := h.rely hr
  req {c w} hc h _ := by
    cases c
    case launch o =>
      refine ⟨h.holder, h.isOpen, fun name' same r stored => ?_⟩
      obtain rfl : name = name' := Party.pool.inj same
      exact h.notMem undeclined stored
    all_goals trivial
  step {c r w w'} hc h _ hs _ := by
    rcases next_cases hs.1 with rfl | ⟨_, _, rfl, -⟩ | ⟨rfl, free, -⟩ | ⟨rfl, -⟩ | ⟨_, rfl, rfl⟩
    · exact h
    · exact hc.elim
    · cases free.symm.trans h.holder
    · exact hc.elim
    · exact ⟨h.holder, h.isOpen, h.follows⟩

/-- A method that works on the request. -/
theorem Working.wp {α : Type} {m : HandlerM Unit α} (within : Within Call.keepsRequest part m)
    (h : Working requestId name s w) {Q : α → Handler Unit → DeclineWorld → Prop}
    {E : Err → Handler Unit → DeclineWorld → Prop}
    (normal : ∀ a s' w', s'.request = s.request → Working requestId name s' w' → Q a s' w')
    (exceptional : ∀ e s' w', Working requestId name s' w' → E e s' w') :
    m.wp (ctx requestId (.pool name)) Q E s w := by
  refine wp_mono (within.wp (stable_working h.undeclined) h.mine) ?_ ?_
  · exact fun a s' w' h' => normal a s' w' (congrArg Prod.fst h'.1) (h.frame h'.1 h'.2)
  · exact fun e s' w' h' => exceptional e s' w' (h.frame h'.1 h'.2)

section Footprint

variable {P : Call → Prop} (hP : ∀ c, Call.onNodes c → P c) {D : Driver Unit} (hD : D.Within P part)
include hP hD

theorem useReadyNode_within (ntype : String) (o : NodeRef) :
    Within P part (useReadyNode D ntype o) :=
  .bind (.assign fun _ => rfl) fun _ => .bind .self fun _ =>
    .bind (.perform (hP _ trivial)) fun _ => .bind (.perform (hP _ trivial)) fun _ =>
    .bind (.perform (hP _ trivial)) fun _ =>
    .bind ((ZooKeeper.storeNode_within o).mono hP) fun _ => .bind (.perform (hP _ trivial)) fun _ =>
    .bind (.assign fun _ => rfl) fun _ => hD.nodeReusedNotification o

theorem tryReadyNode_within (ntype : String) (o : NodeRef) :
    Within P part (tryReadyNode D ntype o) := by
  refine .bind provider_within fun _ => .bind pool_within fun _ =>
    .bind (.perform (hP _ trivial)) fun _ => ?_
  refine .ite .pure (.ite .pure (.ite .pure ?_))
  refine .bind (hD.checkReusableNode o) fun _ => .ite ?_ .pure
  refine .bind (.attempt ((ZooKeeper.lockNode_within o).mono hP)) fun locked => ?_
  have unlock : Within P part (ZooKeeper.unlockNode o : HandlerM Unit Unit) :=
    (ZooKeeper.unlockNode_within o).mono hP
  split
  · exact .pure
  · exact .throw
  · refine .bind (.perform (hP _ trivial)) fun _ => .ite (.bind unlock fun _ => .pure) (.ite ?_ ?_)
    · exact .bind unlock fun _ => .pure
    · exact .bind (useReadyNode_within hP hD ntype o) fun _ => .pure

theorem grabReadyNode_within (ntype : String) (os : List NodeRef) :
    Within P part (grabReadyNode D ntype os) := by
  induction os with
  | nil => exact .pure
  | cons o os ih => exact .bind (tryReadyNode_within hP hD ntype o) fun _ => .ite .pure ih

theorem launchNewNode_within (ntype : String) (config : ∀ c, Call.consults c → P c) :
    Within P part (launchNewNode D ntype) := by
  have store (o : NodeRef) : Within P part (ZooKeeper.storeNode o : HandlerM Unit Unit) :=
    (ZooKeeper.storeNode_within o).mono hP
  refine .bind (.assign fun _ => rfl) fun _ => .bind provider_within fun _ =>
    .bind pool_within fun _ => .bind (.perform (config _ trivial)) fun _ => .bind .self fun _ =>
    .bind (.perform (hP _ trivial)) fun o => .bind (hD.setNodeMetadata o) fun _ => ?_
  exact .bind (store o) fun _ => .bind ((ZooKeeper.lockNode_within o).mono hP) fun _ =>
    .bind ((ZooKeeper.assignState_within o _).mono hP) fun _ =>
    .bind (store o) fun _ => .bind (.perform (hP _ trivial)) fun _ =>
    .bind (.assign fun _ => rfl) fun _ => hD.launch o

end Footprint

theorem external_within {γ : Type} {π : Handler Unit → γ} :
    Driver.external.Within Call.keepsRequest π :=
  Driver.external_within fun c h => by cases c <;> trivial

theorem atQuota_wp (h : Working requestId name s w) (accepted : Accepted s.request) :
    atQuota.wp (ctx requestId (.pool name)) (fun _ => Holds requestId name)
      (fun _ => Working requestId name) s w := by
  rw [atQuota, wp_bind, wp_self]
  split
  · exact wp_mono (declineRequest_wp h.launcherId h.id h.mine)
      (fun _ _ _ h => .of_done h.1 h.2.1 h.2.2) fun _ _ _ h => h.elim
  · rw [wp_bind]
    refine h.wp provider_within (fun provider s₁ w₁ same₁ h₁ => ?_) fun _ _ _ h => h
    rw [wp_bind]
    refine h₁.wp pool_within (fun pool s₂ w₂ same₂ h₂ => ?_) fun _ _ _ h => h
    rw [wp_bind]
    refine h₂.wp ((ZooKeeper.deleteOldestUnusedNode_within _ _).mono
      fun _ => Call.keepsRequest_of_onNodes) (fun _ s₃ w₃ same₃ h₃ => ?_) fun _ _ _ h => h
    rw [wp_bind]
    have pauses : Within Call.keepsRequest part (call .pauseAtQuota : HandlerM Unit Bool) :=
      .perform trivial
    refine h₃.wp pauses (fun pauseAtQuota s₄ w₄ same₄ h₄ => ?_) fun _ _ _ h => h
    have accepted₄ : Accepted s₄.request := by
      rwa [same₄, same₃, same₂, same₁]
    split
    · exact Working.holds ⟨h₄.launcherId, h₄.id, h₄.active, h₄.mine, h₄.undeclined⟩ accepted₄
    · have decided : Decided name (w₄.asked (.pool name)) s₄.request := by
        unfold Decided
        rcases accepted₄ with state | state <;> rw [state] <;> exact h₄.undeclined
      refine wp_mono (declinedHandlerCleanup_wp h₄.id ⟨h₄.mine, decided⟩) ?_ fun _ _ _ h => h.elim
      rintro _ _ _ ⟨launcherId, done, running⟩
      exact .of_done (launcherId.trans h₄.launcherId) done running

theorem fillNodeSet_wp (readyNodes : Dict String (List NodeRef)) (types : List String)
    (h : Working requestId name s w) (accepted : Accepted s.request) :
    (fillNodeSet Driver.external readyNodes types).wp (ctx requestId (.pool name))
      (fun _ => Holds requestId name) (fun _ => Working requestId name) s w := by
  have onNodes : ∀ c, Call.onNodes c → c.keepsRequest := fun _ => Call.keepsRequest_of_onNodes
  induction types generalizing s w with
  | nil => exact h.holds accepted
  | cons ntype types ih =>
      rw [fillNodeSet, wp_bind, wp_self, wp_bind]
      refine h.wp (grabReadyNode_within onNodes external_within ntype _)
        (fun got s₁ w₁ same₁ h₁ => ?_) fun _ _ _ h => h
      split
      · exact ih h₁ (same₁ ▸ accepted)
      · rw [wp_bind]
        refine h₁.wp (external_within.hasRemainingQuota ntype)
          (fun remaining s₂ w₂ same₂ h₂ => ?_) fun _ _ _ h => h
        split
        · rw [wp_bind]
          refine h₂.wp (launchNewNode_within onNodes external_within ntype
            fun _ => Call.keepsRequest_of_consults) (fun _ s₃ w₃ same₃ h₃ => ?_) fun _ _ _ h => h
          exact ih h₃ (by rwa [same₃, same₂, same₁])
        · exact atQuota_wp h₂ (by rwa [same₂, same₁])

theorem waitForNodeSet_wp (h : Working requestId name s w) (accepted : Accepted s.request) :
    (waitForNodeSet Driver.external).wp (ctx requestId (.pool name))
      (fun _ => Holds requestId name) (fun _ => Working requestId name) s w := by
  rw [waitForNodeSet, wp_bind, wp_self]
  split
  · rw [wp_bind]
    have looks (needed : List String) :
        Within Call.keepsRequest part (call (.getReadyNodesOfTypes needed) : HandlerM Unit _) :=
      .perform trivial
    refine h.wp (looks _) (fun readyNodes s₁ w₁ same h₁ => ?_) fun _ _ _ h => h
    exact fillNodeSet_wp readyNodes _ h₁ (same ▸ accepted)
  · exact fillNodeSet_wp ∅ _ h accepted

theorem acceptRequest_wp (h : Working requestId name s w) :
    acceptRequest.wp (ctx requestId (.pool name))
      (fun _ s' w' => Working requestId name s' w' ∧ Accepted s'.request)
      (fun _ => Working requestId name) s w := by
  rw [acceptRequest, wp_bind, wp_assign]
  have pending : Ready name (s.setState .pending).request w :=
    ⟨⟨h.mine.holder, h.mine.isOpen, fun r stored =>
      ⟨(h.mine.follows r stored).same, (h.mine.follows r stored).declinedBy⟩⟩, h.undeclined⟩
  have id : (s.setState .pending).request.id = requestId := h.id
  refine wp_mono (storeNodeRequest_wp id pending) ?_ ?_
  · rintro _ _ w₁ ⟨rfl, mine⟩
    exact ⟨⟨h.launcherId, h.id, h.active, mine, h.undeclined⟩, .inl rfl⟩
  · rintro _ _ w₁ ⟨rfl, mine⟩
    exact ⟨h.launcherId, h.id, h.active, mine, h.undeclined⟩

/-- A handler that is paused has accepted its request. -/
theorem runHandler_wp (h : Working requestId name s w)
    (paused : s.paused = true → Accepted s.request) :
    (runHandler Driver.external).wp (ctx requestId (.pool name)) (fun _ => Holds requestId name)
      (fun _ => Working requestId name) s w := by
  have consults : ∀ c, Call.consults c → c.keepsRequest := fun _ => Call.keepsRequest_of_consults
  -- what these methods leave alone includes `paused`
  have shared {α : Type} {m : HandlerM Unit α} (within : Within Call.keepsRequest shared m)
      {s : Handler Unit} {w : DeclineWorld} {Q : α → Handler Unit → DeclineWorld → Prop}
      (h : Working requestId name s w ∧ (s.paused = true → Accepted s.request))
      (normal : ∀ a s' w', Working requestId name s' w' ∧ (s'.paused = true → Accepted s'.request) →
        Q a s' w') :
      m.wp (ctx requestId (.pool name)) Q (fun _ => Working requestId name) s w := by
    refine wp_mono (within.wp (stable_working h.1.undeclined) h.1.mine) ?_ ?_
    · rintro a s' w' ⟨same, mine⟩
      have request : s'.request = s.request := (congrArg Handler.request same :)
      have paused : s'.paused = s.paused := (congrArg Handler.paused same :)
      refine normal a s' w' ⟨h.1.frame (congrArg part same :) mine, ?_⟩
      rw [request, paused]
      exact h.2
    · exact fun _ s' w' h' => h.1.frame (congrArg part h'.1 :) h'.2
  rw [runHandler, wp_bind]
  refine shared (setFromPoolWorker_within consults) ⟨h, paused⟩ fun _ s₁ w₁ h₁ => ?_
  rw [wp_bind]
  refine shared provider_within h₁ fun _ s₂ w₂ h₂ => ?_
  rw [wp_bind]
  refine shared pool_within h₂ fun _ s₃ w₃ h₃ => ?_
  rw [wp_bind]
  refine shared (getDeclinedReasons_within consults external_within) h₃ fun reasons s₄ w₄ h₄ => ?_
  split
  · exact wp_mono (declineRequest_wp h₄.1.launcherId h₄.1.id h₄.1.mine)
      (fun _ _ _ h => .of_done h.1 h.2.1 h.2.2) fun _ _ _ h => h.elim
  · rw [wp_bind, wp_self, wp_bind]
    refine wp_mono (m := when _ acceptRequest)
      (Q := fun _ s' w' => Working requestId name s' w' ∧ Accepted s'.request) ?_
      (fun _ _ _ h => waitForNodeSet_wp h.1 h.2) fun _ _ _ h => h
    unfold Nodepool.when
    split
    · exact acceptRequest_wp h₄.1
    · rename_i running
      exact ⟨h₄.1, h₄.2 (not_not.mp running)⟩

theorem run_wp (h : Working requestId name s w) (paused : s.paused = true → Accepted s.request) :
    (run Driver.external).wp (ctx requestId (.pool name)) (fun _ => Holds requestId name)
      (fun _ _ _ => False) s w := by
  rw [run, wp_tryCatch]
  refine wp_mono (runHandler_wp h paused) (fun _ _ _ h => h) fun _ s₁ w₁ h₁ => ?_
  rw [wp_bind]
  refine wp_mono (inMemory_wp Mine.rely trivial h₁.mine) ?_ fun _ _ _ h => h
  rintro _ s₂ w₂ ⟨rfl, mine⟩
  exact wp_mono (declineRequest_wp h₁.launcherId h₁.id mine)
    (fun _ _ _ h => .of_done h.1 h.2.1 h.2.2) fun _ _ _ h => h

/-! ### Polling -/

theorem Holds.rely {w w' : DeclineWorld} (h : Holds requestId name s w)
    (rely : Rely (.pool name) w w') : Holds requestId name s w' :=
  ⟨h.launcherId, h.done, h.id, fun active => (h.mine active).rely rely, h.undecided, h.declined⟩

/-- A handler whose nodes are looked at. -/
structure Polled (requestId name : String) (s : Handler Unit) (w : DeclineWorld) : Prop
    extends Holds requestId name s w where
  active : s.done = false
  running : s.paused = false

theorem Polled.rely {w w' : DeclineWorld} (h : Polled requestId name s w)
    (rely : Rely (.pool name) w w') : Polled requestId name s w' :=
  ⟨h.toHolds.rely rely, h.active, h.running⟩

/-- No node of the handler has failed yet, so that it has not declined the request. -/
structure Unfailed (requestId name : String) (s : Handler Unit) (w : DeclineWorld) : Prop
    extends Polled requestId name s w where
  undeclined : name ∉ s.request.declinedBy

theorem Unfailed.rely {w w' : DeclineWorld} (h : Unfailed requestId name s w)
    (rely : Rely (.pool name) w w') : Unfailed requestId name s w' :=
  ⟨h.toPolled.rely rely, h.undeclined⟩

theorem keeps_aside {α : Type} {m : HandlerM Unit α} (A : Handler Unit → DeclineWorld → Prop)
    (stable : ∀ {s w w'}, A s w → Rely i w w' → A s w') (within : Within Aside (fun h => h) m) :
    Keeps (ctx requestId i) A m := by
  intro s w h
  refine wp_mono (within.wp (stable_aside (B := A s) stable) h) ?_ ?_
  · rintro _ s' w' ⟨same, h'⟩
    obtain rfl : s' = s := same
    exact h'
  · rintro _ s' w' ⟨same, h'⟩
    obtain rfl : s' = s := same
    exact h'

theorem classifyNodes_keeps (os : List NodeRef) :
    Keeps (ctx requestId (.pool name)) (Polled requestId name) (classifyNodes os) := by
  induction os with
  | nil => exact .pure
  | cons o os ih =>
      have reads : Within Aside (fun h => h) (call (.readNode o) : HandlerM Unit NodeObject) :=
        .perform trivial
      refine .bind (.bind (keeps_aside (Polled requestId name) Polled.rely reads) fun _ =>
        .ite ?_ (.ite ?_ ?_)) fun _ =>
        .bind ih fun _ => .pure
      · exact .bind (.assign fun _ _ h => ⟨⟨h.launcherId, h.done, h.id, h.mine, h.undecided,
          h.declined⟩, h.active, h.running⟩) fun _ => .pure
      · refine .bind (.assign fun _ _ h => ⟨⟨h.launcherId, h.done, h.id, h.mine, h.undecided,
          h.declined⟩, h.active, h.running⟩) fun _ =>
          .bind (keeps_aside (Polled requestId name) Polled.rely ?_) fun _ => .pure
        exact (ZooKeeper.unlockNode_within o).mono fun _ => Aside.of_onNodes
      · refine .bind (.assign fun s _ h => ⟨⟨h.launcherId, h.done, h.id, h.mine, h.undecided,
          fun active declined => ⟨?_, h.running⟩⟩, h.active, h.running⟩) fun _ => .pure
        exact List.append_ne_nil_of_right_ne_nil _ (List.cons_ne_nil _ _)

theorem removeAborted_keeps (o : NodeRef) :
    Keeps (ctx requestId (.pool name)) (Unfailed requestId name) (removeAborted o) :=
  .bind (keeps_aside (Unfailed requestId name) Unfailed.rely (.perform trivial)) fun _ =>
    .assign fun _ _ h => ⟨⟨⟨h.launcherId, h.done, h.id, h.mine, h.undecided, h.declined⟩,
      h.active, h.running⟩, h.undeclined⟩

theorem assignNodeToType_keeps (ntype : String) :
    Keeps (ctx requestId (.pool name)) (Unfailed requestId name) (assignNodeToType ntype) := by
  intro s w h
  rw [assignNodeToType, wp_bind, wp_self]
  split
  · exact h
  · refine ⟨⟨⟨h.launcherId, h.done, h.id, fun active => ?_, h.undecided, h.declined⟩, h.active,
      h.running⟩, h.undeclined⟩
    have mine := h.mine active
    exact ⟨mine.holder, mine.isOpen, fun r stored =>
      ⟨(mine.follows r stored).same, (mine.follows r stored).declinedBy⟩⟩

/-- What is true of a handler after it was polled: a handler that is finished is dropped. -/
def Kept (requestId name : String) (finished : Bool) (s : Handler Unit) (w : DeclineWorld) : Prop :=
  finished = false → Holds requestId name s w

theorem finishPoll_wp (h : Polled requestId name s w)
    (decided : Decided name (w.asked (.pool name)) s.request) :
    finishPoll.wp (ctx requestId (.pool name)) (Kept requestId name) (fun _ => Holds requestId name)
      s w := by
  have holds {w₁ : DeclineWorld} (mine : Mine name s.request w₁) :
      Holds requestId name { s with nodeset := [] } w₁ :=
    ⟨h.launcherId, h.done, h.id, fun _ => mine, h.undecided, h.declined⟩
  rw [finishPoll, wp_bind]
  refine wp_mono (unlockNodeSet_wp false Ready.rely ⟨h.mine h.active, decided⟩) ?_
    fun _ _ _ h => h.elim
  rintro _ _ w₁ ⟨rfl, ready⟩
  rw [wp_bind]
  refine wp_mono (storeNodeRequest_wp (h.id h.active) ready) ?_ ?_
  · rintro _ s₂ w₂ ⟨rfl, mine⟩
    rw [wp_bind]
    refine wp_mono (unlockNodeRequest_wp Mine.rely (fun _ h => h.holder) mine) ?_ ?_
    · exact fun _ _ _ _ finished => nomatch finished
    · rintro _ _ _ ⟨rfl, mine⟩
      exact holds mine
  · rintro _ _ _ ⟨rfl, mine⟩
    exact holds mine

theorem requestDisappeared_wp (h : Polled requestId name s w) :
    requestDisappeared.wp (ctx requestId (.pool name)) (fun _ _ _ => True)
      (fun _ => Holds requestId name) s w := by
  rw [requestDisappeared, wp_bind]
  refine wp_mono (unlockNodeSet_wp true Mine.rely (h.mine h.active)) ?_ fun _ _ _ h => h.elim
  rintro _ _ w₁ ⟨rfl, mine⟩
  rw [wp_tryCatch]
  refine wp_mono (unlockNodeRequest_wp Mine.rely (fun _ h => h.holder) mine)
    (fun _ _ _ _ => trivial) ?_
  rintro e s₂ w₂ ⟨rfl, mine⟩
  split
  · trivial
  · exact ⟨h.launcherId, h.done, h.id, fun _ => mine, h.undecided, h.declined⟩

theorem pollComplete_wp (h : Polled requestId name s w) :
    pollComplete.wp (ctx requestId (.pool name)) (Kept requestId name)
      (fun _ => Holds requestId name) s w := by
  rw [pollComplete, wp_bind, wp_self, wp_bind]
  refine wp_mono (classifyNodes_keeps _ s w h) ?_ fun _ _ _ h => h.toHolds
  intro aborted s₁ w₁ h₁
  rw [wp_bind]
  have reads : Within Aside (fun h => h)
      (ZooKeeper.getNodeRequest s.request.id : HandlerM Unit _) :=
    ZooKeeper.getNodeRequest_within trivial
  refine wp_mono (keeps_aside (Polled requestId name) Polled.rely reads s₁ w₁ h₁) ?_
    fun _ _ _ h => h.toHolds
  intro stored s₂ w₂ h₂
  split
  · rw [wp_bind]
    exact wp_mono (requestDisappeared_wp h₂) (fun _ _ _ _ finished => nomatch finished)
      fun _ _ _ h => h
  · rw [wp_bind, wp_self]
    split
    · rename_i failed
      rw [wp_bind]
      refine wp_mono (declineLocally_wp h₂.launcherId (h₂.mine h₂.active)) ?_ fun _ _ _ h => h.elim
      rintro _ s₃ w₃ ⟨rest, same, listed, ready⟩
      have attributes : s₃.launcherId = s₂.launcherId ∧ s₃.done = s₂.done ∧
          s₃.paused = s₂.paused ∧ s₃.failedNodes = s₂.failedNodes :=
        ⟨(congrArg Handler.launcherId rest :), (congrArg Handler.done rest :),
          (congrArg Handler.paused rest :), (congrArg Handler.failedNodes rest :)⟩
      obtain ⟨launcherId, done, paused, failedNodes⟩ := attributes
      refine finishPoll_wp ⟨⟨launcherId.trans h₂.launcherId, fun _ => paused.trans h₂.running,
        fun _ => same.trans (h₂.id h₂.active), fun _ => ready.toMine,
        fun _ undeclined => absurd listed undeclined,
        fun _ _ => ⟨failedNodes ▸ failed, paused.trans h₂.running⟩⟩, done.trans h₂.active,
        paused.trans h₂.running⟩ ready.decided
    · rename_i noneFailed
      have unfailed : Unfailed requestId name s₂ w₂ :=
        ⟨h₂, fun declined => noneFailed (h₂.declined h₂.active declined).1⟩
      split
      · rw [wp_bind]
        refine wp_mono (Keeps.forEach removeAborted_keeps aborted s₂ w₂ unfailed) ?_
          fun _ _ _ h => h.toHolds
        rintro _ s₃ w₃ h₃ -
        exact ⟨h₃.launcherId, fun done => (nomatch h₃.active.symm.trans done), h₃.id, h₃.mine,
          h₃.undecided, fun _ declined => absurd declined h₃.undeclined⟩
      · rw [wp_bind, fulfil, wp_bind, wp_self, wp_bind]
        refine wp_mono (Keeps.forEach assignNodeToType_keeps _ s₂ w₂ unfailed) ?_
          fun _ _ _ h => h.toHolds
        intro _ s₃ w₃ h₃
        rw [wp_assign]
        have mine := h₃.mine h₃.active
        refine finishPoll_wp ⟨⟨h₃.launcherId, h₃.done, h₃.id, fun _ => ?_, fun _ _ => .inr rfl,
          h₃.declined⟩, h₃.active, h₃.running⟩ h₃.undeclined
        exact ⟨mine.holder, mine.isOpen, fun r stored =>
          ⟨(mine.follows r stored).same, (mine.follows r stored).declinedBy⟩⟩

theorem poll_wp (h : Holds requestId name s w) :
    (poll Driver.external).wp (ctx requestId (.pool name)) (Kept requestId name)
      (fun _ => Holds requestId name) s w := by
  rw [poll, wp_bind, wp_self]
  split
  · exact fun _ => h
  · rename_i running
    split
    · intro finished
      cases finished
    · rename_i active
      have polled : Polled requestId name s w :=
        ⟨h, Bool.not_eq_true _ ▸ active, Bool.not_eq_true _ ▸ running⟩
      have complete : Within Aside (fun h => h) Driver.external.launchesComplete :=
        .perform (S := LauncherSig) trivial
      rw [wp_bind]
      refine wp_mono (keeps_aside (Polled requestId name) Polled.rely complete s w polled) ?_
        fun _ _ _ h => h.toHolds
      intro complete s₁ w₁ h₁
      split
      · exact pollComplete_wp h₁
      · exact fun _ => h₁.toHolds

/-! ### Taking the request -/

/-- What the pool has read with the lock held. -/
structure Read (name : String) (data : NodeRequest) (w : DeclineWorld) : Prop where
  holder : HasLock (.pool name) w
  follows : ∀ r, w.request = some r → Follows name r data
  isOpen : data.isFinal = false → w.closed = false

theorem Read.rely {data : NodeRequest} {w w' : DeclineWorld} (h : Read name data w)
    (rely : Rely (.pool name) w w') : Read name data w' := by
  obtain ⟨holder, closed, request⟩ := rely.held h.holder
  refine ⟨holder, fun r stored => ?_, fun open_ => closed.trans (h.isOpen open_)⟩
  rcases request with same | gone
  · exact h.follows r (same.symm.trans stored)
  · cases gone.symm.trans stored

theorem lockNodeRequest_wp (id : s.request.id = requestId) :
    PoolWorker.lockNodeRequest.wp (ctx requestId (.pool name))
      (fun _ s' w' => { s' with request := s.request, requestLock := s.requestLock } = s ∧
        s'.request.id = requestId ∧ Read name s'.request w')
      (fun _ _ _ => True) s w := by
  rw [PoolWorker.lockNodeRequest, wp_bind, wp_self, wp_bind, wp_tryCatch]
  refine wp_call (P := fun _ => True) (fun _ _ _ => trivial) trivial (fun _ _ _ => trivial) ?_ ?_
  · rintro haveLock w₁ w₂ - - ⟨mem, -⟩ -
    rw [wp_bind, raiseUnless]
    split
    · rename_i got
      have held : HasLock (.pool name) w₂ := by
        subst got
        simp only [DeclineWorld.next, id, and_self, if_true] at mem
        obtain ⟨-, mem⟩ := List.mem_ite_nil_right.mp mem
        rw [List.mem_singleton.mp mem]
        rfl
      rw [wp_pure, wp_bind, wp_assign, wp_bind]
      refine wp_call (P := HasLock (.pool name)) (fun h hr _ => h.rely hr) held
        (fun _ _ _ => trivial) ?_ (fun _ _ _ _ _ _ _ => trivial)
      rintro data w₃ w₄ held inv ⟨mem, -⟩ -
      obtain ⟨stored, rfl⟩ := of_mem_ite mem
      have stored := stored id
      refine ⟨rfl, inv.id data stored, held, fun r hr => ?_, fun open_ => ?_⟩
      · obtain rfl : data = r := Option.some.inj (stored.symm.trans hr)
        exact .refl name data
      · refine Bool.not_eq_true _ ▸ fun closed => ?_
        cases open_.symm.trans (inv.final closed data stored)
    · trivial
  · intro e w₁ w₂ _ _ _ _
    split_ifs
    · trivial
    · rw [wp_pure, wp_bind, raiseUnless]
      trivial
    · trivial

theorem takeRequest_wp (decline : Bool) (launcherId : s.launcherId = name)
    (id : s.request.id = requestId) (active : s.done = false) (running : s.paused = false) :
    (PoolWorker.takeRequest decline).wp (ctx requestId (.pool name))
      (fun kept s' w' => kept = true → Holds requestId name s' w') (fun _ _ _ => True) s w := by
  have unlock {s : Handler Unit} {w : DeclineWorld} (read : Read name s.request w) :
      (do NodeRequestHandler.unlockNodeRequest; pure false : HandlerM Unit Bool).wp
        (ctx requestId (.pool name)) (fun kept s' w' => kept = true → Holds requestId name s' w')
        (fun _ _ _ => True) s w := by
    rw [wp_bind]
    exact wp_mono (unlockNodeRequest_wp Read.rely (fun _ h => h.holder) read)
      (fun _ _ _ _ kept => nomatch kept) fun _ _ _ _ => trivial
  rw [PoolWorker.takeRequest, wp_bind, wp_attempt]
  refine wp_mono (lockNodeRequest_wp id) ?_ ?_
  · rintro _ s₁ w₁ ⟨rest, same, read⟩
    have attributes : s₁.launcherId = name ∧ s₁.done = false ∧ s₁.paused = false :=
      ⟨(congrArg Handler.launcherId rest :).trans launcherId,
        (congrArg Handler.done rest :).trans active, (congrArg Handler.paused rest :).trans running⟩
    obtain ⟨launcherId, active, running⟩ := attributes
    dsimp only
    rw [wp_bind, wp_self]
    split
    · exact unlock read
    · rename_i requested
      split
      · exact unlock read
      · rename_i undeclined
        have requested : s₁.request.state = .requested := not_not.mp requested
        have mine : Mine name s₁.request w₁ := by
          refine ⟨read.holder, read.isOpen ?_, read.follows⟩
          simp [NodeRequest.isFinal, requested]
        split
        · rw [wp_bind]
          exact wp_mono (declineRequest_wp launcherId same mine) (fun _ _ _ _ kept => nomatch kept)
            fun _ _ _ h => h.elim
        · have working : Working requestId name s₁ w₁ :=
            ⟨launcherId, same, active, mine, launcherId ▸ undeclined⟩
          rw [wp_bind]
          refine wp_mono (run_wp working fun paused => nomatch running.symm.trans paused) ?_
            fun _ _ _ h => h.elim
          exact fun _ _ _ h _ => h
  · intro e s₁ w₁ _
    split
    · exact fun kept => nomatch kept
    · exact fun kept => nomatch kept
    · trivial
    · contradiction

/-! ### The cleanup worker -/

/-- What is known of a request that is pending while its lock is held. -/
structure Lost (requestId : String) (i : Party) (id : String) (request : NodeRequest)
    (w : DeclineWorld) : Prop where
  holder : id = requestId → HasLock i w
  isOpen : id = requestId → w.closed = false
  stored : id = requestId → ∀ r, w.request = some r → r = request

theorem Lost.rely {id : String} {request : NodeRequest} {w w' : DeclineWorld}
    (h : Lost requestId i id request w) (rely : Rely i w w') : Lost requestId i id request w' where
  holder same := (h.holder same).rely rely
  isOpen same := (rely.held (h.holder same)).2.1.trans (h.isOpen same)
  stored same r stored := by
    rcases (rely.held (h.holder same)).2.2 with kept | gone
    · exact h.stored same r (kept.symm.trans stored)
    · cases gone.symm.trans stored

section Cleanup

variable {launcher id : String} {s : Unit}

/-- The lock of a request, if it is the one that is followed. -/
def LockOf (requestId : String) (i : Party) (id : String) (w : DeclineWorld) : Prop :=
  id = requestId → HasLock i w

theorem LockOf.rely {w w' : DeclineWorld} (h : LockOf requestId i id w) (rely : Rely i w w') :
    LockOf requestId i id w' :=
  fun same => (h same).rely rely

theorem deallocateAllLost_within (id : String) (os : List NodeRef) :
    Within Aside (fun h => h) (CleanupWorker.deallocateAllLost id os : LauncherM Unit Bool) := by
  have onNodes : ∀ c, Call.onNodes c → Aside c := fun _ => Aside.of_onNodes
  induction os with
  | nil => exact .pure
  | cons o os ih =>
      refine .bind ?_ fun _ => .ite ih .pure
      refine .bind (.perform trivial) fun _ => .ite .pure ?_
      refine .bind (.attempt ((ZooKeeper.lockNode_within o).mono onNodes)) fun locked => ?_
      have unlock : Within Aside (fun h => h) (ZooKeeper.unlockNode o : LauncherM Unit Unit) :=
        (ZooKeeper.unlockNode_within o).mono onNodes
      split
      · exact .bind (.perform trivial) fun _ => .pure
      · exact .throw
      · refine .bind (.perform trivial) fun _ => .ite (.bind unlock fun _ => .pure) ?_
        have store : Within Aside (fun h => h) (ZooKeeper.storeNode o : LauncherM Unit Unit) :=
          (ZooKeeper.storeNode_within o).mono onNodes
        exact .bind (when_within ((ZooKeeper.assignState_within o _).mono onNodes)) fun _ =>
          .bind (.perform trivial) fun _ =>
          .bind (.tryCatch store fun _ => .perform trivial) fun _ => .bind unlock fun _ => .pure

/-- A call aside, and what is known is kept. -/
theorem aside_wp {α : Type} {m : LauncherM Unit α} {B : DeclineWorld → Prop} {w : DeclineWorld}
    (within : Within Aside (fun h => h) m) (stable : ∀ {w w'}, B w → Rely i w w' → B w')
    (hB : B w) : m.wp (ctx requestId i) (fun _ _ => B) (fun _ _ => B) s w :=
  wp_mono (within.wp (stable_aside stable) hB) (fun _ _ _ h => h.2) fun _ _ _ h => h.2

theorem storeLost_wp {request : NodeRequest} {w : DeclineWorld} (pending : request.state = .pending)
    (h : Lost requestId (.cleanup launcher) id request w) :
    (ZooKeeper.storeNodeRequest id { request with state := .requested, nodes := [] } :
      LauncherM Unit Unit).wp (ctx requestId (.cleanup launcher))
      (fun _ _ => LockOf requestId (.cleanup launcher) id)
      (fun _ _ => LockOf requestId (.cleanup launcher) id) s w := by
  have kept (r : LauncherSig.Reply
        (.setRequest id { request with state := .requested, nodes := [] }))
      {w₁ w₂ : DeclineWorld} (h : Lost requestId (.cleanup launcher) id request w₁)
      (mem : w₂ ∈ w₁.next requestId (.cleanup launcher) (.setRequest id _) r) :
      LockOf requestId (.cleanup launcher) id w₂ := by
    rcases next_cases mem with rfl | ⟨_, data, -, -, rfl⟩ | ⟨hc, -⟩ | ⟨hc, -⟩ | ⟨_, hc, -⟩
    · exact h.holder
    · exact h.holder
    all_goals cases hc
  rw [ZooKeeper.storeNodeRequest, wp_bind]
  refine wp_mono (aside_wp (ZooKeeper.getNodeRequest_within trivial) Lost.rely h) ?_
    fun _ _ _ h => h.holder
  intro stored s₁ w₁ h₁
  split
  · exact h₁.holder
  · refine wp_call (P := Lost requestId (.cleanup launcher) id request) (fun h hr _ => h.rely hr) h₁
      ?_ ?_ ?_
    · refine fun w₂ h₂ _ same => ⟨h₂.holder same, h₂.isOpen same, fun r stored => ?_⟩
      obtain rfl := h₂.stored same r stored
      exact ⟨pending, rfl⟩
    · exact fun v _ _ h₂ _ hs _ => kept (.ok v) h₂ hs.1
    · exact fun e _ _ h₂ _ hs _ => kept (.error e) h₂ hs.1

theorem resetLostRequest_wp {w : DeclineWorld} (h : LockOf requestId (.cleanup launcher) id w) :
    (CleanupWorker.resetLostRequest id : LauncherM Unit Unit).wp (ctx requestId (.cleanup launcher))
      (fun _ _ => LockOf requestId (.cleanup launcher) id)
      (fun _ _ => LockOf requestId (.cleanup launcher) id) s w := by
  rw [CleanupWorker.resetLostRequest, wp_bind, ZooKeeper.getNodeRequest, wp_tryCatch, wp_bind]
  refine wp_call (P := LockOf requestId (.cleanup launcher) id) (fun h hr _ => h.rely hr) h
    (fun _ _ _ => trivial) ?_ ?_
  · rintro request w₁ w₂ held inv ⟨mem, -⟩ -
    obtain ⟨read, rfl⟩ := of_mem_ite mem
    rw [wp_pure]
    dsimp only
    unfold Nodepool.when
    split
    · rename_i pending
      have lost : Lost requestId (.cleanup launcher) id request w₂ := by
        refine ⟨held, fun same => Bool.not_eq_true _ ▸ fun closed => ?_, fun same r stored => ?_⟩
        · have := inv.final closed request (read same)
          simp [NodeRequest.isFinal, pending] at this
        · exact Option.some.inj (stored.symm.trans (read same))
      have nodes : Within Aside (fun h => h) (call .nodeIterator : LauncherM Unit _) :=
        .perform trivial
      rw [wp_bind]
      refine wp_mono (aside_wp nodes Lost.rely lost) ?_ fun _ _ _ h => h.holder
      intro nodes s₁ w₃ h₃
      rw [wp_bind]
      refine wp_mono (aside_wp (deallocateAllLost_within id nodes) Lost.rely h₃) ?_
        fun _ _ _ h => h.holder
      intro finished s₂ w₄ h₄
      split
      · exact storeLost_wp pending h₄
      · exact h₄.holder
    · exact held
  · intro e w₁ w₂ held inv hs inv'
    have held₂ : LockOf requestId (.cleanup launcher) id w₂ := by
      have mem : w₂ ∈ w₁.next requestId (.cleanup launcher) (.getRequest id) (.error e) := hs.1
      have aside : Aside (.getRequest id) := trivial
      rw [next_aside aside mem]
      exact held
    split
    · exact held₂
    · exact held₂

theorem lockLost_wp {w : DeclineWorld} :
    (ZooKeeper.lockNodeRequest id : LauncherM Unit Unit).wp (ctx requestId (.cleanup launcher))
      (fun _ _ => LockOf requestId (.cleanup launcher) id) (fun _ _ _ => True) s w := by
  rw [ZooKeeper.lockNodeRequest, wp_bind, wp_tryCatch]
  refine wp_call (P := fun _ => True) (fun _ _ _ => trivial) trivial (fun _ _ _ => trivial) ?_ ?_
  · rintro haveLock w₁ w₂ - - ⟨mem, -⟩ -
    rw [wp_bind, raiseUnless]
    split
    · rename_i got
      have held : LockOf requestId (.cleanup launcher) id w₂ := by
        intro same
        subst got
        simp only [DeclineWorld.next, same, and_self, if_true] at mem
        obtain ⟨-, mem⟩ := List.mem_ite_nil_right.mp mem
        rw [List.mem_singleton.mp mem]
        rfl
      have refresh : Within Aside (fun s => s) (call (.getRequest id) : LauncherM Unit _) :=
        .perform trivial
      rw [wp_pure, wp_bind]
      exact wp_mono (aside_wp refresh LockOf.rely held) (fun _ _ _ h => h) fun _ _ _ _ => trivial
    · trivial
  · intro e w₁ w₂ _ _ _ _
    split_ifs
    · trivial
    · rw [wp_pure, wp_bind, raiseUnless]
      trivial
    · trivial

/-- Whatever the cleanup worker finds, it stores a request only with its lock. -/
theorem cleanupLostRequests_wp {w : DeclineWorld} :
    (CleanupWorker.cleanupLostRequests : LauncherM Unit Unit).wp
      (ctx requestId (.cleanup launcher)) (fun _ _ _ => True) (fun _ _ _ => True) s w := by
  have anything {α : Type} {m : LauncherM Unit α} (within : Within Aside (fun h => h) m) {s : Unit}
      {w : DeclineWorld} : m.wp (ctx requestId (.cleanup launcher)) (fun _ _ _ => True)
        (fun _ _ _ => True) s w :=
    aside_wp within (fun _ _ => trivial) trivial
  rw [CleanupWorker.cleanupLostRequests, wp_bind]
  have ids : Within Aside (fun h => h) (call .getNodeRequestIds : LauncherM Unit _) :=
    .perform trivial
  refine wp_mono (anything ids) ?_ fun _ _ _ _ => trivial
  intro ids s₁ w₁ _
  refine wp_forEach (J := fun _ _ => True) ?_ trivial
  intro id s₂ w₂ _
  rw [wp_bind]
  refine wp_mono (anything (ZooKeeper.getNodeRequest_within trivial)) ?_ fun _ _ _ _ => trivial
  intro request s₃ w₃ _
  unfold Nodepool.when
  split
  · rw [wp_bind, wp_attempt]
    refine wp_mono lockLost_wp ?_ fun e _ _ _ => ?_
    · intro _ s₄ w₄ held
      dsimp only
      rw [wp_bind, wp_tryCatch]
      have release {s : Unit} {w : DeclineWorld}
          (held : LockOf requestId (.cleanup launcher) id w) :
          (call (.releaseRequestLock id) : LauncherM Unit Unit).wp
            (ctx requestId (.cleanup launcher)) (fun _ _ _ => True) (fun _ _ _ => True) s w :=
        wp_call (P := LockOf requestId (.cleanup launcher) id) (fun h hr _ => h.rely hr) held
          (fun _ h _ same => h same) (fun _ _ _ _ _ _ _ => trivial) fun _ _ _ _ _ _ _ => trivial
      refine wp_mono (resetLostRequest_wp held) (fun _ _ _ h => release h) ?_
      intro _ s₅ w₅ held
      have logs : Within Aside (fun h => h)
          (call (.log "Error resetting lost request") : LauncherM Unit Unit) := .perform trivial
      exact wp_mono (aside_wp logs LockOf.rely held) (fun _ _ _ h => release h)
        fun _ _ _ _ => trivial
    · split <;> trivial
  · trivial

end Cleanup

end DeclineSystem

end Nodepool
