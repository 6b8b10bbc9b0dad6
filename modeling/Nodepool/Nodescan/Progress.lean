import Nodepool.Nodescan.Request

/-!
What a call of `advance` does: it keeps track of what is open, tries the key types in order, and
gets on once the timeout of the request has elapsed.
-/

namespace Nodepool.Nodescan

open Effect Method

/-- The timeout of the request has elapsed. -/
def Elapsed (s : NodescanRequest) (w : Net) : Prop := s.startTime + s.timeout < w.now

/-- What holds at every point of a call that was made in `s₀` and `w₀`. -/
structure Base (s₀ : NodescanRequest) (w₀ : Net) (s : NodescanRequest) (w : Net) : Prop where
  sockets : w.openSockets = s.sock.toList
  transports : w.openTransports = s.transport.toList
  tried : s.tried.Pairwise (· < ·)
  index : ∀ i ∈ s.tried, i ≤ s.keyIndex
  startTime : s.startTime = s₀.startTime
  timeout : s.timeout = s₀.timeout
  clock : w₀.now ≤ w.now

/-- What holds between two branches. -/
def StateInv (s : NodescanRequest) : Prop :=
  match s.state with
  | .start | .connectingInit => s.tried = [] ∧ s.transport = none
  | .negotiatingInit => s.tried = []
  | .connectingKey => s.transport = none ∧ 0 ≤ s.keyIndex ∧ s.keyIndex < s.keyTypes.length
  | .negotiatingKey => 0 ≤ s.keyIndex ∧ s.keyIndex < s.keyTypes.length
  | .complete => True

/-- How far the scan has got. -/
def progress (s : NodescanRequest) : ℤ :=
  match s.state with
  | .start => if s.sock = none then 0 else 1
  | .connectingInit | .negotiatingInit => 0
  | .connectingKey | .negotiatingKey => s.keyIndex + 2
  | .complete => s.keyTypes.length + 2

/-- How far a call gets that has not come to the branch of the state, once the timeout has
elapsed. -/
def ahead (s : NodescanRequest) : ℤ :=
  match s.state with
  | .start => 1
  | .connectingInit | .negotiatingInit => 3
  | .connectingKey | .negotiatingKey => s.keyIndex + 3
  | .complete => s.keyTypes.length + 2

section Calls

variable {s₀ s : NodescanRequest} {w₀ w : Net} {α : Type}

theorem wp_ncall {c : NodescanCall} {Q : c.Val → NodescanRequest → Net → Prop}
    {E : NodescanErr → NodescanRequest → Net → Prop}
    (normal : ∀ v w', w.Next c (.ok v) w' → Q v s w')
    (exceptional : ∀ e w', w.Next c (.error e) w' → E e s w') :
    (ncall c).wp scan.ctx Q E s w := by
  refine wp_perform.mpr ?_
  rintro _ rfl -
  exact ⟨trivial, fun v w' h _ => normal v w' h, fun e w' h _ => exceptional e w' h⟩

/-- A call that leaves the world as it is. -/
theorem wp_silent {c : NodescanCall} (silent : ∀ r w', w.Next c r w' → w' = w)
    {Q : c.Val → NodescanRequest → Net → Prop}
    {E : NodescanErr → NodescanRequest → Net → Prop} (normal : ∀ v, Q v s w)
    (exceptional : ∀ e, E e s w) : (ncall c).wp scan.ctx Q E s w := by
  refine wp_ncall (fun v w' h => ?_) fun e w' h => ?_
  · rw [silent _ w' h]
    exact normal v
  · rw [silent _ w' h]
    exact exceptional e

/-- A call whose exceptions are ignored. -/
theorem wp_ignored {Q : Unit → NodescanRequest → Net → Prop}
    {E : NodescanErr → NodescanRequest → Net → Prop} {m : NodescanM Unit}
    (h : m.wp scan.ctx Q (fun _ => Q ()) s w) :
    (tryCatch m fun _ => pure ()).wp scan.ctx Q E s w :=
  wp_tryCatch.mpr (wp_mono h (fun _ _ _ h => h) fun _ _ _ h => h)

theorem Base.congr (base : Base s₀ w₀ s w) {s' : NodescanRequest} (sock : s'.sock = s.sock)
    (transport : s'.transport = s.transport) (tried : s'.tried = s.tried)
    (keyIndex : s'.keyIndex = s.keyIndex) (startTime : s'.startTime = s.startTime)
    (timeout : s'.timeout = s.timeout) : Base s₀ w₀ s' w where
  sockets := sock ▸ base.sockets
  transports := transport ▸ base.transports
  tried := tried ▸ base.tried
  index := by rw [tried, keyIndex]; exact base.index
  startTime := startTime.trans base.startTime
  timeout := timeout.trans base.timeout
  clock := base.clock

theorem Base.setState (base : Base s₀ w₀ s w) (state : ScanState) :
    Base s₀ w₀ { s with state := state } w :=
  base.congr rfl rfl rfl rfl rfl rfl

/-! ### The helpers -/

theorem closeTransport_wp (base : Base s₀ w₀ s w) {E : NodescanErr → NodescanRequest → Net → Prop} :
    closeTransport.wp scan.ctx
      (fun _ s' w' => s' = { s with transport := none } ∧ Base s₀ w₀ s' w') E s w := by
  unfold closeTransport
  refine wp_bind.mpr (wp_self.mpr ?_)
  cases found : s.transport with
  | none =>
      have same : s = { s with transport := none } := by rw [← found]
      exact wp_pure.mpr ⟨same, base⟩
  | some transport =>
      have closed {w' : Net} (h : w' = { w with
          openTransports := w.openTransports.erase transport }) :
          Base s₀ w₀ { s with transport := none } w' := by
        subst h
        refine { base with transports := ?_ }
        simp [base.transports, found]
      refine wp_bind.mpr (wp_ignored (wp_ncall (fun _ w' h => ?_) fun _ w' h => ?_))
      · exact wp_assign.mpr ⟨rfl, closed h⟩
      · exact wp_assign.mpr ⟨rfl, closed h⟩

theorem closeSocket_wp (base : Base s₀ w₀ s w) {E : NodescanErr → NodescanRequest → Net → Prop} :
    closeSocket.wp scan.ctx
      (fun _ s' w' => s' = { s with sock := none } ∧ Base s₀ w₀ s' w') E s w := by
  unfold closeSocket
  refine wp_bind.mpr (wp_self.mpr ?_)
  cases found : s.sock with
  | none =>
      have same : s = { s with sock := none } := by rw [← found]
      exact wp_pure.mpr ⟨same, base⟩
  | some sock =>
      have closed {w' : Net} (h : w' = { w with openSockets := w.openSockets.erase sock }) :
          Base s₀ w₀ { s with sock := none } w' := by
        subst h
        refine { base with sockets := ?_ }
        simp [base.sockets, found]
      have rest : (do
          tryCatch (ncall (.closeSocket sock)) fun _ => pure ()
          assign fun r => { r with sock := none } : NodescanM Unit).wp scan.ctx
          (fun _ s' w' => s' = { s with sock := none } ∧ Base s₀ w₀ s' w') E s w := by
        refine wp_bind.mpr (wp_ignored (wp_ncall (fun _ w' h => ?_) fun _ w' h => ?_))
        · exact wp_assign.mpr ⟨rfl, closed h⟩
        · exact wp_assign.mpr ⟨rfl, closed h⟩
      exact wp_bind.mpr (wp_ignored
        (wp_silent (by exact fun _ _ h => h) (fun _ => rest) fun _ => rest))

theorem close_wp (base : Base s₀ w₀ s w) {E : NodescanErr → NodescanRequest → Net → Prop} :
    close.wp scan.ctx (fun _ s' w' => s' = { s with transport := none, sock := none } ∧
      Base s₀ w₀ s' w') E s w := by
  refine wp_bind.mpr (wp_mono (closeTransport_wp base) ?_ fun _ _ _ h => h)
  rintro - _ w' ⟨rfl, base⟩
  exact closeSocket_wp base

theorem checkTimeout_wp (base : Base s₀ w₀ s w) :
    checkTimeout.wp scan.ctx
      (fun _ s' w' => s' = s ∧ Base s₀ w₀ s' w' ∧ ¬ Elapsed s₀ w₀)
      (fun _ => Base s₀ w₀) s w := by
  refine wp_bind.mpr (wp_ncall (fun now w' h => ?_) fun _ _ h => h.elim)
  obtain ⟨later, rfl⟩ := h
  have base' : Base s₀ w₀ s { w with now := now } :=
    { base with clock := base.clock.trans later }
  refine wp_bind.mpr (wp_self.mpr ?_)
  split
  · exact wp_throw.mpr base'
  · rename_i early
    refine wp_pure.mpr ⟨rfl, base', fun elapsed => early ?_⟩
    rw [base.startTime, base.timeout]
    exact lt_of_lt_of_le elapsed (base.clock.trans later)

theorem unregisterSock_wp {Q : Unit → NodescanRequest → Net → Prop}
    {E : NodescanErr → NodescanRequest → Net → Prop} (h : Q () s w) :
    unregisterSock.wp scan.ctx Q E s w := by
  unfold unregisterSock
  refine wp_bind.mpr (wp_self.mpr ?_)
  split
  · exact h
  · exact wp_ignored (wp_silent (by exact fun _ _ h => h) (fun _ => h) fun _ => h)

/-- A new connection is made at once or is delayed. -/
theorem connect_wp (base : Base s₀ w₀ s w) (none : s.sock = none) :
    connect.wp scan.ctx
      (fun _ s' w' => (∃ sock time, s' = { s with sock := some sock, connectStartTime := time } ∨
          s' = { s with
            sock := some sock, connectStartTime := time, state := .connectingInit }) ∧
        Base s₀ w₀ s' w')
      (fun _ => Base s₀ w₀) s w := by
  unfold connect
  refine wp_bind.mpr (unregisterSock_wp (wp_bind.mpr (wp_ncall ?_ ?_)))
  swap
  · rintro e w' rfl
    exact base
  rintro sock w' ⟨-, rfl⟩
  refine wp_bind.mpr (wp_assign.mpr ?_)
  have base' : Base s₀ w₀ { s with sock := some sock }
      { w with sockets := w.sockets + 1, openSockets := sock :: w.openSockets } :=
    { base with sockets := by simp [base.sockets, none] }
  generalize { w with sockets := w.sockets + 1, openSockets := sock :: w.openSockets } = w₁ at base'
  -- the time is noted, and the socket is registered, in either state
  have rest {s₁ : NodescanRequest} (base₁ : Base s₀ w₀ s₁ w₁) : (do
      let now ← ncall .monotonic
      assign fun r => { r with connectStartTime := now }
      ncall (.register sock) : NodescanM Unit).wp scan.ctx
      (fun _ s' w' => (∃ time, s' = { s₁ with connectStartTime := time }) ∧ Base s₀ w₀ s' w')
      (fun _ => Base s₀ w₀) s₁ w₁ := by
    refine wp_bind.mpr (wp_ncall (fun now w' h => ?_) fun _ _ h => h.elim)
    obtain ⟨later, rfl⟩ := h
    have base₂ : Base s₀ w₀ { s₁ with connectStartTime := now } { w₁ with now := now } :=
      { base₁ with clock := base₁.clock.trans later }
    refine wp_bind.mpr (wp_assign.mpr
      (wp_silent (by exact fun _ _ h => h) (fun _ => ?_) fun _ => base₂))
    exact ⟨⟨now, rfl⟩, base₂⟩
  refine wp_bind.mpr (wp_tryCatch.mpr
    (wp_silent (by exact fun _ _ h => h) (fun _ => ?_) fun e => ?_))
  · refine wp_mono (rest base') ?_ fun _ _ _ h => h
    rintro - _ w' ⟨⟨time, rfl⟩, base⟩
    exact ⟨⟨sock, time, .inl rfl⟩, base⟩
  · split
    · refine wp_assign.mpr (wp_mono (rest (base'.setState .connectingInit)) ?_ fun _ _ _ h => h)
      rintro - _ w' ⟨⟨time, rfl⟩, base⟩
      exact ⟨⟨sock, time, .inr rfl⟩, base⟩
    · exact wp_throw.mpr base'

theorem present_wp {field : NodescanRequest → Option ℕ} {Q : ℕ → NodescanRequest → Net → Prop}
    {E : NodescanErr → NodescanRequest → Net → Prop} (some : ∀ n, field s = some n → Q n s w)
    (none : field s = none → E .other s w) : (present field).wp scan.ctx Q E s w := by
  unfold present
  refine wp_bind.mpr (wp_self.mpr ?_)
  split
  · exact wp_pure.mpr (some _ ‹_›)
  · exact wp_throw.mpr (none ‹_›)

theorem startTransport_wp (base : Base s₀ w₀ s w) (none : s.transport = none) :
    startTransport.wp scan.ctx
      (fun _ s' w' => (∃ transport, s' = { s with transport := some transport }) ∧
        Base s₀ w₀ s' w')
      (fun _ => Base s₀ w₀) s w := by
  unfold startTransport
  refine wp_bind.mpr (present_wp (fun sock _ => ?_) fun _ => base)
  refine wp_bind.mpr (wp_ncall ?_ ?_)
  swap
  · rintro e w' rfl
    exact base
  rintro transport w' ⟨-, rfl⟩
  have base' : Base s₀ w₀ { s with transport := some transport } { w with
      transports := w.transports + 1, openTransports := transport :: w.openTransports } :=
    { base with transports := by simp [base.transports, none] }
  refine wp_bind.mpr (wp_assign.mpr (wp_bind.mpr ?_))
  have start : (ncall (.startClient transport)).wp scan.ctx
      (fun _ s' w' => (∃ transport, s' = { s with transport := some transport }) ∧
        Base s₀ w₀ s' w') (fun _ => Base s₀ w₀) { s with transport := some transport } _ :=
    wp_silent (by exact fun _ _ h => h) (fun _ => ⟨⟨transport, rfl⟩, base'⟩) fun _ => base'
  unfold chooseKeyType
  refine wp_bind.mpr (wp_self.mpr ?_)
  split
  · exact start
  · exact wp_silent (by exact fun _ _ h => h) (fun _ => start) fun _ => base'

/-- The next key type is tried, unless there is none. -/
theorem nextKey_wp (base : Base s₀ w₀ s w) (bound : -1 ≤ s.keyIndex) :
    nextKey.wp scan.ctx
      (fun _ s' w' => Base s₀ w₀ s' w' ∧ StateInv s' ∧ s'.complete = s.complete ∧
        s'.keyTypes = s.keyTypes ∧
        (s'.state = .complete ∨ s'.state = .connectingKey ∧ s'.keyIndex = s.keyIndex + 1))
      (fun _ => Base s₀ w₀) s w := by
  unfold nextKey
  refine wp_bind.mpr (wp_mono (close_wp base) ?_ fun _ _ _ h => h)
  rintro - _ w₁ ⟨rfl, base₁⟩
  refine wp_bind.mpr (wp_assign.mpr (wp_bind.mpr (wp_self.mpr ?_)))
  have base₂ : Base s₀ w₀ { s with
      transport := none, sock := none, keyIndex := s.keyIndex + 1 } w₁ :=
    { base₁ with index := fun i mem => (base₁.index i mem).trans (Int.le_add_one le_rfl) }
  split
  · exact wp_assign.mpr ⟨base₂.setState .complete, trivial, rfl, rfl, .inl rfl⟩
  rename_i more
  have base₃ : Base s₀ w₀ { s with
      transport := none, sock := none, keyIndex := s.keyIndex + 1
      keyType := s.keyTypes[(s.keyIndex + 1).toNat]?
      tried := s.tried ++ [s.keyIndex + 1] } w₁ := by
    refine { base₂ with tried := ?_, index := fun i mem => ?_ }
    · refine List.pairwise_append.mpr ⟨base₁.tried, List.pairwise_singleton _ _, ?_⟩
      intro i mem j mem'
      rw [List.mem_singleton.mp mem']
      exact Int.lt_add_one_of_le (base₁.index i mem)
    · rcases List.mem_append.mp mem with old | new
      · exact base₂.index i old
      · exact (List.mem_singleton.mp new).le
  refine wp_bind.mpr (wp_assign.mpr (wp_bind.mpr (wp_mono (connect_wp base₃ rfl) ?_
    fun _ _ _ h => h)))
  rintro - s₁ w₂ ⟨⟨sock, time, rfl | rfl⟩, base₄⟩ <;>
  · refine wp_assign.mpr ⟨base₄.setState .connectingKey, ?_, rfl, rfl, .inr ⟨rfl, rfl⟩⟩
    exact ⟨rfl, by simp only; omega, not_le.mp more⟩

end Calls

/-! ### The branches -/

/-- What holds at the end of a call. -/
structure Kept (s₀ : NodescanRequest) (w₀ : Net) (s : NodescanRequest) (w : Net) : Prop extends
    Base s₀ w₀ s w where
  state : s.complete = false → StateInv s
  closed : s.complete = true → s.sock = none ∧ s.transport = none

/-- The call keeps track, and gets to `k` once the timeout has elapsed. -/
def Post (s₀ : NodescanRequest) (w₀ : Net) (k : ℤ) (s : NodescanRequest) (w : Net) : Prop :=
  Kept s₀ w₀ s w ∧ (Elapsed s₀ w₀ → s.complete = true ∨ k ≤ progress s)

/-- What holds between two branches of a call. -/
structure Mid (s₀ : NodescanRequest) (w₀ : Net) (s : NodescanRequest) (w : Net) : Prop extends
    Base s₀ w₀ s w where
  state : StateInv s
  running : s.complete = false

/-- The branches in their order. -/
def ScanState.rank : ScanState → ℕ
  | .start => 0
  | .connectingInit => 1
  | .negotiatingInit => 2
  | .connectingKey => 3
  | .negotiatingKey => 4
  | .complete => 5

/-- The call gets to `k`, if the branches from `n` on are still to come. -/
def Ahead (n : ℕ) (k : ℤ) (s : NodescanRequest) : Prop :=
  s.state = .complete ∨ k ≤ if s.state.rank < n then progress s else ahead s

section Branches

variable {s₀ s : NodescanRequest} {w₀ w : Net} {k : ℤ}

theorem Mid.kept (mid : Mid s₀ w₀ s w) : Kept s₀ w₀ s w :=
  ⟨mid.toBase, fun _ => mid.state, fun complete => absurd (mid.running.symm.trans complete) nofun⟩

/-- A call that returns because the timeout has not elapsed. -/
theorem Mid.early (mid : Mid s₀ w₀ s w) (early : ¬ Elapsed s₀ w₀) : Post s₀ w₀ k s w :=
  ⟨mid.kept, fun elapsed => absurd elapsed early⟩

theorem Ahead.next {n : ℕ} (h : Ahead n k s) (other : s.state.rank ≠ n) : Ahead (n + 1) k s := by
  refine h.imp_right fun le => le.trans (le_of_eq ?_)
  split <;> split <;> first | rfl | omega

theorem wp_untilReturn {branch : NodescanM Bool} {branches : List (NodescanM Bool)}
    {Q : Unit → NodescanRequest → Net → Prop} {E : NodescanErr → NodescanRequest → Net → Prop}
    (h : branch.wp scan.ctx (fun returned s w =>
      if returned then Q () s w else (untilReturn branches).wp scan.ctx Q E s w) E s w) :
    (untilReturn (branch :: branches)).wp scan.ctx Q E s w := by
  refine wp_bind.mpr (wp_mono h (fun returned s w h => ?_) fun _ _ _ h => h)
  cases returned <;> exact h

theorem wp_branch {state : ScanState} {body : NodescanRequest → NodescanM Bool}
    {Q : Bool → NodescanRequest → Net → Prop} {E : NodescanErr → NodescanRequest → Net → Prop}
    (other : s.state ≠ state → Q false s w) (own : s.state = state → (body s).wp scan.ctx Q E s w) :
    (do
      let r ← self
      if r.state ≠ state then pure false else body r : NodescanM Bool).wp scan.ctx Q E s w := by
  refine wp_bind.mpr (wp_self.mpr ?_)
  split
  · exact wp_pure.mpr (other ‹_›)
  · exact own (not_not.mp ‹_›)

/-- The branches of the call from the given ones on do what is asked. -/
abbrev Tail (s₀ : NodescanRequest) (w₀ : Net) (k : ℤ) (branches : List (NodescanM Bool))
    (s : NodescanRequest) (w : Net) : Prop :=
  (untilReturn branches).wp scan.ctx (fun _ => Post s₀ w₀ k) (fun _ => Base s₀ w₀) s w

theorem tail_complete (mid : Mid s₀ w₀ s w) (adv : Elapsed s₀ w₀ → Ahead 5 k s) :
    Tail s₀ w₀ k [advanceComplete] s w := by
  refine wp_untilReturn (wp_branch (fun other => ?_) fun own => ?_)
  · refine wp_pure.mpr ⟨mid.kept, fun elapsed => .inr ?_⟩
    have gets := (adv elapsed).resolve_left other
    rwa [if_pos] at gets
    cases state : s.state with
    | complete => exact absurd state other
    | _ => decide
  · refine wp_bind.mpr (wp_mono (close_wp mid.toBase) ?_ fun _ _ _ h => h)
    rintro - _ w' ⟨rfl, base⟩
    refine wp_bind.mpr (wp_assign.mpr
      (wp_pure.mpr ⟨⟨base.congr rfl rfl rfl rfl rfl rfl, ?_, ?_⟩, ?_⟩))
    · exact nofun
    · exact fun _ => ⟨rfl, rfl⟩
    · exact fun _ => .inl rfl

/-- A key type has been taken as the next one. -/
theorem tail_nextKey {branches : List (NodescanM Bool)} (base : Base s₀ w₀ s w)
    (running : s.complete = false) (bound : -1 ≤ s.keyIndex)
    (rest : ∀ s' w', Mid s₀ w₀ s' w' → (s'.state = .complete ∨
      s'.state = .connectingKey ∧ s'.keyIndex = s.keyIndex + 1) →
      Tail s₀ w₀ k branches s' w') :
    (do
      nextKey
      pure false : NodescanM Bool).wp scan.ctx (fun returned s w =>
        if returned then Post s₀ w₀ k s w else Tail s₀ w₀ k branches s w)
      (fun _ => Base s₀ w₀) s w := by
  refine wp_bind.mpr (wp_mono (nextKey_wp base bound) ?_ fun _ _ _ h => h)
  rintro - s' w' ⟨base', state, complete, -, next⟩
  exact wp_pure.mpr (rest s' w' ⟨base', state, complete.trans running⟩ next)

/-- After the next key type, nothing is left of the call. -/
theorem ahead_next {s' : NodescanRequest} (adv : Elapsed s₀ w₀ → k ≤ s.keyIndex + 3)
    (next : s'.state = .complete ∨ s'.state = .connectingKey ∧ s'.keyIndex = s.keyIndex + 1)
    (elapsed : Elapsed s₀ w₀) : Ahead 4 k s' := by
  refine next.imp_right fun ⟨state, index⟩ => ?_
  have gets : progress s' = s'.keyIndex + 2 := by rw [progress, state]
  rw [state, if_pos (by decide), gets, index]
  have := adv elapsed
  omega

theorem tail_key (mid : Mid s₀ w₀ s w) (adv : Elapsed s₀ w₀ → Ahead 4 k s) :
    Tail s₀ w₀ k [advanceKey, advanceComplete] s w := by
  refine wp_untilReturn (wp_branch (fun other => ?_) fun own => ?_)
  · exact tail_complete mid fun elapsed => (adv elapsed).next fun same => other (by
      cases state : s.state <;> rw [state] at same <;> first | rfl | cases same)
  · have inv := mid.state
    rw [StateInv, own] at inv
    have gets (elapsed : Elapsed s₀ w₀) : k ≤ s.keyIndex + 3 := by
      have := (adv elapsed).resolve_left (by rw [own]; nofun)
      rwa [own, if_neg (by decide), ahead, own] at this
    refine wp_bind.mpr (present_wp (fun transport _ => ?_) fun _ => mid.toBase)
    refine wp_bind.mpr (wp_silent (by exact fun _ _ h => h) (fun key => ?_) fun _ => mid.toBase)
    refine wp_bind.mpr (wp_assign.mpr ?_)
    refine tail_nextKey (mid.toBase.congr rfl rfl rfl rfl rfl rfl) mid.running (by simp only; omega)
      fun s' w' mid' next => tail_complete mid' fun elapsed => ?_
    refine (ahead_next gets next elapsed).next fun same => ?_
    rcases next with state | ⟨state, -⟩ <;> rw [state] at same <;> cases same

theorem rank_inj {a b : ScanState} (h : a.rank = b.rank) : a = b := by
  cases a <;> cases b <;> first | rfl | cases h

/-- The branches that follow get as far if the branch of the state is not the next one. -/
theorem Ahead.pass (state : ScanState) (h : Ahead state.rank k s) (other : s.state ≠ state) :
    Ahead (state.rank + 1) k s :=
  h.next fun same => other (rank_inj same)

/-- What is asked of a call in the state of the branch that comes next. -/
theorem Ahead.own (state : ScanState) (h : Ahead state.rank k s) (own : s.state = state)
    (running : state ≠ .complete) : k ≤ ahead s := by
  have := h.resolve_left (own ▸ running)
  rwa [own, if_neg (Nat.lt_irrefl _)] at this

/-- The time is checked, and the call returns. -/
theorem checkTimeout_tail {branches : List (NodescanM Bool)} (mid : Mid s₀ w₀ s w) :
    (do
      checkTimeout
      pure true : NodescanM Bool).wp scan.ctx (fun returned s w =>
        if returned then Post s₀ w₀ k s w else Tail s₀ w₀ k branches s w)
      (fun _ => Base s₀ w₀) s w := by
  refine wp_bind.mpr (wp_mono (checkTimeout_wp mid.toBase) ?_ fun _ _ _ h => h)
  rintro - _ w' ⟨rfl, base, early⟩
  exact wp_pure.mpr (Mid.early ⟨base, mid.state, mid.running⟩ early)

theorem tail_negotiatingKey (mid : Mid s₀ w₀ s w) (adv : Elapsed s₀ w₀ → Ahead 4 k s) :
    Tail s₀ w₀ k [advanceNegotiatingKey, advanceKey, advanceComplete] s w := by
  refine wp_untilReturn (wp_branch (fun _ => tail_key mid adv) fun own => ?_)
  have inv := mid.state
  rw [StateInv, own] at inv
  refine wp_bind.mpr (wp_silent (by exact fun _ _ h => h) (fun isSet => ?_) fun _ => mid.toBase)
  split
  · exact checkTimeout_tail mid
  -- the transport has negotiated, or has failed and the next key type is tried
  have failed : (do
      nextKey
      pure false : NodescanM Bool).wp scan.ctx (fun returned s w =>
        if returned then Post s₀ w₀ k s w
        else Tail s₀ w₀ k [advanceKey, advanceComplete] s w) (fun _ => Base s₀ w₀) s w := by
    refine tail_nextKey mid.toBase mid.running (by omega) fun s' w' mid' next => ?_
    refine tail_key mid' (ahead_next (fun elapsed => ?_) next)
    have := (adv elapsed).own .negotiatingKey own nofun
    rwa [ahead, own] at this
  refine wp_bind.mpr (wp_attempt.mpr (wp_bind.mpr (present_wp (fun transport _ => ?_) fun _ => ?_)))
  · refine wp_silent (by exact fun _ _ h => h) (fun _ => ?_) fun _ => failed
    exact wp_pure.mpr (tail_key mid adv)
  · exact failed

theorem tail_connectingKey (socketReady : Bool) (mid : Mid s₀ w₀ s w)
    (adv : Elapsed s₀ w₀ → Ahead 3 k s) :
    Tail s₀ w₀ k [advanceConnectingKey socketReady, advanceNegotiatingKey, advanceKey,
      advanceComplete] s w := by
  refine wp_untilReturn (wp_branch (fun other => ?_) fun own => ?_)
  · exact tail_negotiatingKey mid fun elapsed => (adv elapsed).pass .connectingKey other
  have inv := mid.state
  rw [StateInv, own] at inv
  have gets (elapsed : Elapsed s₀ w₀) : k ≤ s.keyIndex + 3 := by
    have := (adv elapsed).own .connectingKey own nofun
    rwa [ahead, own] at this
  split
  · exact checkTimeout_tail mid
  refine wp_bind.mpr (present_wp (fun sock _ => ?_) fun _ => mid.toBase)
  refine wp_bind.mpr (wp_silent (by exact fun _ _ h => h) (fun eno => ?_) fun _ => mid.toBase)
  split
  · refine wp_bind.mpr (wp_mono (nextKey_wp mid.toBase (by omega)) ?_ fun _ _ _ h => h)
    rintro - s' w' ⟨base, state, complete, keyTypes, next⟩
    have mid' : Mid s₀ w₀ s' w' := ⟨base, state, complete.trans mid.running⟩
    refine wp_pure.mpr ⟨mid'.kept, fun elapsed => .inr ?_⟩
    have := gets elapsed
    rcases next with next | ⟨next, index⟩
    · rw [progress, next]
      simp only [keyTypes]
      omega
    · rw [progress, next]
      simp only [index]
      omega
  · refine wp_bind.mpr (wp_mono (startTransport_wp mid.toBase inv.1) ?_ fun _ _ _ h => h)
    rintro - _ w' ⟨⟨transport, rfl⟩, base⟩
    refine wp_bind.mpr (wp_assign.mpr (wp_pure.mpr ?_))
    have mid' : Mid s₀ w₀ { s with transport := some transport, state := .negotiatingKey } w' :=
      ⟨base.setState _, inv.2, mid.running⟩
    exact tail_negotiatingKey mid' fun elapsed => .inr (gets elapsed)

theorem tail_negotiatingInit (socketReady : Bool) (mid : Mid s₀ w₀ s w)
    (adv : Elapsed s₀ w₀ → Ahead 2 k s) :
    Tail s₀ w₀ k [advanceNegotiatingInit, advanceConnectingKey socketReady,
      advanceNegotiatingKey, advanceKey, advanceComplete] s w := by
  refine wp_untilReturn (wp_branch (fun other => ?_) fun own => ?_)
  · exact tail_connectingKey socketReady mid fun elapsed =>
      (adv elapsed).pass .negotiatingInit other
  have untried := mid.state
  rw [StateInv, own] at untried
  refine wp_bind.mpr (wp_silent (by exact fun _ _ h => h) (fun isSet => ?_) fun _ => mid.toBase)
  split
  · exact checkTimeout_tail mid
  have failed : (do
      tryAgain
      checkTimeout
      connect
      pure true : NodescanM Bool).wp scan.ctx (fun returned s w =>
        if returned then Post s₀ w₀ k s w
        else Tail s₀ w₀ k [advanceConnectingKey socketReady, advanceNegotiatingKey, advanceKey,
          advanceComplete] s w) (fun _ => Base s₀ w₀) s w := by
    refine wp_bind.mpr (wp_bind.mpr (wp_mono (close_wp mid.toBase) ?_ fun _ _ _ h => h))
    rintro - _ w₁ ⟨rfl, base₁⟩
    refine wp_assign.mpr (wp_bind.mpr (wp_mono (checkTimeout_wp (base₁.setState .start)) ?_
      fun _ _ _ h => h))
    rintro - _ w₂ ⟨rfl, base₂, early⟩
    refine wp_bind.mpr (wp_mono (connect_wp base₂ rfl) ?_ fun _ _ _ h => h)
    rintro - _ w₃ ⟨⟨sock, time, rfl | rfl⟩, base₃⟩ <;>
      exact wp_pure.mpr (Mid.early ⟨base₃, ⟨untried, rfl⟩, mid.running⟩ early)
  refine wp_bind.mpr (wp_attempt.mpr (wp_bind.mpr (present_wp (fun transport _ => ?_) fun _ => ?_)))
  swap
  · exact failed
  refine wp_silent (by exact fun _ _ h => h) (fun _ => ?_) fun _ => failed
  refine wp_bind.mpr (present_wp (fun transport _ => ?_) fun _ => mid.toBase)
  refine wp_bind.mpr (wp_silent (by exact fun _ _ h => h) (fun keyTypes => ?_) fun _ => mid.toBase)
  have base : Base s₀ w₀ { s with keyTypes := keyTypes, keyIndex := -1 } w :=
    { mid.toBase with index := fun i mem => by simp [untried] at mem }
  refine wp_bind.mpr (wp_assign.mpr
    (tail_nextKey base mid.running le_rfl fun s' w' mid' next => ?_))
  refine tail_connectingKey socketReady mid' fun elapsed => next.imp_right fun ⟨state, index⟩ => ?_
  have gets : k ≤ 3 := by
    have := (adv elapsed).own .negotiatingInit own nofun
    rwa [ahead, own] at this
  rw [state, if_neg (by decide), ahead, state]
  simp only [index]
  omega

theorem tail_connectingInit (socketReady : Bool) (mid : Mid s₀ w₀ s w)
    (adv : Elapsed s₀ w₀ → Ahead 1 k s) :
    Tail s₀ w₀ k [advanceConnectingInit socketReady, advanceNegotiatingInit,
      advanceConnectingKey socketReady, advanceNegotiatingKey, advanceKey,
      advanceComplete] s w := by
  refine wp_untilReturn (wp_branch (fun other => ?_) fun own => ?_)
  · exact tail_negotiatingInit socketReady mid fun elapsed =>
      (adv elapsed).pass .connectingInit other
  have untried := mid.state
  rw [StateInv, own] at untried
  -- the attempt is given up, to be made again by the next call
  have again {w' : Net} (base : Base s₀ w₀ { s with transport := none, sock := none } w')
      (early : ¬ Elapsed s₀ w₀) :
      Post s₀ w₀ k { s with transport := none, sock := none, state := .start } w' :=
    Mid.early ⟨base.setState .start, ⟨untried.1, rfl⟩, mid.running⟩ early
  split
  · refine wp_bind.mpr (wp_mono (checkTimeout_wp mid.toBase) ?_ fun _ _ _ h => h)
    rintro - s' w₁ ⟨rfl, base₁, early⟩
    refine wp_bind.mpr (wp_ncall (fun now w' h => ?_) fun _ _ h => h.elim)
    obtain ⟨later, rfl⟩ := h
    have base₂ : Base s₀ w₀ s' { w₁ with now := now } :=
      { base₁ with clock := base₁.clock.trans later }
    refine wp_bind.mpr (wp_self.mpr ?_)
    split
    · refine wp_bind.mpr (wp_bind.mpr (wp_mono (close_wp base₂) ?_ fun _ _ _ h => h))
      rintro - _ w₃ ⟨rfl, base₃⟩
      exact wp_assign.mpr (wp_pure.mpr (again base₃ early))
    · exact wp_pure.mpr (Mid.early ⟨base₂, mid.state, mid.running⟩ early)
  refine wp_bind.mpr (present_wp (fun sock _ => ?_) fun _ => mid.toBase)
  refine wp_bind.mpr (wp_silent (by exact fun _ _ h => h) (fun eno => ?_) fun _ => mid.toBase)
  split
  · refine wp_bind.mpr (wp_bind.mpr (wp_mono (close_wp mid.toBase) ?_ fun _ _ _ h => h))
    rintro - _ w₁ ⟨rfl, base₁⟩
    refine wp_assign.mpr (wp_bind.mpr (wp_mono (checkTimeout_wp (base₁.setState .start)) ?_
      fun _ _ _ h => h))
    rintro - _ w₂ ⟨rfl, base₂, early⟩
    exact wp_pure.mpr (again (base₂.congr rfl rfl rfl rfl rfl rfl) early)
  have gets (elapsed : Elapsed s₀ w₀) : k ≤ 3 := by
    have := (adv elapsed).own .connectingInit own nofun
    rwa [ahead, own] at this
  refine wp_bind.mpr (wp_self.mpr ?_)
  split
  · refine wp_bind.mpr (wp_mono (startTransport_wp mid.toBase untried.2) ?_ fun _ _ _ h => h)
    rintro - _ w' ⟨⟨transport, rfl⟩, base⟩
    refine wp_bind.mpr (wp_assign.mpr (wp_pure.mpr ?_))
    have mid' : Mid s₀ w₀ { s with transport := some transport, state := .negotiatingInit } w' :=
      ⟨base.setState _, untried.1, mid.running⟩
    exact tail_negotiatingInit socketReady mid' fun elapsed => .inr (gets elapsed)
  · refine wp_bind.mpr (wp_assign.mpr (wp_pure.mpr ?_))
    have mid' : Mid s₀ w₀ { s with state := .complete } w :=
      ⟨mid.toBase.setState _, trivial, mid.running⟩
    exact tail_negotiatingInit socketReady mid' fun _ => .inl rfl

/-- No connection has been made at once that the next call would forget. -/
def Clear (s : NodescanRequest) : Prop := s.state = .start → s.sock = none

instance (s : NodescanRequest) : Decidable (Clear s) := inferInstanceAs (Decidable (_ → _))

theorem advance_wp (socketReady : Bool) (mid : Mid s₀ w₀ s w) (clear : Clear s)
    (adv : Elapsed s₀ w₀ → Ahead 0 k s) :
    (advance socketReady).wp scan.ctx (fun _ => Post s₀ w₀ k) (fun _ => Base s₀ w₀) s w := by
  refine wp_untilReturn (wp_branch (fun other => ?_) fun own => ?_)
  · exact tail_connectingInit socketReady mid fun elapsed =>
      (adv elapsed).pass .start other
  have untried := mid.state
  rw [StateInv, own] at untried
  have gets (elapsed : Elapsed s₀ w₀) : k ≤ 1 := by
    have := (adv elapsed).own .start own nofun
    rwa [ahead, own] at this
  have complete (keys : List String) :
      Mid s₀ w₀ { s with keys := keys, state := .complete } w :=
    ⟨mid.toBase.congr rfl rfl rfl rfl rfl rfl, trivial, mid.running⟩
  split
  · exact wp_throw.mpr mid.toBase
  split
  · exact wp_bind.mpr (wp_assign.mpr (wp_pure.mpr
      (tail_connectingInit socketReady (complete s.keys) fun _ => .inl rfl)))
  split
  · exact wp_bind.mpr (wp_assign.mpr (wp_pure.mpr
      (tail_connectingInit socketReady (complete _) fun _ => .inl rfl)))
  refine wp_bind.mpr (wp_mono (connect_wp mid.toBase (clear own)) ?_ fun _ _ _ h => h)
  rintro - _ w' ⟨⟨sock, time, rfl | rfl⟩, base⟩
  · have mid' : Mid s₀ w₀ { s with sock := some sock, connectStartTime := time } w' := by
      refine ⟨base, ?_, mid.running⟩
      rw [StateInv, own]
      exact untried
    refine wp_pure.mpr (tail_connectingInit socketReady mid' fun elapsed => .inr ?_)
    simp only [own, progress, ScanState.rank, Nat.zero_lt_one, if_true]
    exact gets elapsed
  · have mid' : Mid s₀ w₀ { s with
        sock := some sock, connectStartTime := time, state := .connectingInit } w' :=
      ⟨base, untried, mid.running⟩
    refine wp_pure.mpr (tail_connectingInit socketReady mid' fun elapsed => .inr ?_)
    change k ≤ 3
    exact (gets elapsed).trans (by decide)

theorem fail_wp (e : NodescanErr) (base : Base s₀ w₀ s w)
    {E : NodescanErr → NodescanRequest → Net → Prop} :
    (fail e).wp scan.ctx (fun _ => Post s₀ w₀ k) E s w := by
  have base₁ : Base s₀ w₀ { s with exception := some e } w := base.congr rfl rfl rfl rfl rfl rfl
  refine wp_bind.mpr (wp_assign.mpr (wp_bind.mpr (wp_mono (close_wp base₁) ?_ fun _ _ _ h => h)))
  rintro - _ w' ⟨rfl, base₂⟩
  refine wp_assign.mpr ⟨⟨base₂.congr rfl rfl rfl rfl rfl rfl, nofun, fun _ => ⟨rfl, rfl⟩⟩, ?_⟩
  exact fun _ => .inl rfl

end Branches

/-! ### A call -/

/-- What holds of a request between two calls. -/
structure ScanInv (s : NodescanRequest) (w : Net) : Prop where
  sockets : w.openSockets = s.sock.toList
  transports : w.openTransports = s.transport.toList
  tried : s.tried.Pairwise (· < ·)
  index : ∀ i ∈ s.tried, i ≤ s.keyIndex
  state : s.complete = false → StateInv s
  closed : s.complete = true → s.sock = none ∧ s.transport = none

/-- What a call does between two states. -/
structure Called (s : NodescanRequest) (w : Net) (s' : NodescanRequest) (w' : Net) : Prop where
  inv : ScanInv s' w'
  startTime : s'.startTime = s.startTime
  timeout : s'.timeout = s.timeout
  clock : w.now ≤ w'.now
  complete : s.complete = true → s'.complete = true
  further : Elapsed s w → s'.complete = true ∨ progress s + 1 ≤ progress s'

section Drive

variable {s : NodescanRequest} {w : Net}

/-- The step lemma: a call keeps track of what is open, and gets on if the timeout has elapsed. -/
theorem drive_wp (socketReady : Bool) (inv : ScanInv s w) (clear : Clear s) :
    (drive socketReady).wp scan.ctx (fun _ => Called s w) (fun _ _ _ => False) s w := by
  have base : Base s w s w :=
    ⟨inv.sockets, inv.transports, inv.tried, inv.index, rfl, rfl, le_rfl⟩
  refine wp_bind.mpr (wp_self.mpr ?_)
  split
  · rename_i complete
    exact wp_pure.mpr ⟨inv, rfl, rfl, le_rfl, id, fun _ => .inl complete⟩
  rename_i running
  have mid : Mid s w s w :=
    ⟨base, inv.state (eq_false_of_ne_true running), eq_false_of_ne_true running⟩
  have post {s' : NodescanRequest} {w' : Net} (h : Post s w (progress s + 1) s' w') :
      Called s w s' w' := by
    obtain ⟨kept, gets⟩ := h
    exact ⟨⟨kept.sockets, kept.transports, kept.tried, kept.index, kept.state, kept.closed⟩,
      kept.startTime, kept.timeout, kept.clock, fun complete => absurd complete running, gets⟩
  have ahead : Ahead 0 (progress s + 1) s := by
    unfold Ahead
    rw [if_neg (Nat.not_lt_zero _), progress, ahead]
    cases state : s.state with
    | start =>
        rw [if_pos (clear state)]
        exact .inr le_rfl
    | connectingInit | negotiatingInit => exact .inr (show (0 : ℤ) + 1 ≤ 3 by decide)
    | connectingKey | negotiatingKey =>
        exact .inr (show s.keyIndex + 2 + 1 ≤ s.keyIndex + 3 by omega)
    | complete => exact .inl rfl
  refine wp_tryCatch.mpr (wp_mono (advance_wp socketReady mid clear fun _ => ahead) ?_ ?_)
  · exact fun _ _ _ h => post h
  · exact fun e s' w' base => wp_mono (fail_wp e base) (fun _ _ _ h => post h) fun _ _ _ h => h

theorem progress_nonneg (inv : StateInv s) : 0 ≤ progress s := by
  unfold StateInv at inv
  unfold progress
  cases state : s.state <;> rw [state] at inv
  case start => dsimp only; split <;> decide
  all_goals simp only; omega

theorem progress_le (inv : StateInv s) : progress s ≤ s.keyTypes.length + 2 := by
  unfold StateInv at inv
  unfold progress
  cases state : s.state <;> rw [state] at inv
  case start => dsimp only; split <;> omega
  all_goals simp only; omega

end Drive

/-! ### Runs -/

/-- So many calls are made of `advance`, whatever the outcomes. -/
inductive Calls : ℕ → NodescanRequest → Net → NodescanRequest → Net → Prop where
  | refl {s : NodescanRequest} {w : Net} : Calls 0 s w s w
  | tail {n : ℕ} {s s₁ s₂ : NodescanRequest} {w w₁ w₂ : Net} {socketReady : Bool}
      (calls : Calls n s w s₁ w₁) (clear : Clear s₁) (call : scan.Step s₁ w₁ socketReady s₂ w₂) :
      Calls (n + 1) s w s₂ w₂

section Calls

variable {s s' : NodescanRequest} {w w' : Net} {n : ℕ}

theorem ScanInv.step {socketReady : Bool} (inv : ScanInv s w) (clear : Clear s)
    (call : scan.Step s w socketReady s' w') : Called s w s' w' :=
  call.sound (wp_mono (drive_wp socketReady inv clear) (fun _ _ _ h => h) fun _ _ _ h => h.elim)

/-- The run lemma. -/
theorem Calls.inv (calls : Calls n s w s' w') (inv : ScanInv s w) : ScanInv s' w' := by
  induction calls with
  | refl => exact inv
  | tail _ clear call ih => exact ((ih inv).step clear call).inv

/-- Each call after the timeout completes the request or gets on. -/
theorem Calls.elapsed (calls : Calls n s w s' w') (inv : ScanInv s w) (elapsed : Elapsed s w) :
    Elapsed s' w' ∧ (s'.complete = true ∨ n ≤ progress s') := by
  induction calls with
  | @refl s w =>
      refine ⟨elapsed, ?_⟩
      cases complete : s.complete with
      | true => exact .inl rfl
      | false => exact .inr (progress_nonneg (inv.state complete))
  | tail before clear call ih =>
      obtain ⟨elapsed₁, gets⟩ := ih inv elapsed
      have called := (before.inv inv).step clear call
      refine ⟨?_, ?_⟩
      · unfold Elapsed at elapsed₁ ⊢
        rw [called.startTime, called.timeout]
        exact elapsed₁.trans_le called.clock
      · rcases gets with done | gets
        · exact .inl (called.complete done)
        · refine (called.further elapsed₁).imp_right fun h => ?_
          push_cast
          omega

/-- What is asked of a request at any time. -/
structure ScanRight (s : NodescanRequest) (w : Net) : Prop where
  /-- no key type is tried twice -/
  tried : s.tried.Nodup
  /-- a complete request has closed everything -/
  closed : s.complete = true → w.openSockets = [] ∧ w.openTransports = []
  /-- after the timeout, the request is complete after so many calls -/
  completes : Elapsed s w → ∀ n s' w', Calls n s w s' w' → s'.keyTypes.length + 2 < n →
    s'.complete = true

theorem ScanInv.right (inv : ScanInv s w) : ScanRight s w := by
  constructor
  · exact inv.tried.imp ne_of_lt
  · intro complete
    obtain ⟨sock, transport⟩ := inv.closed complete
    rw [inv.sockets, inv.transports, sock, transport]
    exact ⟨rfl, rfl⟩
  · intro elapsed n s' w' calls many
    obtain ⟨-, complete | gets⟩ := calls.elapsed inv elapsed
    · exact complete
    by_contra running
    have := progress_le ((calls.inv inv).state (eq_false_of_ne_true running))
    omega

theorem ScanInv.new (hostKeyChecking gatherHostkeys fake : Bool) (timeout now : ℕ) :
    ScanInv (.new hostKeyChecking gatherHostkeys fake timeout now) (.init now) :=
  ⟨rfl, rfl, .nil, nofun, fun _ => ⟨rfl, rfl⟩, nofun⟩

/-- For all outcomes of all calls, as long as no call is made in state START with a socket that a
connection that was made at once has left open: no key type is tried twice, what is complete is
closed, and after the timeout the request is complete after as many calls as there are key types
and three more. -/
theorem scan_right {hostKeyChecking gatherHostkeys fake : Bool} {timeout now : ℕ}
    (calls : Calls n (.new hostKeyChecking gatherHostkeys fake timeout now) (.init now) s w) :
    ScanRight s w :=
  (calls.inv (ScanInv.new hostKeyChecking gatherHostkeys fake timeout now)).right

end Calls

/-! ### A scan of two keys -/

/-- Every connection is delayed, and the host has two keys. -/
def speaking : Answer NodescanSig Net := fun w c =>
  match c with
  | .monotonic => (.ok (w.now + 1), { w with now := w.now + 1 })
  | .socket =>
      (.ok w.sockets, { w with
        sockets := w.sockets + 1, openSockets := w.sockets :: w.openSockets })
  | .connect _ => (.error .blockingIoError, w)
  | .closeSocket sock => (.ok (), { w with openSockets := w.openSockets.erase sock })
  | .transport _ =>
      (.ok w.transports, { w with
        transports := w.transports + 1, openTransports := w.transports :: w.openTransports })
  | .closeTransport transport =>
      (.ok (), { w with openTransports := w.openTransports.erase transport })
  | .getsockopt _ => (.ok (0 : ℕ), w)
  | .eventIsSet => (.ok true, w)
  | .getKeyTypes _ => (.ok ["ssh-ed25519", "ssh-rsa"], w)
  | .getRemoteServerKey _ => (.ok (some "key"), w)
  | .register _ | .unregister _ | .setKeyTypes _ _ | .startClient _ | .checkTransport _ =>
      (.ok (), w)

theorem speaking_allowed (w : Net) (c : NodescanCall) :
    w.Next c (speaking w c).1 (speaking w c).2 := by
  cases c with
  | monotonic => exact ⟨Nat.le_add_right _ _, rfl⟩
  | socket | transport => exact ⟨rfl, rfl⟩
  | _ => rfl

def exampleRequest : NodescanRequest := .new true true false 300 0

/-- What three calls lead to: the connection, the first key and the second one. -/
def scanned : NodescanRequest × Net :=
  scan.replay speaking exampleRequest (.init 0) [false, true, true]

theorem exists_calls_of_run {s s' : NodescanRequest} {w w' : Net}
    (run : scan.Run (fun s _ _ => Clear s) s w s' w') : ∃ n, Calls n s w s' w' := by
  induction run with
  | refl => exact ⟨0, .refl⟩
  | tail _ clear step ih =>
      obtain ⟨n, calls⟩ := ih
      exact ⟨n + 1, calls.tail clear step⟩

theorem scan_right_speaking : scanned.1.complete = true ∧ scanned.1.tried = [0, 1] ∧
    scanned.1.keys = ["key", "key"] ∧ ScanRight scanned.1 scanned.2 := by
  have allowed : Serial.Allowed (T := scan) (fun s _ _ => Clear s) speaking exampleRequest
      (.init 0) [false, true, true] :=
    ⟨(by decide : Clear _), (by decide : Clear _), (by decide : Clear _), trivial⟩
  obtain ⟨n, calls⟩ := exists_calls_of_run
    (Serial.replay_run_of_allowed speaking_allowed allowed)
  exact ⟨by decide, by decide, by decide, scan_right calls⟩

/-! ### Two calls -/

/-- A world in which the first connections are made at once and the others are delayed, and in
which nothing else happens while time passes. -/
def silence (immediate : ℕ) : Answer NodescanSig Net := fun w c =>
  match c with
  | .monotonic => (.ok (w.now + 200), { w with now := w.now + 200 })
  | .socket =>
      (.ok w.sockets, { w with
        sockets := w.sockets + 1, openSockets := w.sockets :: w.openSockets })
  | .connect sock => (if sock < immediate then .ok () else .error .blockingIoError, w)
  | .register _ | .unregister _ => (.ok (), w)
  | .closeSocket sock => (.ok (), { w with openSockets := w.openSockets.erase sock })
  | .closeTransport transport =>
      (.ok (), { w with openTransports := w.openTransports.erase transport })
  | _ => (.error .other, w)

theorem silence_allowed (immediate : ℕ) (w : Net) (c : NodescanCall) :
    w.Next c (silence immediate w c).1 (silence immediate w c).2 := by
  cases c with
  | monotonic => exact ⟨Nat.le_add_right _ _, rfl⟩
  | socket => exact ⟨rfl, rfl⟩
  | connect sock =>
      unfold silence
      dsimp only
      split <;> rfl
  | _ => rfl

/-- What the calls lead to, with a socket that is never ready. -/
def silent (immediate calls : ℕ) : NodescanRequest × Net :=
  scan.replay (silence immediate) exampleRequest (.init 0) (List.replicate calls false)

/-- A connection that is made at once is forgotten by the next call, and its socket stays open
when the request is complete. -/
theorem silent_not_closed :
    scan.Run (fun _ _ _ => True) exampleRequest (.init 0) (silent 1 2).1 (silent 1 2).2 ∧
      (silent 1 2).1.complete = true ∧ (silent 1 2).2.openSockets = [0] ∧
      ¬ ScanRight (silent 1 2).1 (silent 1 2).2 := by
  have still : (silent 1 2).1.complete = true ∧ (silent 1 2).2.openSockets = [0] := by decide
  refine ⟨Serial.replay_run (silence_allowed 1) fun _ _ _ _ => trivial, still.1, still.2, ?_⟩
  intro right
  have := (right.closed still.1).1
  rw [still.2] at this
  cases this

end Nodepool.Nodescan
