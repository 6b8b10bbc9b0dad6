import Nodepool.Launcher.AssignHandlers

/-!
The label quota over one pass of `_assignHandlers`. It is taken once, before the loop,
and only counted down afterwards, so a label that has run out stays out until the pass
ends, however often the pass yields in between: no request of lower priority gets the
nodes that a deferred request waits for.
-/

namespace Nodepool.AssignHandlers

variable {S : Type} (w : Worker S)

/-- A request that the pass comes to, the state in which it does, and what it decides. -/
structure Visit (S : Type) where
  state : State S
  request : NodeRequest
  outcome : Outcome

/-- What the loop over the sorted requests considers, with the states in between. -/
def visits : List NodeRequest → State S → List (Visit S)
  | [], _ => []
  | req :: reqs, s =>
      if w.running s.world then
        match yieldIfLate w s with
        | (.error _, _) => []
        | (.ok (), s) =>
            match consider w s req with
            | (.raised e, _) => [⟨s, req, .raised e⟩]
            | (o, s') => ⟨s, req, o⟩ :: visits reqs s'
      else []

/-- The visits are those of the pass. -/
theorem considered_eq (reqs : List NodeRequest) : ∀ s : State S,
    (loop w reqs s).considered = (visits w reqs s).map fun v => (v.request, v.outcome) := by
  induction reqs with
  | nil => exact fun _ => rfl
  | cons req reqs ih =>
      intro s
      rw [loop, visits]
      split
      case isFalse => rfl
      case isTrue =>
        rcases yieldIfLate w s with ⟨e | _, s₁⟩
        · rfl
        · dsimp only
          rcases consider w s₁ req with ⟨o, s₂⟩
          cases o
          case raised e => rfl
          all_goals exact congrArg _ (ih s₂)

/-- The visits of a pass. If the key of a request raises, there are none. -/
def passVisits (requests : List NodeRequest) (s : State S) : List (Visit S) :=
  match Sorted.sorted (sortKey w.pool) requests with
  | .error _ => []
  | .ok requests => visits w requests s

/-- No quota is left for the label. -/
def Exhausted (label : String) (s : State S) : Prop :=
  ∃ quota, s.labelQuota = some quota ∧ (quota.table.get label .inf).isPositive = false

/-! ### The label quota is only counted down -/

theorem decrement_exhausted {quota : LabelQuotas} {label : String}
    (h : (quota.table.get label .inf).isPositive = false) (nodeType : String) :
    ((quota.decrement nodeType).table.get label .inf).isPositive = false := by
  unfold LabelQuotas.decrement
  by_cases same : label = nodeType
  · subst same
    have mem : label ∈ quota.table := by
      by_contra absent
      rw [Dict.get_of_notMem absent] at h
      cases h
    -- the label is listed, so that its default is not used
    have read : quota.table.get label quota.missing = quota.table.get label .inf :=
      Option.some_inj.mp ((Dict.lookup_eq_get_of_mem mem _).symm.trans
        (Dict.lookup_eq_get_of_mem mem _))
    rw [Dict.get_insert, read]
    exact Number.isPositive_sub_one h
  · rwa [Dict.get_insert_ne same]

theorem adjust_exhausted {quota : LabelQuotas} {label : String}
    (h : (quota.table.get label .inf).isPositive = false) (nodeset : List (List String)) :
    ((adjust quota nodeset).table.get label .inf).isPositive = false := by
  unfold adjust
  induction nodeset.flatten generalizing quota with
  | nil => exact h
  | cons t ts ih => exact ih (decrement_exhausted h t)

variable {w} {label : String} {s s' : State S} {req : NodeRequest}

theorem Exhausted.congr (h : Exhausted label s) (same : s'.labelQuota = s.labelQuota) :
    Exhausted label s' := by
  obtain ⟨quota, hq, hn⟩ := h
  exact ⟨quota, same.trans hq, hn⟩

/-- Yielding leaves the label quota as it is. -/
theorem Exhausted.yieldIfLate (h : Exhausted label s) :
    Exhausted label (yieldIfLate w s).2 := by
  refine h.congr ?_
  unfold AssignHandlers.yieldIfLate
  split
  · cases w.betweenChunks s.world with
    | mk outcome world => cases outcome <;> rfl
  · rfl

theorem Exhausted.handle (h : Exhausted label s) (reasons : List Reason) :
    Exhausted label (handle w s req reasons).2 := by
  unfold AssignHandlers.handle
  split
  · split
    case h_1 => exact h.congr rfl
    case h_2 rh world _ =>
      obtain ⟨quota, hq, hn⟩ := h
      exact ⟨adjust quota rh.nodeset, by rw [hq]; rfl, adjust_exhausted hn _⟩
  · split
    case h_1 => exact h.congr rfl
    case h_2 => exact h.congr rfl

theorem Exhausted.release (h : Exhausted label s) (o : Outcome) :
    Exhausted label (release w s req o).2 := by
  unfold AssignHandlers.release
  split
  case h_1 => exact h.congr rfl
  case h_2 => exact h.congr rfl

theorem Exhausted.lockAndHandle (h : Exhausted label s) (reasons : List Reason) :
    Exhausted label (lockAndHandle w s req reasons).2 := by
  unfold AssignHandlers.lockAndHandle
  split
  case h_1 => exact h.congr rfl
  case h_2 => exact h.congr rfl
  case h_3 => exact h.congr rfl
  case h_4 current world _ =>
    have h' : Exhausted label { s with world := world } := h.congr rfl
    dsimp only
    split
    case isTrue => exact h'.release _
    case isFalse =>
      split
      case isTrue => exact h'.release _
      case isFalse => exact h'.handle reasons

/-- One request does not bring back a label. -/
theorem Exhausted.consider (h : Exhausted label s) : Exhausted label (consider w s req).2 := by
  unfold AssignHandlers.consider
  split
  case h_1 => exact h
  case h_2 =>
    split
    case h_1 => exact h
    case h_2 reasons _ =>
      split
      case isTrue => exact h
      case isFalse =>
        split
        case isTrue => exact h
        case isFalse => exact h.lockAndHandle reasons

/-! ### Requests that need the label -/

/-- A request for a label without quota is passed over before it is locked. -/
theorem Exhausted.deferred (h : Exhausted label s) (mem : label ∈ req.nodeTypes) :
    (deferred w s req).isSome = true := by
  have unavailable : labelsUnavailable s req = true := by
    obtain ⟨quota, hq, hn⟩ := h
    unfold labelsUnavailable
    rw [hq]
    exact List.any_eq_true.mpr ⟨label, mem, by rw [hn]; rfl⟩
  unfold AssignHandlers.deferred
  rw [if_pos unavailable]
  split_ifs <;> rfl

theorem deferred_ne_assigned {o : Outcome} (h : deferred w s req = some o) : o ≠ .assigned := by
  unfold deferred at h
  rintro rfl
  split_ifs at h <;> cases h

/-- A visit in which the request is passed over before it is locked. -/
def Visit.PassedOver (w : Worker S) (v : Visit S) : Prop :=
  (deferred w v.state v.request).isSome = true ∧ v.outcome ≠ .assigned

/-- Every visit from a state on in which a label has run out. -/
theorem Exhausted.visits (reqs : List NodeRequest) : ∀ {s : State S}, Exhausted label s →
    ∀ v ∈ visits w reqs s, label ∈ v.request.nodeTypes → v.PassedOver w := by
  induction reqs with
  | nil => exact fun _ _ hv => (nomatch hv)
  | cons req reqs ih =>
      intro s h v hv mem
      rw [AssignHandlers.visits] at hv
      split at hv
      case isFalse => cases hv
      case isTrue =>
        split at hv
        case h_1 => cases hv
        case h_2 s₁ hy =>
          have h₁ : Exhausted label s₁ := by
            have := h.yieldIfLate (w := w)
            rwa [hy] at this
          -- the outcome is the one for which the request is deferred
          have first : ∀ o s₂, AssignHandlers.consider w s₁ req = (o, s₂) →
              label ∈ req.nodeTypes → Visit.PassedOver w ⟨s₁, req, o⟩ := by
            intro o s₂ hc mem
            obtain ⟨o', ho'⟩ := Option.isSome_iff_exists.mp (h₁.deferred (w := w) mem)
            unfold AssignHandlers.consider at hc
            rw [ho'] at hc
            cases hc
            exact ⟨by rw [ho']; rfl, deferred_ne_assigned ho'⟩
          split at hv
          case h_1 e s₂ hc =>
            cases List.mem_singleton.mp hv
            exact first _ _ hc mem
          case h_2 o s₂ _ hc =>
            rcases List.mem_cons.mp hv with rfl | hv
            · exact first _ _ hc mem
            · have h₂ : Exhausted label s₂ := by
                have kept : Exhausted label (AssignHandlers.consider w s₁ req).2 := h₁.consider
                rwa [hc] at kept
              exact ih h₂ v hv mem

/-- Of two requests of one pass, the later one does not get a label for want of which the
earlier one was deferred. -/
def NoInversion (w : Worker S) (earlier later : Visit S) : Prop :=
  earlier.outcome = .labelsUnavailable →
    ∀ label ∈ earlier.request.nodeTypes, Exhausted label earlier.state →
      label ∈ later.request.nodeTypes → later.PassedOver w

theorem pairwise_visits (reqs : List NodeRequest) :
    ∀ s : State S, (visits w reqs s).Pairwise (NoInversion w) := by
  induction reqs with
  | nil => exact fun _ => .nil
  | cons req reqs ih =>
      intro s
      rw [visits]
      split
      case isFalse => exact .nil
      case isTrue =>
        split
        case h_1 => exact .nil
        case h_2 s₁ _ =>
          split
          case h_1 => exact List.pairwise_singleton _ _
          case h_2 o s₂ _ hc =>
            refine .cons ?_ (ih s₂)
            intro v hv _ label _ h mem
            have h₂ : Exhausted label s₂ := by
              have kept : Exhausted label (consider w s₁ req).2 := h.consider
              rwa [hc] at kept
            exact h₂.visits reqs v hv mem

variable (w)

/-- In one pass over any requests, with any label quota and whatever happens between the
requests, a request that needs a label for want of which an earlier one was deferred is
passed over. -/
theorem no_priority_inversion (requests : List NodeRequest) (s : State S) :
    (assignHandlers w requests s).considered =
        (passVisits w requests s).map (fun v => (v.request, v.outcome)) ∧
      (passVisits w requests s).Pairwise (NoInversion w) := by
  unfold assignHandlers passVisits
  cases Sorted.sorted (sortKey w.pool) requests with
  | error e => exact ⟨rfl, .nil⟩
  | ok requests => exact ⟨considered_eq w requests s, pairwise_visits requests s⟩

end Nodepool.AssignHandlers
