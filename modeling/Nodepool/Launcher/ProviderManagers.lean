import Mathlib.Data.List.Induction
import Nodepool.Base.Dict

/-!
`ProviderManager.reconfigure` of `nodepool/provider_manager.py`, and the two callers of
it, `NodePool.updateConfig` in the launcher and the workers of the builder.

What the drivers do to make and to start a manager is given as an outcome for each
provider. `idle` and `stop` do not raise in any driver; that they were called is kept in
a history.
-/

namespace Nodepool.ProviderManager

/-! ### Configurations of providers -/

/-- A `ProviderConfig`. The class of the object goes with its driver; the values of the
other attributes are taken up to their own equality, and `none` is `None`. -/
structure ProviderConfig (V : Type) where
  name : String
  driver : String
  attributes : Dict String (Option V)

namespace ProviderConfig

variable {V : Type} [DecidableEq V]

/-- `ConfigValue.__eq__`; an attribute that is missing compares as `None`. -/
def eq (p q : ProviderConfig V) : Bool :=
  decide (p.name = q.name) && decide (p.driver = q.driver) &&
    (p.attributes.keys ++ q.attributes.keys).all fun k =>
      decide (p.attributes.get k none = q.attributes.get k none)

theorem eq_iff {p q : ProviderConfig V} : p.eq q = true ↔
    p.name = q.name ∧ p.driver = q.driver ∧
      ∀ k, p.attributes.get k none = q.attributes.get k none := by
  unfold eq
  rw [Bool.and_eq_true, Bool.and_eq_true, decide_eq_true_iff, decide_eq_true_iff, and_assoc,
    List.all_eq_true]
  refine and_congr_right fun _ => and_congr_right fun _ => ?_
  constructor
  · intro h k
    by_cases hk : k ∈ p.attributes.keys ++ q.attributes.keys
    · exact of_decide_eq_true (h k hk)
    · rw [List.mem_append, not_or, AList.mem_keys.symm.not, AList.mem_keys.symm.not] at hk
      rw [Dict.get_of_notMem hk.1, Dict.get_of_notMem hk.2]
  · exact fun h k _ => decide_eq_true (h k)

theorem eq_refl (p : ProviderConfig V) : p.eq p = true := eq_iff.mpr ⟨rfl, rfl, fun _ => rfl⟩

theorem eq_symm {p q : ProviderConfig V} (h : p.eq q = true) : q.eq p = true := by
  obtain ⟨name, driver, attributes⟩ := eq_iff.mp h
  exact eq_iff.mpr ⟨name.symm, driver.symm, fun k => (attributes k).symm⟩

theorem eq_trans {p q r : ProviderConfig V} (h : p.eq q = true) (h' : q.eq r = true) :
    p.eq r = true := by
  obtain ⟨name, driver, attributes⟩ := eq_iff.mp h
  obtain ⟨name', driver', attributes'⟩ := eq_iff.mp h'
  exact eq_iff.mpr ⟨name.trans name', driver.trans driver',
    fun k => (attributes k).trans (attributes' k)⟩

end ProviderConfig

/-! ### Managers -/

/-- A manager; the number stands for the identity of the object. -/
structure Manager (V : Type) where
  id : Nat
  provider : ProviderConfig V

inductive Event where
  | started (id : Nat)
  | idled (id : Nat)
  | stopped (id : Nat)
deriving DecidableEq, Repr

/-- The managers made so far, and what was done with them. -/
structure History where
  next : Nat
  log : List Event

/-- What becomes of making and starting a manager. -/
inductive Start where
  | notMade
  | notStarted
  | started
deriving DecidableEq, Repr

variable {V : Type} [DecidableEq V]

/-- The variables of the loop of `reconfigure`. -/
structure Loop (V : Type) where
  history : History
  /-- `new_config.provider_managers` -/
  managers : Dict String (Manager V)
  stopManagers : List (Manager V)

/-- A manager whose provider has changed is idled, and stopped after the loop. -/
def Loop.retire (loop : Loop V) (m : Manager V) : Loop V :=
  { loop with
    history := { loop.history with log := loop.history.log ++ [.idled m.id] }
    stopManagers := loop.stopManagers ++ [m] }

def Loop.keep (loop : Loop V) (name : String) (m : Manager V) : Loop V :=
  { loop with managers := loop.managers.insert name m }

/-- Make and start a manager; an exception is logged. -/
def Loop.start (loop : Loop V) (p : ProviderConfig V) : Start → Loop V
  | .notMade => loop
  | .notStarted => { loop with history := { loop.history with next := loop.history.next + 1 } }
  | .started =>
      { loop with
        history := ⟨loop.history.next + 1, loop.history.log ++ [.started loop.history.next]⟩
        managers := loop.managers.insert p.name ⟨loop.history.next, p⟩ }

section
variable (manageImages : String → Bool) (onlyImageManager : Bool)

/-- The provider is not skipped. -/
def Managed (p : ProviderConfig V) : Prop :=
  ¬ (onlyImageManager = true ∧ manageImages p.driver = false)

instance (p : ProviderConfig V) : Decidable (Managed manageImages onlyImageManager p) := by
  unfold Managed; infer_instance

/-- One provider of the new configuration. -/
def visit (old : Dict String (Manager V)) (outcome : String → Start) (loop : Loop V)
    (p : ProviderConfig V) : Loop V :=
  if Managed manageImages onlyImageManager p then
    match old.lookup p.name with
    | none => loop.start p (outcome p.name)
    | some m =>
        if p.eq m.provider then loop.keep p.name m
        else (loop.retire m).start p (outcome p.name)
  else loop

/-- `reconfigure`: the managers of the new configuration. -/
def reconfigure (old : Dict String (Manager V)) (providers : List (ProviderConfig V))
    (outcome : String → Start) (history : History) : Dict String (Manager V) × History :=
  let loop := providers.foldl (visit manageImages onlyImageManager old outcome)
    ⟨history, ∅, []⟩
  (loop.managers,
    { loop.history with log := loop.history.log ++ loop.stopManagers.map fun m => .stopped m.id })

/-- A configuration that has been read, with what becomes of starting its providers.
The providers are stored by name. -/
structure Reload (V : Type) where
  providers : List (ProviderConfig V)
  nodup : (providers.map (·.name)).Nodup
  outcome : String → Start

/-- The configuration of a process and its managers. A process that has read none yet
has no managers, and neither has the first configuration that a builder compares with
itself. -/
structure State (V : Type) where
  providers : List (ProviderConfig V)
  managers : Dict String (Manager V)
  history : History

def State.init : State V := ⟨[], ∅, ⟨0, []⟩⟩

/-- Read a configuration. The launcher then deletes the providers without a manager,
the workers of the builder, which manage images only, do not. -/
def reload (s : State V) (r : Reload V) : State V :=
  let (managers, history) :=
    reconfigure manageImages onlyImageManager s.managers r.providers r.outcome s.history
  { providers :=
      if onlyImageManager then r.providers
      else r.providers.filter fun p => (managers.lookup p.name).isSome
    managers := managers
    history := history }

def run (reloads : List (Reload V)) : State V :=
  reloads.foldl (reload manageImages onlyImageManager) .init

/-! ### What the loop does -/

variable {manageImages onlyImageManager}

/-- The manager of a provider whose configuration has not changed. -/
def Keeps (old : Dict String (Manager V)) (p : ProviderConfig V) (m : Manager V) : Prop :=
  old.lookup p.name = some m ∧ p.eq m.provider = true

/-- A manager that was made and started for a provider since `before`. -/
structure Made (before now : History) (p : ProviderConfig V) (m : Manager V) : Prop where
  provider : m.provider = p
  fresh : before.next ≤ m.id
  below : m.id < now.next
  started : .started m.id ∈ now.log

/-- A history that another one continues, without stopping anything. -/
structure Continues (before now : History) : Prop where
  next : before.next ≤ now.next
  log : ∀ e ∈ before.log, e ∈ now.log
  stops : ∀ id, now.log.count (.stopped id) = before.log.count (.stopped id)

theorem Continues.refl (h : History) : Continues h h := ⟨le_rfl, fun _ he => he, fun _ => rfl⟩

theorem Continues.trans {h₁ h₂ h₃ : History} (h : Continues h₁ h₂) (h' : Continues h₂ h₃) :
    Continues h₁ h₃ :=
  ⟨Nat.le_trans h.next h'.next, fun e he => h'.log e (h.log e he),
    fun id => (h'.stops id).trans (h.stops id)⟩

theorem Continues.append (h : History) (n : Nat) {e : Event} (he : ∀ id, e ≠ .stopped id) :
    Continues h ⟨h.next + n, h.log ++ [e]⟩ := by
  refine ⟨Nat.le_add_right _ _, fun _ => List.mem_append_left _, fun id => ?_⟩
  rw [List.count_append, List.count_singleton, if_neg (by simpa using he id), Nat.add_zero]

omit [DecidableEq V] in
theorem Made.continues {before now later : History} {p : ProviderConfig V} {m : Manager V}
    (h : Made before now p m) (c : Continues now later) : Made before later p m :=
  ⟨h.provider, h.fresh, Nat.lt_of_lt_of_le h.below c.next, c.log _ h.started⟩

/-- The managers after the loop has gone over the providers `done`. -/
structure Visited (manageImages : String → Bool) (onlyImageManager : Bool)
    (old : Dict String (Manager V)) (outcome : String → Start) (before : History)
    (done : List (ProviderConfig V)) (loop : Loop V) : Prop where
  continues : Continues before loop.history
  origin : ∀ name m, loop.managers.lookup name = some m →
    ∃ p ∈ done, p.name = name ∧ Managed manageImages onlyImageManager p ∧
      (Keeps old p m ∨ Made before loop.history p m)
  keeps : ∀ p ∈ done, Managed manageImages onlyImageManager p → ∀ m, Keeps old p m →
    loop.managers.lookup p.name = some m
  makes : ∀ p ∈ done, Managed manageImages onlyImageManager p → (∀ m, ¬ Keeps old p m) →
    outcome p.name = .started →
      ∃ m, loop.managers.lookup p.name = some m ∧ Made before loop.history p m
  distinct : ∀ n n' m m', loop.managers.lookup n = some m → loop.managers.lookup n' = some m' →
    before.next ≤ m.id → m.id = m'.id → m = m'

namespace Visited

variable {old : Dict String (Manager V)} {outcome : String → Start} {before : History}
  {done : List (ProviderConfig V)} {loop : Loop V}

theorem nil : Visited manageImages onlyImageManager old outcome before []
    (⟨before, ∅, []⟩ : Loop V) where
  continues := .refl before
  origin := fun name m h => by rw [AList.lookup_empty] at h; cases h
  keeps := fun _ h => (nomatch h)
  makes := fun _ h => (nomatch h)
  distinct := fun n n' m m' h => by rw [AList.lookup_empty] at h; cases h

/-- What is done to the history and to the managers to be stopped leaves the others. -/
theorem withHistory (h : Visited manageImages onlyImageManager old outcome before done loop)
    {history : History} (c : Continues loop.history history) (stops : List (Manager V)) :
    Visited manageImages onlyImageManager old outcome before done
      ⟨history, loop.managers, stops⟩ where
  continues := h.continues.trans c
  origin := fun name m hm => by
    obtain ⟨p, hp, hname, managed, from'⟩ := h.origin name m hm
    exact ⟨p, hp, hname, managed, from'.imp_right fun made => made.continues c⟩
  keeps := h.keeps
  makes := fun p hp managed changed started => by
    obtain ⟨m, hm, made⟩ := h.makes p hp managed changed started
    exact ⟨m, hm, made.continues c⟩
  distinct := h.distinct

/-- A provider that gets no manager. -/
theorem pass (h : Visited manageImages onlyImageManager old outcome before done loop)
    {p : ProviderConfig V}
    (none : Managed manageImages onlyImageManager p →
      (∀ m, ¬ Keeps old p m) ∧ outcome p.name ≠ .started) :
    Visited manageImages onlyImageManager old outcome before (done ++ [p]) loop where
  continues := h.continues
  origin := fun name m hm => by
    obtain ⟨q, hq, rest⟩ := h.origin name m hm
    exact ⟨q, List.mem_append_left _ hq, rest⟩
  keeps := fun q hq managed m hk => by
    rcases List.mem_append.mp hq with hq | hq
    · exact h.keeps q hq managed m hk
    · rw [List.mem_singleton] at hq
      subst hq
      exact absurd hk ((none managed).1 m)
  makes := fun q hq managed changed started => by
    rcases List.mem_append.mp hq with hq | hq
    · exact h.makes q hq managed changed started
    · rw [List.mem_singleton] at hq
      subst hq
      exact absurd started (none managed).2
  distinct := h.distinct

/-- A provider that gets a manager, its own or a new one. -/
theorem insert (h : Visited manageImages onlyImageManager old outcome before done loop)
    {p : ProviderConfig V} (managed : Managed manageImages onlyImageManager p)
    (new : ∀ q ∈ done, q.name ≠ p.name) {m : Manager V}
    (from' : Keeps old p m ∨ (∀ m, ¬ Keeps old p m) ∧ Made before loop.history p m)
    (apart : ∀ name m', loop.managers.lookup name = some m' → before.next ≤ m.id ∨
      before.next ≤ m'.id → m'.id ≠ m.id) :
    Visited manageImages onlyImageManager old outcome before (done ++ [p])
      { loop with managers := loop.managers.insert p.name m } where
  continues := h.continues
  origin := fun name m' hm => by
    by_cases hn : name = p.name
    · subst hn
      rw [AList.lookup_insert, Option.some.injEq] at hm
      subst hm
      exact ⟨p, List.mem_append_right _ (List.mem_singleton_self p), rfl, managed,
        from'.imp_right (·.2)⟩
    · rw [AList.lookup_insert_ne hn] at hm
      obtain ⟨q, hq, rest⟩ := h.origin name m' hm
      exact ⟨q, List.mem_append_left _ hq, rest⟩
  keeps := fun q hq managed' m' hk => by
    rcases List.mem_append.mp hq with hq | hq
    · rw [AList.lookup_insert_ne (new q hq)]
      exact h.keeps q hq managed' m' hk
    · rw [List.mem_singleton] at hq
      subst hq
      rw [AList.lookup_insert]
      rcases from' with kept | ⟨changed, -⟩
      · exact kept.1.symm.trans hk.1
      · exact absurd hk (changed m')
  makes := fun q hq managed' changed started => by
    rcases List.mem_append.mp hq with hq | hq
    · obtain ⟨m', hm', made⟩ := h.makes q hq managed' changed started
      exact ⟨m', by rw [AList.lookup_insert_ne (new q hq)]; exact hm', made⟩
    · rw [List.mem_singleton] at hq
      subst hq
      rcases from' with kept | ⟨-, made⟩
      · exact absurd kept (changed m)
      · exact ⟨m, AList.lookup_insert _, made⟩
  distinct := fun n n' m₁ m₂ h₁ h₂ fresh same => by
    by_cases hn : n = p.name <;> by_cases hn' : n' = p.name
    · subst hn hn'
      exact Option.some.inj (h₁.symm.trans h₂)
    · subst hn
      rw [AList.lookup_insert, Option.some.injEq] at h₁
      subst h₁
      rw [AList.lookup_insert_ne hn'] at h₂
      exact absurd same.symm (apart n' m₂ h₂ (.inl fresh))
    · subst hn'
      rw [AList.lookup_insert, Option.some.injEq] at h₂
      subst h₂
      rw [AList.lookup_insert_ne hn] at h₁
      exact absurd same (apart n m₁ h₁ (.inr fresh))
    · rw [AList.lookup_insert_ne hn] at h₁
      rw [AList.lookup_insert_ne hn'] at h₂
      exact h.distinct n n' m₁ m₂ h₁ h₂ fresh same

/-- A new manager has a number that no manager has yet. -/
theorem start (h : Visited manageImages onlyImageManager old outcome before done loop)
    (below : ∀ name m, old.lookup name = some m → m.id < before.next)
    {p : ProviderConfig V} (managed : Managed manageImages onlyImageManager p)
    (new : ∀ q ∈ done, q.name ≠ p.name) (changed : ∀ m, ¬ Keeps old p m) :
    Visited manageImages onlyImageManager old outcome before (done ++ [p])
      (loop.start p (outcome p.name)) := by
  cases ho : outcome p.name with
  | notMade => exact h.pass fun _ => ⟨changed, by rw [ho]; decide⟩
  | notStarted =>
      have c : Continues loop.history { loop.history with next := loop.history.next + 1 } :=
        ⟨Nat.le_succ _, fun _ he => he, fun _ => rfl⟩
      exact (h.withHistory c loop.stopManagers).pass fun _ => ⟨changed, by rw [ho]; decide⟩
  | started =>
      have c := Continues.append loop.history 1 (e := .started loop.history.next)
        (fun _ he => by cases he)
      refine (h.withHistory c loop.stopManagers).insert managed new (.inr ⟨changed, ?_⟩) ?_
      · exact ⟨rfl, h.continues.next, Nat.lt_succ_self _,
          List.mem_append_right _ (List.mem_singleton_self _)⟩
      · rintro name m' hm' -
        obtain ⟨q, -, -, -, kept | made⟩ := h.origin name m' hm'
        · exact Nat.ne_of_lt (Nat.lt_of_lt_of_le (below _ _ kept.1) h.continues.next)
        · exact Nat.ne_of_lt made.below

theorem visit (h : Visited manageImages onlyImageManager old outcome before done loop)
    (below : ∀ name m, old.lookup name = some m → m.id < before.next)
    {p : ProviderConfig V} (new : ∀ q ∈ done, q.name ≠ p.name) :
    Visited manageImages onlyImageManager old outcome before (done ++ [p])
      (visit manageImages onlyImageManager old outcome loop p) := by
  unfold ProviderManager.visit
  split
  case isFalse skipped => exact h.pass fun managed => absurd managed skipped
  case isTrue managed =>
    split
    case h_1 absent =>
      refine h.start below managed new ?_
      rintro m ⟨hm, -⟩
      rw [absent] at hm
      cases hm
    case h_2 m hm =>
      split
      case isTrue same =>
        refine h.insert managed new (.inl ⟨hm, same⟩) ?_
        intro name m' _ fresh
        have := below _ _ hm
        omega
      case isFalse changed =>
        refine (h.withHistory (.append _ 0 (e := .idled m.id) fun _ he => by cases he)
          (loop.stopManagers ++ [m])).start below managed new ?_
        rintro m' ⟨hm', same⟩
        rw [hm, Option.some.injEq] at hm'
        exact changed (hm' ▸ same)

theorem fold (below : ∀ name m, old.lookup name = some m → m.id < before.next)
    {providers : List (ProviderConfig V)} :
    ∀ {done : List (ProviderConfig V)} {loop : Loop V},
      Visited manageImages onlyImageManager old outcome before done loop →
      ((done ++ providers).map (·.name)).Nodup →
        Visited manageImages onlyImageManager old outcome before (done ++ providers)
          (providers.foldl (ProviderManager.visit manageImages onlyImageManager old outcome)
            loop) := by
  induction providers with
  | nil =>
      intro done loop h _
      rw [List.append_nil]
      exact h
  | cons p providers ih =>
      intro done loop h nodup
      have new : ∀ q ∈ done, q.name ≠ p.name := by
        intro q hq same
        rw [List.map_append, List.map_cons, List.nodup_append] at nodup
        exact nodup.2.2 _ (List.mem_map_of_mem hq) _ List.mem_cons_self same
      have := ih (h.visit below new) (by rwa [List.append_assoc])
      rwa [List.append_assoc] at this

end Visited

/-! ### Which managers are stopped -/

/-- The manager of a provider whose configuration has changed. -/
def changedManager (old : Dict String (Manager V)) (p : ProviderConfig V) :
    Option (Manager V) :=
  (old.lookup p.name).filter fun m => !p.eq m.provider

theorem changedManager_eq_some {old : Dict String (Manager V)} {p : ProviderConfig V}
    {m : Manager V} :
    changedManager old p = some m ↔ old.lookup p.name = some m ∧ ¬ p.eq m.provider = true := by
  unfold changedManager
  rw [Option.filter_eq_some_iff]
  simp

omit [DecidableEq V] in
theorem stopManagers_start (loop : Loop V) (p : ProviderConfig V) (start : Start) :
    (loop.start p start).stopManagers = loop.stopManagers := by
  cases start <;> rfl

theorem stopManagers_visit (old : Dict String (Manager V)) (outcome : String → Start)
    (loop : Loop V) (p : ProviderConfig V) :
    (visit manageImages onlyImageManager old outcome loop p).stopManagers =
      loop.stopManagers ++
        if Managed manageImages onlyImageManager p then (changedManager old p).toList else [] := by
  unfold visit changedManager
  split
  case isFalse => rw [List.append_nil]
  case isTrue =>
    split
    case h_1 absent =>
      rw [stopManagers_start, absent]
      exact (List.append_nil _).symm
    case h_2 m hm =>
      rw [hm]
      split
      case isTrue same => simp [Loop.keep, same]
      case isFalse changed =>
        rw [stopManagers_start]
        simp [Loop.retire, Option.filter, changed]

theorem stopManagers_fold (old : Dict String (Manager V)) (outcome : String → Start)
    (providers : List (ProviderConfig V)) : ∀ loop : Loop V,
    (providers.foldl (visit manageImages onlyImageManager old outcome) loop).stopManagers =
      loop.stopManagers ++ (providers.filter fun p =>
        Managed manageImages onlyImageManager p).filterMap (changedManager old) := by
  induction providers with
  | nil => exact fun loop => (List.append_nil _).symm
  | cons p providers ih =>
      intro loop
      rw [List.foldl_cons, ih, stopManagers_visit, List.append_assoc, List.filter_cons]
      congr 1
      by_cases managed : Managed manageImages onlyImageManager p
      · rw [if_pos managed, if_pos (decide_eq_true managed), List.filterMap_cons]
        cases changedManager old p <;> rfl
      · rw [if_neg managed, if_neg (by simpa using managed), List.nil_append]

/-! ### What holds of the managers at every moment -/

structure Invariant (s : State V) : Prop where
  below : ∀ name m, s.managers.lookup name = some m → m.id < s.history.next
  /-- The manager of a provider has its configuration. -/
  current : ∀ name m, s.managers.lookup name = some m →
    m.provider.name = name ∧ ∃ q ∈ s.providers, q.name = name ∧ q.eq m.provider = true
  named : ∀ p ∈ s.providers, ∀ q ∈ s.providers, p.name = q.name → p = q
  distinct : ∀ n n' m m', s.managers.lookup n = some m → s.managers.lookup n' = some m' →
    m.id = m'.id → m = m'
  unstopped : ∀ name m, s.managers.lookup name = some m →
    s.history.log.count (.stopped m.id) = 0
  stopped : ∀ id, s.history.next ≤ id → s.history.log.count (.stopped id) = 0

/-- The managers of a state that a reload replaces, and the number of times that each of
them is stopped. -/
def stopCount (manageImages : String → Bool) (onlyImageManager : Bool) (s : State V)
    (r : Reload V) (id : Nat) : Nat :=
  (((r.providers.filter fun p => Managed manageImages onlyImageManager p).filterMap
    (changedManager s.managers)).map fun m => Event.stopped m.id).count (.stopped id)

theorem visited_reload {s : State V} (h : Invariant s) (r : Reload V) :
    Visited manageImages onlyImageManager s.managers r.outcome s.history r.providers
      (r.providers.foldl (visit manageImages onlyImageManager s.managers r.outcome)
        ⟨s.history, ∅, []⟩) :=
  Visited.nil.fold h.below r.nodup

/-- The history after a reload, up to the managers that are stopped at its end. -/
theorem count_reload {s : State V} (h : Invariant s) (r : Reload V) (id : Nat) :
    (reload manageImages onlyImageManager s r).history.log.count (.stopped id) =
      s.history.log.count (.stopped id) +
        stopCount manageImages onlyImageManager s r id := by
  unfold reload reconfigure stopCount
  dsimp only
  rw [List.count_append, (visited_reload h r).continues.stops, stopManagers_fold,
    List.nil_append]

/-- A reload has a changed configuration for the provider of a manager. -/
def Retires (manageImages : String → Bool) (onlyImageManager : Bool) (s : State V) (r : Reload V)
    (m : Manager V) : Prop :=
  ∃ p ∈ r.providers, Managed manageImages onlyImageManager p ∧
    changedManager s.managers p = some m

theorem stopCount_of_retires {s : State V} (h : Invariant s) {r : Reload V} {m : Manager V}
    (retires : Retires manageImages onlyImageManager s r m) :
    stopCount manageImages onlyImageManager s r m.id = 1 := by
  obtain ⟨p, hp, managed, changed⟩ := retires
  unfold stopCount
  refine List.count_eq_one_of_mem ?_ ?_
  · -- two providers have different names, and so do the providers of their managers
    rw [List.Nodup, List.pairwise_map, List.pairwise_filterMap]
    refine List.Pairwise.filter _ (List.Pairwise.imp ?_ (List.pairwise_map.mp r.nodup))
    intro p q ne m hm m' hm' same
    obtain ⟨hp, -⟩ := changedManager_eq_some.mp hm
    obtain ⟨hq, -⟩ := changedManager_eq_some.mp hm'
    have : m = m' := h.distinct _ _ _ _ hp hq (Event.stopped.inj same)
    subst this
    exact ne ((h.current _ _ hp).1.symm.trans (h.current _ _ hq).1)
  · refine List.mem_map.mpr ⟨m, List.mem_filterMap.mpr ⟨p, ?_, changed⟩, rfl⟩
    exact List.mem_filter.mpr ⟨hp, decide_eq_true managed⟩

theorem retires_of_stopCount {s : State V} {r : Reload V} {id : Nat}
    (h : stopCount manageImages onlyImageManager s r id ≠ 0) :
    ∃ m, m.id = id ∧ Retires manageImages onlyImageManager s r m := by
  unfold stopCount at h
  obtain ⟨m, hm, same⟩ := List.mem_map.mp (List.count_pos_iff.mp (Nat.pos_of_ne_zero h))
  obtain ⟨p, hp, changed⟩ := List.mem_filterMap.mp hm
  obtain ⟨hp, managed⟩ := List.mem_filter.mp hp
  exact ⟨m, Event.stopped.inj same, p, hp, of_decide_eq_true managed, changed⟩

/-- A manager that is in use after a reload is not stopped by it. -/
theorem stopCount_of_lookup {s : State V} (h : Invariant s) {r : Reload V} {name : String}
    {m : Manager V}
    (hm : (reload manageImages onlyImageManager s r).managers.lookup name = some m) :
    stopCount manageImages onlyImageManager s r m.id = 0 := by
  by_contra stops
  obtain ⟨m', same, q, hq, managed, changed⟩ := retires_of_stopCount stops
  obtain ⟨hm', ne⟩ := changedManager_eq_some.mp changed
  obtain ⟨p, hp, -, -, kept | made⟩ := (visited_reload h r).origin name m hm
  · have : m' = m := h.distinct _ _ _ _ hm' kept.1 same
    subst this
    have names : q.name = p.name := (h.current _ _ hm').1.symm.trans (h.current _ _ kept.1).1
    have : q = p := List.inj_on_of_nodup_map r.nodup hq hp names
    exact ne (this ▸ kept.2)
  · have := h.below _ _ hm'
    have := made.fresh
    omega

theorem Invariant.init : Invariant (State.init : State V) where
  below := fun name m h => by cases h
  current := fun name m h => by cases h
  named := fun _ h => (nomatch h)
  distinct := fun n n' m m' h => by cases h
  unstopped := fun name m h => by cases h
  stopped := fun _ _ => rfl

theorem mem_providers_reload {s : State V} {r : Reload V} {p : ProviderConfig V}
    (hp : p ∈ r.providers) {m : Manager V}
    (hm : (reload manageImages onlyImageManager s r).managers.lookup p.name = some m) :
    p ∈ (reload manageImages onlyImageManager s r).providers := by
  unfold reload
  dsimp only
  split
  · exact hp
  · exact List.mem_filter.mpr ⟨hp, Option.isSome_iff_exists.mpr ⟨m, hm⟩⟩

theorem mem_of_mem_providers_reload {s : State V} {r : Reload V} {p : ProviderConfig V}
    (hp : p ∈ (reload manageImages onlyImageManager s r).providers) : p ∈ r.providers := by
  unfold reload at hp
  dsimp only at hp
  split at hp
  · exact hp
  · exact List.mem_of_mem_filter hp

theorem Invariant.reload {s : State V} (h : Invariant s) (r : Reload V) :
    Invariant (reload manageImages onlyImageManager s r) := by
  have visited : Visited manageImages onlyImageManager s.managers r.outcome s.history r.providers
      (r.providers.foldl (visit manageImages onlyImageManager s.managers r.outcome)
        ⟨s.history, ∅, []⟩) := visited_reload h r
  refine ⟨?_, ?_, ?_, ?_, ?_, ?_⟩
  · intro name m hm
    obtain ⟨p, -, -, -, kept | made⟩ := visited.origin name m hm
    · exact Nat.lt_of_lt_of_le (h.below _ _ kept.1) visited.continues.next
    · exact made.below
  · intro name m hm
    obtain ⟨p, hp, rfl, -, kept | made⟩ := visited.origin name m hm
    · exact ⟨(h.current _ _ kept.1).1, p, mem_providers_reload hp hm, rfl, kept.2⟩
    · obtain rfl := made.provider
      exact ⟨rfl, m.provider, mem_providers_reload hp hm, rfl, m.provider.eq_refl⟩
  · intro p hp q hq names
    exact List.inj_on_of_nodup_map r.nodup (mem_of_mem_providers_reload hp)
      (mem_of_mem_providers_reload hq) names
  · intro n n' m m' hm hm' same
    obtain ⟨p, -, -, -, kept | made⟩ := visited.origin n m hm
    · obtain ⟨q, -, -, -, kept' | made'⟩ := visited.origin n' m' hm'
      · exact h.distinct _ _ _ _ kept.1 kept'.1 same
      · have := h.below _ _ kept.1
        have := made'.fresh
        omega
    · exact visited.distinct n n' m m' hm hm' made.fresh same
  · intro name m hm
    rw [count_reload h, stopCount_of_lookup h hm, Nat.add_zero]
    obtain ⟨p, -, -, -, kept | made⟩ := visited.origin name m hm
    · exact h.unstopped _ _ kept.1
    · exact h.stopped _ made.fresh
  · intro id hid
    have later : s.history.next ≤ id := Nat.le_trans visited.continues.next hid
    rw [count_reload h, h.stopped id later, Nat.zero_add]
    by_contra stops
    obtain ⟨m, rfl, q, -, -, changed⟩ := retires_of_stopCount stops
    have := h.below _ _ (changedManager_eq_some.mp changed).1
    omega

theorem invariant_run (reloads : List (Reload V)) :
    Invariant (run manageImages onlyImageManager reloads) := by
  induction reloads using List.reverseRecOn with
  | nil => exact .init
  | append_singleton reloads r ih =>
      unfold run at ih ⊢
      rw [List.foldl_append]
      exact ih.reload r

/-! ### Managers across reloads -/

/-- The managers are settled after a reload. -/
structure Settled (manageImages : String → Bool) (onlyImageManager : Bool) (s : State V)
    (r : Reload V) (s' : State V) : Prop where
  /-- A provider whose configuration is unchanged keeps its manager. -/
  unchanged : ∀ p ∈ r.providers, Managed manageImages onlyImageManager p →
    ∀ q ∈ s.providers, p.eq q = true → ∀ m, s.managers.lookup p.name = some m →
      s'.managers.lookup p.name = some m
  /-- Every other provider has a new manager if that could be started. -/
  started : ∀ p ∈ r.providers, Managed manageImages onlyImageManager p →
    (∀ q ∈ s.providers, p.eq q = true → s.managers.lookup p.name = none) →
      r.outcome p.name = .started →
        ∃ m, s'.managers.lookup p.name = some m ∧ Made s.history s'.history p m
  /-- A manager is in use, or has been stopped once. -/
  retired : ∀ name m, s.managers.lookup name = some m →
    ((∃ n, s'.managers.lookup n = some m) ∧ s'.history.log.count (.stopped m.id) = 0) ∨
      ((∀ n, s'.managers.lookup n ≠ some m) ∧ s'.history.log.count (.stopped m.id) = 1)

/-- The new configuration still has every provider that has a manager, and a process
that manages images only still manages those of the provider. -/
def Covers (manageImages : String → Bool) (onlyImageManager : Bool) (s : State V)
    (r : Reload V) : Prop :=
  ∀ name m, s.managers.lookup name = some m →
    ∃ p ∈ r.providers, p.name = name ∧ Managed manageImages onlyImageManager p

theorem keeps_of_eq {s : State V} (h : Invariant s) {p q : ProviderConfig V} {m : Manager V}
    (hq : q ∈ s.providers) (same : p.eq q = true) (hm : s.managers.lookup p.name = some m) :
    Keeps s.managers p m := by
  obtain ⟨-, q', hq', hname, current⟩ := h.current _ _ hm
  have : q = q' := h.named q hq q' hq' ((ProviderConfig.eq_iff.mp same).1.symm.trans hname.symm)
  exact ⟨hm, ProviderConfig.eq_trans same (this ▸ current)⟩

theorem unchanged_reload {s : State V} (h : Invariant s) (r : Reload V) :
    ∀ p ∈ r.providers, Managed manageImages onlyImageManager p →
      ∀ q ∈ s.providers, p.eq q = true → ∀ m, s.managers.lookup p.name = some m →
        (reload manageImages onlyImageManager s r).managers.lookup p.name = some m :=
  fun p hp managed _ hq same m hm =>
    (visited_reload h r).keeps p hp managed m (keeps_of_eq h hq same hm)

theorem started_reload {s : State V} (h : Invariant s) (r : Reload V) :
    ∀ p ∈ r.providers, Managed manageImages onlyImageManager p →
      (∀ q ∈ s.providers, p.eq q = true → s.managers.lookup p.name = none) →
        r.outcome p.name = .started →
          ∃ m, (reload manageImages onlyImageManager s r).managers.lookup p.name = some m ∧
            Made s.history (reload manageImages onlyImageManager s r).history p m := by
  intro p hp managed changed starts
  have none : ∀ m, ¬ Keeps s.managers p m := by
    rintro m ⟨hm, same⟩
    obtain ⟨-, q, hq, -, current⟩ := h.current _ _ hm
    have absent := changed q hq (ProviderConfig.eq_trans same (ProviderConfig.eq_symm current))
    rw [hm] at absent
    cases absent
  obtain ⟨m, hm, made⟩ := (visited_reload h r).makes p hp managed none starts
  exact ⟨m, hm, made.provider, made.fresh, made.below, List.mem_append_left _ made.started⟩

theorem retired_reload_iff {s : State V} (h : Invariant s) (r : Reload V) :
    (∀ name m, s.managers.lookup name = some m →
      ((∃ n, (reload manageImages onlyImageManager s r).managers.lookup n = some m) ∧
        (reload manageImages onlyImageManager s r).history.log.count (.stopped m.id) = 0) ∨
      ((∀ n, (reload manageImages onlyImageManager s r).managers.lookup n ≠ some m) ∧
        (reload manageImages onlyImageManager s r).history.log.count (.stopped m.id) = 1)) ↔
      Covers manageImages onlyImageManager s r := by
  constructor
  · intro retired name m hm
    rcases retired name m hm with ⟨⟨n, hn⟩, -⟩ | ⟨-, once⟩
    · obtain ⟨p, hp, -, managed, kept | made⟩ := (visited_reload h r).origin n m hn
      · exact ⟨p, hp, (h.current _ _ kept.1).1.symm.trans (h.current _ _ hm).1, managed⟩
      · have := h.below _ _ hm
        have := made.fresh
        omega
    · rw [count_reload h, h.unstopped _ _ hm, Nat.zero_add] at once
      obtain ⟨m', same, p, hp, managed, changed⟩ :=
        retires_of_stopCount (by rw [once]; exact Nat.one_ne_zero)
      obtain ⟨hm', -⟩ := changedManager_eq_some.mp changed
      have : m' = m := h.distinct _ _ _ _ hm' hm same
      subst this
      exact ⟨p, hp, (h.current _ _ hm').1.symm.trans (h.current _ _ hm).1, managed⟩
  · intro covers name m hm
    obtain ⟨p, hp, rfl, managed⟩ := covers name m hm
    by_cases same : p.eq m.provider = true
    · have used := (visited_reload h r).keeps p hp managed m ⟨hm, same⟩
      exact .inl ⟨⟨p.name, used⟩, (h.reload r).unstopped p.name m used⟩
    · have once : (reload manageImages onlyImageManager s r).history.log.count
          (.stopped m.id) = 1 := by
        rw [count_reload h, h.unstopped _ _ hm, Nat.zero_add]
        exact stopCount_of_retires h ⟨p, hp, managed, changedManager_eq_some.mpr ⟨hm, same⟩⟩
      refine .inr ⟨fun n used => ?_, once⟩
      rw [(h.reload r).unstopped n m used] at once
      cases once

theorem settled_reload_iff {s : State V} (h : Invariant s) (r : Reload V) :
    Settled manageImages onlyImageManager s r (reload manageImages onlyImageManager s r) ↔
      Covers manageImages onlyImageManager s r := by
  rw [← retired_reload_iff h r]
  exact ⟨fun settled => settled.retired,
    fun retired => ⟨unchanged_reload h r, started_reload h r, retired⟩⟩

/-- Over any sequence of configurations, the managers are settled after every reload
exactly when none of the reloads leaves out a provider that has a manager. -/
theorem settled_iff (manageImages : String → Bool) (onlyImageManager : Bool)
    (reloads : List (Reload V)) :
    (∀ past r, past ++ [r] <+: reloads →
      Settled manageImages onlyImageManager (run manageImages onlyImageManager past) r
        (run manageImages onlyImageManager (past ++ [r]))) ↔
    ∀ past r, past ++ [r] <+: reloads →
      Covers manageImages onlyImageManager (run manageImages onlyImageManager past) r := by
  refine forall_congr' fun past => forall_congr' fun r => forall_congr' fun _ => ?_
  rw [← settled_reload_iff (invariant_run past) r, run, run, List.foldl_append]
  rfl

/-! ### A provider that is removed -/

def exampleProvider : ProviderConfig String := ⟨"cloud", "aws", ∅⟩

def exampleReload : Reload String where
  providers := [exampleProvider]
  nodup := List.nodup_singleton _
  outcome := fun _ => .started

def exampleRemoval : Reload String where
  providers := []
  nodup := List.nodup_nil
  outcome := fun _ => .started

/-- The manager of a provider that is removed is never stopped. -/
theorem not_forall_settled :
    ¬ ∀ (manageImages : String → Bool) (onlyImageManager : Bool) (reloads : List (Reload String))
        (past : List (Reload String)) (r : Reload String), past ++ [r] <+: reloads →
      Settled manageImages onlyImageManager (run manageImages onlyImageManager past) r
        (run manageImages onlyImageManager (past ++ [r])) := by
  intro h
  have settled := h (fun _ => true) false [exampleReload, exampleRemoval] [exampleReload]
    exampleRemoval (List.prefix_refl _)
  rcases settled.retired "cloud" ⟨0, exampleProvider⟩ rfl with ⟨⟨n, hn⟩, -⟩ | ⟨-, once⟩
  · cases hn
  · exact absurd once (by decide)

end

end Nodepool.ProviderManager
