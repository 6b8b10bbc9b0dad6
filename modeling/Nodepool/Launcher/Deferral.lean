import Mathlib.Data.Finset.Max
import Nodepool.Zk.Models

/-!
The three rules by which `PoolWorker._assignHandlers` leaves a request to other
pools: to the provider the request prefers, to candidates of higher priority, and
to pools that support the labels it lacks itself.

All pools evaluate the rules on the same registry. `exists_passesDeferral_iff`
says when some pool is left that does not defer: the first two rules rank the
candidates differently, and a cycle between them leaves nobody.
-/

namespace Nodepool

/-- The candidate launchers for the nodes of a request. -/
def candidateLauncherPools (launcherPools : List PoolComponent) (req : NodeRequest) :
    List PoolComponent :=
  launcherPools.filter fun x => req.nodeTypes ⊆ x.supportedLabels ∧ x.id ∉ req.declinedBy

/-- What one pool worker of a launcher is configured with. -/
structure PoolWorker where
  launcherId : String
  providerName : String
  poolName : String
  /-- `pool.labels` -/
  labels : List String
  /-- `pool.priority` and `provider.priority` -/
  poolPriority : Option Int
  providerPriority : Option Int
deriving DecidableEq, Repr

namespace PoolWorker

def getPriority (w : PoolWorker) : Int := w.poolPriority.getD (w.providerPriority.getD 100)

/-- The component that the worker registers, and keeps up to date. -/
def componentInfo (w : PoolWorker) (paused : Bool) : PoolComponent where
  id := w.launcherId
  name := w.poolName
  providerName := w.providerName
  supportedLabels := w.labels
  priority := w.getPriority
  paused := paused

variable (w : PoolWorker) (launcherPools : List PoolComponent) (req : NodeRequest)

def launcherPoolIdsForProvider : List String :=
  ((candidateLauncherPools launcherPools req).filter
    fun x => some x.providerName = req.provider).map (·.id)

/-- Skip a request that asks for another provider which is online. -/
def yieldsToProvider : Bool :=
  truthy req.provider && req.provider ≠ some w.providerName &&
    launcherPoolIdsForProvider launcherPools req ≠ []

def launcherPoolIdsWithHigherPriority : List String :=
  ((candidateLauncherPools launcherPools req).filter
    fun x => x.priority < w.getPriority ∧ ¬ x.paused).map (·.id)

/-- A smaller number is a higher priority. -/
def yieldsToPriority : Bool :=
  launcherPoolIdsWithHigherPriority w launcherPools req ≠ []

def missingLabels : List String := req.nodeTypes.filter (· ∉ w.labels)

/-- The pool lacks labels, but a candidate is online which has them. -/
def yieldsToLabels : Bool :=
  missingLabels w req ≠ [] && candidateLauncherPools launcherPools req ≠ []

/-- The worker looks at the request, has not declined it, and gets past the rules
that leave it to others. -/
def passesDeferral : Bool :=
  req.state = .requested && w.launcherId ∉ req.declinedBy &&
    !yieldsToProvider w launcherPools req && !yieldsToPriority w launcherPools req &&
    !yieldsToLabels w launcherPools req

/-! ### What each rule asks of the registry -/

variable {w launcherPools req}

theorem mem_candidateLauncherPools {x : PoolComponent} :
    x ∈ candidateLauncherPools launcherPools req ↔
      x ∈ launcherPools ∧ req.nodeTypes ⊆ x.supportedLabels ∧ x.id ∉ req.declinedBy := by
  simp [candidateLauncherPools]

/-- Some candidate belongs to the provider that the request names. -/
def PreferenceOnline (launcherPools : List PoolComponent) (req : NodeRequest) : Prop :=
  truthy req.provider = true ∧
    ∃ x ∈ candidateLauncherPools launcherPools req, some x.providerName = req.provider

theorem yieldsToProvider_iff :
    yieldsToProvider w launcherPools req = true ↔
      PreferenceOnline launcherPools req ∧ some w.providerName ≠ req.provider := by
  simp only [yieldsToProvider, launcherPoolIdsForProvider, PreferenceOnline, Bool.and_eq_true,
    decide_eq_true_eq, ne_eq, List.map_eq_nil_iff, List.filter_eq_nil_iff, not_forall,
    Decidable.not_not, exists_prop]
  constructor
  · rintro ⟨⟨ht, hne⟩, hex⟩
    exact ⟨⟨ht, hex⟩, fun h => hne h.symm⟩
  · rintro ⟨⟨ht, hex⟩, hne⟩
    exact ⟨⟨ht, fun h => hne h.symm⟩, hex⟩

theorem yieldsToPriority_iff :
    yieldsToPriority w launcherPools req = true ↔
      ∃ x ∈ candidateLauncherPools launcherPools req,
        x.priority < w.getPriority ∧ x.paused = false := by
  simp [yieldsToPriority, launcherPoolIdsWithHigherPriority]

theorem missingLabels_eq_nil_iff :
    missingLabels w req = [] ↔ req.nodeTypes ⊆ w.labels := by
  simp [missingLabels, List.filter_eq_nil_iff, List.subset_def]

theorem yieldsToLabels_iff :
    yieldsToLabels w launcherPools req = true ↔
      ¬ req.nodeTypes ⊆ w.labels ∧ candidateLauncherPools launcherPools req ≠ [] := by
  simp [yieldsToLabels, missingLabels_eq_nil_iff]

theorem passesDeferral_iff : passesDeferral w launcherPools req = true ↔
    req.state = .requested ∧ w.launcherId ∉ req.declinedBy ∧
      (PreferenceOnline launcherPools req → some w.providerName = req.provider) ∧
      (∀ x ∈ candidateLauncherPools launcherPools req, x.paused = false →
        w.getPriority ≤ x.priority) ∧
      (candidateLauncherPools launcherPools req ≠ [] → req.nodeTypes ⊆ w.labels) := by
  have h₁ : yieldsToProvider w launcherPools req = true ↔ _ := yieldsToProvider_iff
  have h₂ : yieldsToPriority w launcherPools req = true ↔ _ := yieldsToPriority_iff
  have h₃ : yieldsToLabels w launcherPools req = true ↔ _ := yieldsToLabels_iff
  simp only [passesDeferral, Bool.and_eq_true, decide_eq_true_eq, Bool.not_eq_true',
    ← Bool.not_eq_true, h₁, h₂, h₃, and_assoc]
  refine and_congr_right fun _ => and_congr_right fun _ => and_congr ?_ (and_congr ?_ ?_)
  · exact ⟨fun h hon => by_contra fun hne => h ⟨hon, hne⟩, fun h hc => hc.2 (h hc.1)⟩
  · constructor
    · intro h x hx hp
      by_contra hlt
      exact h ⟨x, hx, by omega, hp⟩
    · rintro h ⟨x, hx, hlt, hp⟩
      have := h x hx hp
      omega
  · exact ⟨fun h hC => by_contra fun hsub => h ⟨hsub, hC⟩, fun h hc => hc.1 (h hc.2)⟩

/-! ### Who is left -/

/-- A candidate of the preferred provider comes first among the candidates that
are not paused. -/
def PreferenceFirst (launcherPools : List PoolComponent) (req : NodeRequest) : Prop :=
  ∃ p ∈ candidateLauncherPools launcherPools req, some p.providerName = req.provider ∧
    ∀ x ∈ candidateLauncherPools launcherPools req, x.paused = false → p.priority ≤ x.priority

/-- Among any candidates there is one of the smallest priority number. -/
theorem exists_first (h : candidateLauncherPools launcherPools req ≠ []) :
    ∃ p ∈ candidateLauncherPools launcherPools req,
      ∀ x ∈ candidateLauncherPools launcherPools req, p.priority ≤ x.priority := by
  obtain ⟨x₀, hx₀⟩ := List.exists_mem_of_ne_nil _ h
  obtain ⟨p, hp, hmin⟩ := Finset.exists_min_image
    (candidateLauncherPools launcherPools req).toFinset (·.priority)
    ⟨x₀, List.mem_toFinset.mpr hx₀⟩
  exact ⟨p, List.mem_toFinset.mp hp, fun x hx => hmin x (List.mem_toFinset.mpr hx)⟩

/-- The registry once every worker has registered itself. -/
def registry (workers : List PoolWorker) (paused : PoolWorker → Bool) : List PoolComponent :=
  workers.map fun w => w.componentInfo (paused w)

/-- A worker whose own component is a candidate passes if the preference is for
its provider and no candidate that is not paused comes before it. -/
theorem passesDeferral_of_candidate {workers : List PoolWorker} {paused : PoolWorker → Bool}
    (hreq : req.state = .requested)
    (hw : w.componentInfo (paused w) ∈ candidateLauncherPools (registry workers paused) req)
    (hpref : PreferenceOnline (registry workers paused) req → some w.providerName = req.provider)
    (hfirst : ∀ x ∈ candidateLauncherPools (registry workers paused) req, x.paused = false →
      w.getPriority ≤ x.priority) :
    passesDeferral w (registry workers paused) req = true := by
  obtain ⟨-, hsup, hd⟩ := mem_candidateLauncherPools.mp hw
  exact passesDeferral_iff.mpr ⟨hreq, hd, hpref, hfirst, fun _ => hsup⟩

/-- **Some worker that has not declined gets past all three rules** exactly when
the preferred provider has no candidate online, or has one that comes first
among the candidates that are not paused. -/
theorem exists_passesDeferral_iff (workers : List PoolWorker) (paused : PoolWorker → Bool)
    (req : NodeRequest) (hreq : req.state = .requested)
    (hopen : ∃ w ∈ workers, paused w = false ∧ w.launcherId ∉ req.declinedBy) :
    (∃ w ∈ workers, passesDeferral w (registry workers paused) req = true) ↔
      (PreferenceOnline (registry workers paused) req →
        PreferenceFirst (registry workers paused) req) := by
  have hmem : ∀ {x}, x ∈ candidateLauncherPools (registry workers paused) req →
      ∃ w ∈ workers, w.componentInfo (paused w) = x :=
    fun hx => List.mem_map.mp (mem_candidateLauncherPools.mp hx).1
  by_cases hC : candidateLauncherPools (registry workers paused) req = []
  · -- nobody supports the labels: no rule applies, and any worker gets to decline
    obtain ⟨w, hw, -, hd⟩ := hopen
    have hoff : ¬ PreferenceOnline (registry workers paused) req := by
      simp [PreferenceOnline, hC]
    refine iff_of_true ⟨w, hw, passesDeferral_iff.mpr ⟨hreq, hd, ?_, ?_, ?_⟩⟩ ?_
    · exact fun hon => absurd hon hoff
    · simp [hC]
    · exact fun h => absurd hC h
    · exact fun hon => absurd hon hoff
  · constructor
    · rintro ⟨w, hw, hpass⟩ hon
      obtain ⟨-, hd, hpref, hfirst, hsup⟩ := passesDeferral_iff.mp hpass
      exact ⟨w.componentInfo (paused w), mem_candidateLauncherPools.mpr
        ⟨List.mem_map.mpr ⟨w, hw, rfl⟩, hsup hC, hd⟩, hpref hon, hfirst⟩
    · intro himp
      by_cases hon : PreferenceOnline (registry workers paused) req
      · obtain ⟨p, hpC, hpref, hfirst⟩ := himp hon
        obtain ⟨w, hw, rfl⟩ := hmem hpC
        exact ⟨w, hw, passesDeferral_of_candidate hreq hpC (fun _ => hpref) hfirst⟩
      · obtain ⟨p, hpC, hmin⟩ := exists_first hC
        obtain ⟨w, hw, rfl⟩ := hmem hpC
        exact ⟨w, hw, passesDeferral_of_candidate hreq hpC (fun h => absurd h hon)
          fun x hx _ => hmin x hx⟩

/-! ### Two pools that defer to each other -/

/-- A request for one label that prefers provider `cloud-a`. -/
def preferringRequest : NodeRequest where
  id := "100-0000000001"
  state := .requested
  declinedBy := []
  nodeTypes := ["small"]
  nodes := []
  reuse := true
  requestor := none
  provider := some "cloud-a"
  relativePriority := 0
  tenantName := none

/-- The pool of the preferred provider has the default priority. -/
def preferredPool : PoolWorker where
  launcherId := "launcher-a"
  providerName := "cloud-a"
  poolName := "main"
  labels := ["small"]
  poolPriority := none
  providerPriority := none

/-- Another provider supports the label too, at a higher priority. -/
def higherPriorityPool : PoolWorker where
  launcherId := "launcher-b"
  providerName := "cloud-b"
  poolName := "main"
  labels := ["small"]
  poolPriority := none
  providerPriority := some 50

/-- A pool of a third provider has the default priority too. -/
def deferringPool : PoolWorker where
  launcherId := "launcher-c"
  providerName := "cloud-c"
  poolName := "main"
  labels := ["small"]
  poolPriority := none
  providerPriority := none

/-- The third pool yields to the preferred one, which comes first. -/
theorem exists_passesDeferral_iff_preferredPool :
    (∃ w ∈ [preferredPool, deferringPool],
        passesDeferral w (registry [preferredPool, deferringPool] fun _ => false)
          preferringRequest = true) ∧
      yieldsToProvider deferringPool (registry [preferredPool, deferringPool] fun _ => false)
        preferringRequest = true :=
  ⟨(exists_passesDeferral_iff [preferredPool, deferringPool] (fun _ => false) preferringRequest
      rfl ⟨preferredPool, by decide, rfl, by decide⟩).mpr fun _ =>
        ⟨preferredPool.componentInfo false, by decide, rfl, by decide⟩,
    by decide⟩

/-- The preferred pool yields to the pool of higher priority, and that one yields
to the preferred provider; neither is paused and neither has declined. -/
theorem not_forall_exists_passesDeferral :
    ¬ ∀ (workers : List PoolWorker) (paused : PoolWorker → Bool) (req : NodeRequest),
      req.state = .requested →
      (∃ w ∈ workers, paused w = false ∧ w.launcherId ∉ req.declinedBy) →
      ∃ w ∈ workers, passesDeferral w (registry workers paused) req = true := by
  intro h
  have hnone : ¬ ∃ w ∈ [preferredPool, higherPriorityPool],
      passesDeferral w (registry [preferredPool, higherPriorityPool] fun _ => false)
        preferringRequest = true := by
    decide
  exact hnone (h _ (fun _ => false) preferringRequest rfl
    ⟨preferredPool, by decide, rfl, by decide⟩)

end PoolWorker

end Nodepool
