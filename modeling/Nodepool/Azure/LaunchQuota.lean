import Nodepool.Azure.Adapter
import Nodepool.Quota.Acceptance

/-!
The resources that a launch with the Azure adapter records on its node, beside those
that the quota of the label predicted.

Of the launcher (`StateMachineNodeLauncher` of `nodepool/driver/statemachine.py`) this
keeps what reads or writes the resources: an attempt stores the predicted ones, and the
instance of a completed state machine replaces them.
-/

namespace Nodepool.Azure

/-! ### What a SKU measures -/

/-- The value of the last capability of a name, which is the one that counts. -/
def last (caps : List Capability) (name : String) : Option String :=
  (caps.reverse.find? fun cap => cap.name = name).map (·.value)

@[simp] theorem last_nil (name : String) : last [] name = none := rfl

theorem last_append (caps : List Capability) (cap : Capability) (name : String) :
    last (caps ++ [cap]) name = if cap.name = name then some cap.value else last caps name := by
  unfold last
  rw [List.reverse_append, List.reverse_singleton, List.singleton_append, List.find?_cons]
  by_cases h : cap.name = name <;> simp [h]

/-- What the loop finds under a name: the last value, as it is read, or nothing. -/
structure Reads (read : String → Except Err ℤ) (caps : List Capability) (name : String)
    (amount : Option ℤ) : Prop where
  value : ∀ v, last caps name = some v → ∃ z, read v = .ok z ∧ amount = some z
  absent : last caps name = none → amount = none

theorem Reads.nil (read : String → Except Err ℤ) (name : String) : Reads read [] name none :=
  ⟨fun _ h => (nomatch h), fun _ => rfl⟩

/-- A capability of another name changes nothing. -/
theorem Reads.skip {read : String → Except Err ℤ} {caps : List Capability} {name : String}
    {amount : Option ℤ} (h : Reads read caps name amount) {cap : Capability}
    (ne : cap.name ≠ name) : Reads read (caps ++ [cap]) name amount := by
  have same : last (caps ++ [cap]) name = last caps name := by rw [last_append, if_neg ne]
  exact ⟨fun v hv => h.value v (same ▸ hv), fun hn => h.absent (same ▸ hn)⟩

theorem Reads.take {read : String → Except Err ℤ} {caps : List Capability} {cap : Capability}
    {z : ℤ} (hz : read cap.value = .ok z) : Reads read (caps ++ [cap]) cap.name (some z) := by
  have this : last (caps ++ [cap]) cap.name = some cap.value := by rw [last_append, if_pos rfl]
  constructor
  · intro v hv
    rw [this, Option.some.injEq] at hv
    exact ⟨z, hv ▸ hz, rfl⟩
  · intro hn
    rw [this] at hn
    cases hn

/-- An amount of zero, or none at all, is one that no value but zero was read for. -/
theorem Reads.getD_eq_zero {read : String → Except Err ℤ} {caps : List Capability}
    {name : String} {amount : Option ℤ} (h : Reads read caps name amount) :
    amount.getD 0 = 0 ↔ ∀ v, last caps name = some v → read v = .ok 0 := by
  constructor
  · intro zero v hv
    obtain ⟨z, hz, rfl⟩ := h.value v hv
    rw [hz]
    exact congrArg Except.ok zero
  · intro zero
    cases hl : last caps name with
    | none => rw [h.absent hl]; rfl
    | some v =>
        obtain ⟨z, hz, rfl⟩ := h.value v hl
        rw [zero v hl] at hz
        cases hz
        rfl

/-- The two amounts that the loop over a list of capabilities finds. -/
theorem reads_of_foldlM {numerals : Numerals} (caps : List Capability) :
    ∀ {m : Measure}, caps.foldlM (Measure.read numerals) ⟨none, none⟩ = .ok m →
      Reads numerals.int caps "vCPUs" m.cores ∧
        Reads numerals.mebibytes caps "MemoryGB" m.ram := by
  induction caps using List.reverseRecOn with
  | nil =>
      intro m h
      cases h
      exact ⟨.nil _ _, .nil _ _⟩
  | append_singleton caps cap ih =>
      intro m h
      rw [List.foldlM_append] at h
      obtain ⟨before, hbefore, hlast⟩ := Except.bind_eq_ok.mp h
      obtain ⟨cores, ram⟩ := ih hbefore
      rw [List.foldlM_cons] at hlast
      obtain ⟨after, hafter, hpure⟩ := Except.bind_eq_ok.mp hlast
      cases hpure
      unfold Measure.read at hafter
      split at hafter
      case isTrue isCores =>
        obtain ⟨z, hz, hm⟩ := Except.bind_eq_ok.mp hafter
        cases hm
        exact ⟨isCores ▸ .take hz, ram.skip (by rw [isCores]; decide)⟩
      case isFalse notCores =>
        split at hafter
        case isTrue isRam =>
          obtain ⟨z, hz, hm⟩ := Except.bind_eq_ok.mp hafter
          cases hm
          exact ⟨cores.skip notCores, isRam ▸ .take hz⟩
        case isFalse notRam =>
          cases hafter
          exact ⟨cores.skip notCores, ram.skip notRam⟩

/-- The SKU gives neither processors nor memory, or only zeros. -/
def Unmeasured (numerals : Numerals) (sku : Sku) : Prop :=
  (∀ v, last sku.capabilities "vCPUs" = some v → numerals.int v = .ok 0) ∧
    ∀ v, last sku.capabilities "MemoryGB" = some v → numerals.mebibytes v = .ok 0

/-! ### Two quotas from SKUs -/

/-- The quota of an instance whose SKU is not known. -/
def unknown : QuotaInformation :=
  .ofArgs ((∅ : Dict _ _).insert "instances" (some (.int 1)))

/-- The quota of a SKU that was measured. -/
def measured (m : Measure) : QuotaInformation :=
  .ofArgs ((((∅ : Dict _ _).insert "cores" (m.cores.map .int)).insert
    "ram" (m.ram.map .int)).insert "instances" (some (.int 1)))

theorem quotaInfoFromSku_none (numerals : Numerals) :
    quotaInfoFromSku numerals none = .ok unknown := rfl

theorem quotaInfoFromSku_some {numerals : Numerals} {sku : Sku} {q : QuotaInformation}
    (h : quotaInfoFromSku numerals (some sku) = .ok q) :
    ∃ m, sku.measure numerals = .ok m ∧ q = measured m := by
  obtain ⟨m, hm, hq⟩ := Except.bind_eq_ok.mp h
  cases hq
  exact ⟨m, hm, rfl⟩

/-- Equality of two dictionaries, which does not see the order of their entries. -/
def Same (d e : Resources) : Prop := ∀ name, d.lookup name = e.lookup name

theorem Same.reading {q q' : QuotaInformation} (h : Same q.compute q'.compute)
    (default : q.default = q'.default) (name : String) : q.reading name = q'.reading name := by
  unfold QuotaInformation.reading Dict.get
  rw [h name, default]

theorem mem_unknown {name : String} :
    name ∈ unknown.compute ↔ name = "cores" ∨ name = "instances" ∨ name = "ram" := by
  rw [unknown, QuotaInformation.mem_ofArgs, AList.mem_insert]
  simp only [List.mem_cons, List.not_mem_nil, or_false, AList.notMem_empty]
  grind

theorem mem_measured {m : Measure} {name : String} :
    name ∈ (measured m).compute ↔ name = "cores" ∨ name = "instances" ∨ name = "ram" := by
  rw [measured, QuotaInformation.mem_ofArgs, AList.mem_insert, AList.mem_insert, AList.mem_insert]
  simp only [List.mem_cons, List.not_mem_nil, or_false, AList.notMem_empty]
  grind

@[simp] theorem lookup_unknown_cores : unknown.compute.lookup "cores" = some (.int 0) := rfl

@[simp] theorem lookup_unknown_ram : unknown.compute.lookup "ram" = some (.int 0) := rfl

@[simp] theorem lookup_unknown_instances :
    unknown.compute.lookup "instances" = some (.int 1) := rfl

theorem getD_map_int (z : Option ℤ) : (z.map Number.int).getD 0 = .int (z.getD 0) := by
  cases z <;> rfl

@[simp] theorem lookup_measured_cores (m : Measure) :
    (measured m).compute.lookup "cores" = some (.int (m.cores.getD 0)) := by
  rw [← getD_map_int]; rfl

@[simp] theorem lookup_measured_ram (m : Measure) :
    (measured m).compute.lookup "ram" = some (.int (m.ram.getD 0)) := by
  rw [← getD_map_int]; rfl

@[simp] theorem lookup_measured_instances (m : Measure) :
    (measured m).compute.lookup "instances" = some (.int 1) := rfl

/-- An unknown SKU gives the quota of one that measures nothing. -/
theorem same_unknown_measured (m : Measure) :
    Same unknown.compute (measured m).compute ↔ m.cores.getD 0 = 0 ∧ m.ram.getD 0 = 0 := by
  constructor
  · intro h
    have cores := h "cores"
    have ram := h "ram"
    simp only [lookup_unknown_cores, lookup_measured_cores, lookup_unknown_ram,
      lookup_measured_ram, Option.some.injEq, Number.int.injEq] at cores ram
    exact ⟨cores.symm, ram.symm⟩
  · rintro ⟨cores, ram⟩ name
    by_cases hn : name ∈ unknown.compute
    · obtain rfl | rfl | rfl := mem_unknown.mp hn
      · rw [lookup_unknown_cores, lookup_measured_cores, cores]
      · rfl
      · rw [lookup_unknown_ram, lookup_measured_ram, ram]
    · have hm : name ∉ (measured m).compute := fun h => hn (mem_unknown.mpr (mem_measured.mp h))
      rw [AList.lookup_eq_none.mpr hn, AList.lookup_eq_none.mpr hm]

/-! ### Launches -/

/-- A launch, as far as the resources of its node go. -/
structure Launch where
  /-- `node.resources` -/
  resources : Option Resources
  machine : Option AzureCreateStateMachine
  /-- Whether `updateNodeFromInstance` has recorded the instance of this attempt. -/
  recorded : Bool

def Launch.init : Launch := ⟨none, none, false⟩

inductive Event where
  /-- An attempt begins, with what storing the node gives. -/
  | start (hostname : String) (stored : Except Err Unit)
  /-- The state machine of the attempt is advanced. -/
  | advance (answers : Answers)

/-- The part of `startStateMachine` for the resources: what the label needs is stored
with the node before the state machine is made. -/
def startStateMachine (numerals : Numerals) (adapter : AzureAdapter) (label : Label)
    (hostname : String) (stored : Except Err Unit) (launch : Launch) : Launch :=
  match adapter.getQuotaForLabel numerals label with
  | .error _ => launch
  | .ok q =>
      match stored with
      | .error _ => { launch with resources := some q.compute, recorded := false }
      | .ok () => ⟨some q.compute, some (.init hostname), false⟩

/-- The part of `updateNodeFromInstance` for the resources. -/
def updateNodeFromInstance (numerals : Numerals) (server : Option AzureInstance)
    (launch : Launch) : Launch :=
  match server with
  | none => launch
  | some server =>
      match server.getQuotaInformation numerals with
      | .error _ => launch
      | .ok q => { launch with resources := some q.compute, recorded := true }

/-- One pass of the launcher with its state machine. -/
def advanceLaunch (numerals : Numerals) (label : Label) (answers : Answers)
    (launch : Launch) : Launch :=
  match launch.machine with
  | none => launch
  | some machine =>
      match (AzureCreateStateMachine.advance label answers).run.run machine with
      | (.error _, machine) => { launch with machine := some machine }
      | (.ok server, machine) =>
          let launch := { launch with machine := some machine }
          if machine.complete then updateNodeFromInstance numerals server launch else launch

def Launch.step (numerals : Numerals) (adapter : AzureAdapter) (label : Label)
    (launch : Launch) : Event → Launch
  | .start hostname stored => startStateMachine numerals adapter label hostname stored launch
  | .advance answers => advanceLaunch numerals label answers launch

/-- A launch through any number of attempts and passes. -/
def Launch.run (numerals : Numerals) (adapter : AzureAdapter) (label : Label)
    (events : List Event) : Launch :=
  events.foldl (Launch.step numerals adapter label) .init

/-! ### What a state machine returns -/

open AzureCreateStateMachine in
/-- A sequence of two methods that returns has returned from both. -/
theorem bind_eq_ok {α β : Type} {x : CreateM α} {f : α → CreateM β} {b : β}
    {m m' : AzureCreateStateMachine} (h : (x >>= f).run.run m = (.ok b, m')) :
    ∃ a between, x.run.run m = (.ok a, between) ∧ (f a).run.run between = (.ok b, m') := by
  cases hx : x.run.run m with
  | mk outcome between =>
      have step : (x >>= f).run.run m =
          (ExceptT.bindCont f outcome).run between := by
        change (x.run >>= ExceptT.bindCont f).run m = _
        rw [StateT.run_bind, hx]
        rfl
      cases outcome with
      | error e =>
          rw [step] at h
          cases h
      | ok a => exact ⟨a, between, rfl, step.symm.trans h⟩

theorem sku_readPrivateIp {server server' : AzureInstance} {config : IpConfiguration}
    (h : server.readPrivateIp config = .ok server') : server'.sku = server.sku := by
  unfold AzureInstance.readPrivateIp at h
  split at h <;> cases h <;> rfl

theorem sku_foldlM_readPrivateIp {configs : List IpConfiguration} :
    ∀ {server server' : AzureInstance},
      configs.foldlM AzureInstance.readPrivateIp server = .ok server' →
        server'.sku = server.sku := by
  induction configs with
  | nil => intro server server' h; cases h; rfl
  | cons config configs ih =>
      intro server server' h
      rw [List.foldlM_cons] at h
      obtain ⟨between, hfirst, hrest⟩ := Except.bind_eq_ok.mp h
      exact (ih hrest).trans (sku_readPrivateIp hfirst)

theorem sku_init {vm : Vm} {nic : Option Nic} {publicIpv4 publicIpv6 : Option PublicIp}
    {sku : Option Sku} {server : AzureInstance}
    (h : AzureInstance.init vm nic publicIpv4 publicIpv6 sku = .ok server) :
    server.sku = sku :=
  sku_foldlM_readPrivateIp h

theorem sku_finish {m m' : AzureCreateStateMachine} {server : AzureInstance}
    (h : AzureCreateStateMachine.finish.run.run m = (.ok (some server), m')) :
    server.sku = none := by
  unfold AzureCreateStateMachine.finish at h
  obtain ⟨m₁, s₁, -, h⟩ := bind_eq_ok h
  split at h
  case isTrue =>
    obtain ⟨_, _, -, h⟩ := bind_eq_ok h
    obtain ⟨vm, _, -, h⟩ := bind_eq_ok h
    obtain ⟨m₂, _, -, h⟩ := bind_eq_ok h
    obtain ⟨made, _, hmade, h⟩ := bind_eq_ok h
    cases h
    cases hinit : AzureInstance.init vm m₂.nic m₂.publicIpv4 m₂.publicIpv6 none with
    | error e =>
        rw [hinit] at hmade
        cases hmade
    | ok server' =>
        rw [hinit] at hmade
        cases hmade
        exact sku_init hinit
  case isFalse => cases h

/-- No state machine tells the instance that it returns of its SKU. -/
theorem sku_advance {label : Label} {answers : Answers} {m m' : AzureCreateStateMachine}
    {server : AzureInstance}
    (h : (AzureCreateStateMachine.advance label answers).run.run m = (.ok (some server), m')) :
    server.sku = none := by
  unfold AzureCreateStateMachine.advance at h
  obtain ⟨_, _, -, h⟩ := bind_eq_ok h
  obtain ⟨_, _, -, h⟩ := bind_eq_ok h
  obtain ⟨_, _, -, h⟩ := bind_eq_ok h
  obtain ⟨_, _, -, h⟩ := bind_eq_ok h
  exact sku_finish h

/-! ### Recorded and predicted resources -/

/-- The node keeps what the label needs until an instance is recorded, and then what
an instance without a SKU has. -/
structure Invariant (numerals : Numerals) (adapter : AzureAdapter) (label : Label)
    (launch : Launch) : Prop where
  admitted : launch.resources.isSome →
    ∃ q, adapter.getQuotaForLabel numerals label = .ok q
  begun : launch.machine.isSome → launch.resources.isSome
  recorded : launch.recorded = true → launch.resources = some unknown.compute

variable {numerals : Numerals} {adapter : AzureAdapter} {label : Label}

theorem invariant_start {launch : Launch} (h : Invariant numerals adapter label launch)
    (hostname : String) (stored : Except Err Unit) :
    Invariant numerals adapter label
      (startStateMachine numerals adapter label hostname stored launch) := by
  unfold startStateMachine
  split
  case h_1 => exact h
  case h_2 q hq =>
    split
    case h_1 => exact ⟨fun _ => ⟨q, hq⟩, fun _ => rfl, fun hr => (nomatch hr)⟩
    case h_2 => exact ⟨fun _ => ⟨q, hq⟩, fun _ => rfl, fun hr => (nomatch hr)⟩

theorem invariant_update {launch : Launch} (h : Invariant numerals adapter label launch)
    (begun : launch.resources.isSome) {server : Option AzureInstance}
    (sku : ∀ s, server = some s → s.sku = none) :
    Invariant numerals adapter label (updateNodeFromInstance numerals server launch) := by
  unfold updateNodeFromInstance
  split
  case h_1 => exact h
  case h_2 s =>
    split
    case h_1 => exact h
    case h_2 q hq =>
      unfold AzureInstance.getQuotaInformation at hq
      rw [sku s rfl, quotaInfoFromSku_none] at hq
      cases hq
      exact ⟨fun _ => h.admitted begun, fun _ => rfl, fun _ => rfl⟩

theorem invariant_advance {launch : Launch} (h : Invariant numerals adapter label launch)
    (answers : Answers) :
    Invariant numerals adapter label (advanceLaunch numerals label answers launch) := by
  unfold advanceLaunch
  split
  case h_1 => exact h
  case h_2 machine hm =>
    have begun : launch.resources.isSome := h.begun (by rw [hm]; rfl)
    have kept : ∀ m, Invariant numerals adapter label { launch with machine := some m } :=
      fun m => ⟨h.admitted, fun _ => begun, h.recorded⟩
    split
    case h_1 => exact kept _
    case h_2 server m hadvance =>
      split
      case isTrue =>
        refine invariant_update (kept m) begun ?_
        rintro s rfl
        exact sku_advance hadvance
      case isFalse => exact kept m

theorem invariant_step {launch : Launch} (h : Invariant numerals adapter label launch) :
    (event : Event) → Invariant numerals adapter label (launch.step numerals adapter label event)
  | .start hostname stored => invariant_start h hostname stored
  | .advance answers => invariant_advance h answers

theorem invariant_run (events : List Event) :
    Invariant numerals adapter label (Launch.run numerals adapter label events) := by
  have fold : ∀ (events : List Event) (launch : Launch),
      Invariant numerals adapter label launch →
        Invariant numerals adapter label
          (events.foldl (Launch.step numerals adapter label) launch) := by
    intro events
    induction events with
    | nil => exact fun _ h => h
    | cons event events ih => exact fun launch h => ih _ (invariant_step h event)
  exact fold events .init ⟨fun h => (nomatch h), fun h => (nomatch h), fun h => (nomatch h)⟩

/-- The node has the resources that the quota of its label predicts, and no less of
any. -/
structure AsPredicted (launch : Launch) (q : QuotaInformation) : Prop where
  same : ∃ r, launch.resources = some r ∧ Same r q.compute
  noDrop : ∀ r, launch.resources = some r → ∀ name,
    q.amount name ≤ (QuotaInformation.fromResources r).amount name

/-- The SKU that the table has for the label gives neither processors nor memory, if
the table has one. -/
def SkuUnmeasured (numerals : Numerals) (adapter : AzureAdapter) (label : Label) : Prop :=
  ∀ sku, adapter.skuOf label = some sku → Unmeasured numerals sku

theorem same_unknown_iff {q : QuotaInformation}
    (h : adapter.getQuotaForLabel numerals label = .ok q) :
    Same unknown.compute q.compute ↔ SkuUnmeasured numerals adapter label := by
  unfold AzureAdapter.getQuotaForLabel at h
  unfold SkuUnmeasured
  cases hsku : adapter.skuOf label with
  | none =>
      rw [hsku, quotaInfoFromSku_none] at h
      cases h
      exact ⟨fun _ _ hs => (nomatch hs), fun _ _ => rfl⟩
  | some sku =>
      rw [hsku] at h
      obtain ⟨m, hm, rfl⟩ := quotaInfoFromSku_some h
      obtain ⟨cores, ram⟩ := reads_of_foldlM sku.capabilities hm
      rw [same_unknown_measured, cores.getD_eq_zero, ram.getD_eq_zero]
      exact ⟨fun hu _ hs => Option.some.inj hs ▸ hu, fun hu => hu sku rfl⟩

theorem default_eq {q : QuotaInformation}
    (h : adapter.getQuotaForLabel numerals label = .ok q) : q.default = unknown.default := by
  unfold AzureAdapter.getQuotaForLabel at h
  cases hsku : adapter.skuOf label with
  | none =>
      rw [hsku, quotaInfoFromSku_none] at h
      cases h
      rfl
  | some sku =>
      rw [hsku] at h
      obtain ⟨m, -, rfl⟩ := quotaInfoFromSku_some h
      rfl

/-- What the completed launch of a label records on the node agrees with what the
label needed exactly when the SKU of the label has no cores and no memory to lose. -/
theorem asPredicted_iff (numerals : Numerals) (adapter : AzureAdapter) (label : Label)
    (events : List Event) (h : (Launch.run numerals adapter label events).recorded = true) :
    ∃ q, adapter.getQuotaForLabel numerals label = .ok q ∧
      (AsPredicted (Launch.run numerals adapter label events) q ↔
        SkuUnmeasured numerals adapter label) := by
  have invariant : Invariant numerals adapter label (Launch.run numerals adapter label events) :=
    invariant_run events
  have resources := invariant.recorded h
  obtain ⟨q, hq⟩ := invariant.admitted (by rw [resources]; rfl)
  refine ⟨q, hq, ?_⟩
  rw [← same_unknown_iff hq]
  constructor
  · rintro ⟨⟨r, hr, same⟩, -⟩
    rw [resources, Option.some.injEq] at hr
    exact hr ▸ same
  · intro same
    refine ⟨⟨_, resources, same⟩, ?_⟩
    intro r hr name
    rw [resources, Option.some.injEq] at hr
    subst hr
    rw [QuotaInformation.amount, QuotaInformation.amount, ← Same.reading same (default_eq hq).symm]
    exact le_rfl

/-! ### A launch of a small machine -/

/-- Only digits are read, with a point among them or without. -/
def exampleNumerals : Numerals where
  int value := ((digits value.toList).map Int.ofNat).elim (.error .other) .ok
  float value := (decimal value.toList).elim (.error .other) .ok
  int_digits value n _ h := by simp [h]
  float_decimal value q _ h := by simp [h]

def exampleSku : Sku :=
  ⟨"Standard_B1ls", ["westus"], [⟨"vCPUs", "1"⟩, ⟨"MemoryGB", "0.5"⟩]⟩

def exampleAdapter : AzureAdapter := .init "westus" [exampleSku]

def exampleLabel : Label := ⟨"Standard_B1ls", false⟩

def exampleNic : Nic :=
  { id := "nic", provisioningState := some "Succeeded"
    ipConfigurations := [⟨"IPv4", some "10.0.0.4", none⟩] }

def exampleVm : Vm :=
  { id := "vm", provisioningState := some "Succeeded", name := "np0000000001"
    location := "westus", zones := [], networkInterfaces := [exampleNic] }

/-- The machine is created at once. -/
def exampleLaunch : List Event :=
  [.start "np0000000001" (.ok ()),
    .advance ⟨.error .other, .ok exampleVm, .ok [exampleVm], .ok [exampleNic], .ok []⟩]

theorem getQuotaForLabel_example :
    exampleAdapter.getQuotaForLabel exampleNumerals exampleLabel =
      .ok (measured ⟨some 1, some 512⟩) := by
  have cores : exampleNumerals.int "1" = .ok 1 := by decide +kernel
  have ram : exampleNumerals.mebibytes "0.5" = .ok 512 := by decide +kernel
  have measure : exampleSku.measure exampleNumerals = .ok ⟨some 1, some 512⟩ := by
    simp [Sku.measure, exampleSku, Measure.read, cores, ram, Except.bind_eq_ok]
  have found : exampleAdapter.skuOf exampleLabel = some exampleSku := rfl
  rw [AzureAdapter.getQuotaForLabel, found, quotaInfoFromSku, measure]
  rfl

theorem recorded_exampleLaunch :
    (Launch.run exampleNumerals exampleAdapter exampleLabel exampleLaunch).recorded = true := by
  decide +kernel

theorem asPredicted_iff_exampleLaunch :
    (Launch.run exampleNumerals exampleAdapter exampleLabel exampleLaunch).recorded = true ∧
      ∃ q, exampleAdapter.getQuotaForLabel exampleNumerals exampleLabel = .ok q ∧
        (AsPredicted (Launch.run exampleNumerals exampleAdapter exampleLabel exampleLaunch) q ↔
          SkuUnmeasured exampleNumerals exampleAdapter exampleLabel) :=
  ⟨recorded_exampleLaunch,
    asPredicted_iff exampleNumerals exampleAdapter exampleLabel exampleLaunch
      recorded_exampleLaunch⟩

/-- The launch records no core and no memory of a label that needs one core and 512
mebibytes. -/
theorem not_forall_asPredicted :
    ¬ ∀ (numerals : Numerals) (adapter : AzureAdapter) (label : Label) (events : List Event)
        (q : QuotaInformation), (adapter.skuOf label).isSome →
      (Launch.run numerals adapter label events).recorded = true →
        adapter.getQuotaForLabel numerals label = .ok q →
          AsPredicted (Launch.run numerals adapter label events) q := by
  intro h
  obtain ⟨⟨r, hr, same⟩, -⟩ := h exampleNumerals exampleAdapter exampleLabel exampleLaunch
    (measured ⟨some 1, some 512⟩) rfl recorded_exampleLaunch
    getQuotaForLabel_example
  have invariant : Invariant exampleNumerals exampleAdapter exampleLabel
      (Launch.run exampleNumerals exampleAdapter exampleLabel exampleLaunch) := invariant_run _
  have hr' : r = unknown.compute :=
    Option.some.inj (hr.symm.trans (invariant.recorded recorded_exampleLaunch))
  have cores := same "cores"
  rw [hr', lookup_unknown_cores, lookup_measured_cores] at cores
  cases cores

end Nodepool.Azure
