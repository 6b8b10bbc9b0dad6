import Mathlib.Data.Rat.Floor
import Nodepool.StateMachine.Models
import Nodepool.Launcher.Calls

/-!
The Azure adapter (`nodepool/driver/azure/adapter.py`): the table of SKUs, the quota
of a label and of an instance, and the state machine that creates a virtual machine.

What the API answers is given call by call. The specification that
`_createVirtualMachine` sends is left out, and so are the tags made for it.
-/

namespace Nodepool.Azure

/-- A capability of a SKU; the API gives its value as text. -/
structure Capability where
  name : String
  value : String
deriving DecidableEq, Repr

structure Sku where
  name : String
  locations : List String
  capabilities : List Capability
deriving DecidableEq, Repr

/-- The number that a text of decimal digits stands for. -/
def digits (text : List Char) : Option ℕ :=
  if text ≠ [] ∧ text.all Char.isDigit then some (Nat.ofDigitChars 10 text 0) else none

/-- The number that a text of decimal digits stands for, with a point among them or without. -/
def decimal (text : List Char) : Option ℚ :=
  match text.splitOn '.' with
  | [whole] => (digits whole).map fun n => (n : ℚ)
  | [whole, fraction] => do
      let n ← digits whole
      let m ← digits fraction
      pure (n + m / 10 ^ fraction.length)
  | _ => none

/-- The number is that of a float. -/
def Representable (q : ℚ) : Prop := ∃ m e : ℕ, m ≤ 2 ^ 53 ∧ e ≤ 1074 ∧ q = m / 2 ^ e

/-- How the text of a capability is read: a text of digits as the number it stands for, if it is
not too long for `int` or too exact for a float. -/
structure Numerals where
  /-- `int(value)` -/
  int : String → Except Err ℤ
  /-- `float(value)`; `int` raises for a float that is not finite -/
  float : String → Except Err ℚ
  int_digits : ∀ (value : String) (n : ℕ), value.toList.length ≤ 4300 →
    digits value.toList = some n → int value = .ok n
  float_decimal : ∀ (value : String) (q : ℚ), Representable q →
    decimal value.toList = some q → float value = .ok q

/-- `int(float(value) * 1024)`. The product is exact, or infinite if it is too large. -/
def Numerals.mebibytes (numerals : Numerals) (value : String) : Except Err ℤ := do
  let product := (← numerals.float value) * 1024
  if 2 ^ 1024 ≤ |product| then throw .other
  else pure (if 0 ≤ product then ⌊product⌋ else ⌈product⌉)

/-- What the loop over the capabilities has found. -/
structure Measure where
  cores : Option ℤ
  ram : Option ℤ
deriving DecidableEq, Repr

namespace Measure

/-- One capability; a later one of the same name counts. -/
def read (numerals : Numerals) (m : Measure) (cap : Capability) : Except Err Measure := do
  if cap.name = "vCPUs" then
    return { m with cores := some (← numerals.int cap.value) }
  else if cap.name = "MemoryGB" then
    return { m with ram := some (← numerals.mebibytes cap.value) }
  else
    return m

end Measure

/-- The loop over the capabilities of a SKU. -/
def Sku.measure (numerals : Numerals) (sku : Sku) : Except Err Measure :=
  sku.capabilities.foldlM (Measure.read numerals) ⟨none, none⟩

/-- `quota_info_from_sku` -/
def quotaInfoFromSku (numerals : Numerals) : Option Sku → Except Err QuotaInformation
  | none => pure (.ofArgs ((∅ : Dict _ _).insert "instances" (some (.int 1))))
  | some sku => do
      let m ← sku.measure numerals
      pure (.ofArgs ((((∅ : Dict _ _).insert "cores" (m.cores.map .int)).insert
        "ram" (m.ram.map .int)).insert "instances" (some (.int 1))))

/-! ### Objects of the API -/

/-- The state that the API gives for an object it is creating. -/
structure Provisioned where
  id : String
  provisioningState : Option String
deriving DecidableEq, Repr

structure PublicIp extends Provisioned where
  version : String
  ipAddress : Option String
deriving DecidableEq, Repr

structure IpConfiguration where
  version : String
  privateIpAddress : Option String
  publicIpAddress : Option PublicIp
deriving DecidableEq, Repr

structure Nic extends Provisioned where
  ipConfigurations : List IpConfiguration
deriving DecidableEq, Repr

structure Vm extends Provisioned where
  name : String
  location : String
  zones : List String
  /-- `networkProfile.networkInterfaces` -/
  networkInterfaces : List Nic
deriving DecidableEq, Repr

/-- `_succeeded` -/
def Provisioned.succeeded (obj : Provisioned) : Bool := obj.provisioningState = some "Succeeded"

/-- `_failed` -/
def Provisioned.failed (obj : Provisioned) : Bool := obj.provisioningState = some "Failed"

/-! ### Instances -/

structure AzureInstance where
  externalId : String
  privateIpv4 : Option String
  privateIpv6 : Option String
  publicIpv4 : Option String
  publicIpv6 : Option String
  region : String
  az : String
  sku : Option Sku
deriving DecidableEq, Repr

namespace AzureInstance

/-- The private address of a configuration; reading one that has none is a
`KeyError`. -/
def readPrivateIp (server : AzureInstance) (config : IpConfiguration) :
    Except Err AzureInstance :=
  match config.version, config.privateIpAddress with
  | "IPv4", some ip => pure { server with privateIpv4 := some ip }
  | "IPv6", some ip => pure { server with privateIpv6 := some ip }
  | "IPv4", none | "IPv6", none => throw .other
  | _, _ => pure server

/-- `AzureInstance(vm, nic, public_ipv4, public_ipv6, sku)` -/
def init (vm : Vm) (nic : Option Nic) (publicIpv4 publicIpv6 : Option PublicIp)
    (sku : Option Sku) : Except Err AzureInstance :=
  ((nic.map (·.ipConfigurations)).getD []).foldlM readPrivateIp
    { externalId := vm.name
      privateIpv4 := none
      privateIpv6 := none
      publicIpv4 := publicIpv4.bind (·.ipAddress)
      publicIpv6 := publicIpv6.bind (·.ipAddress)
      region := vm.location
      az := vm.zones.headD ""
      sku := sku }

def getQuotaInformation (numerals : Numerals) (server : AzureInstance) :
    Except Err QuotaInformation :=
  quotaInfoFromSku numerals server.sku

end AzureInstance

/-! ### The adapter -/

/-- The part of a label's configuration that is read here. -/
structure Label where
  /-- `hardware_profile["vm-size"]` -/
  vmSize : String
  /-- Whether the label has a cloud image with an image filter. -/
  imageFilter : Bool
deriving DecidableEq, Repr

/-- `_getSKUs`: each SKU under its name and each of its locations. -/
def getSkus (skus : List Sku) : Dict (String × String) Sku :=
  Dict.ofPairs (skus.flatMap fun sku => sku.locations.map fun location =>
    ((sku.name, location), sku))

structure AzureAdapter where
  /-- `provider.location` -/
  location : String
  skus : Dict (String × String) Sku

namespace AzureAdapter

/-- The adapter after the SKUs of the API have been listed. -/
def init (location : String) (skus : List Sku) : AzureAdapter := ⟨location, getSkus skus⟩

def skuOf (adapter : AzureAdapter) (label : Label) : Option Sku :=
  adapter.skus.lookup (label.vmSize, adapter.location)

def getQuotaForLabel (numerals : Numerals) (adapter : AzureAdapter) (label : Label) :
    Except Err QuotaInformation :=
  quotaInfoFromSku numerals (adapter.skuOf label)

end AzureAdapter

/-- What the API, or the cache before it, answers during one call of `advance`. -/
structure Answers where
  imageFromFilter : Except Err String
  createVirtualMachine : Except Err Vm
  virtualMachines : Except Err (List Vm)
  networkInterfaces : Except Err (List Nic)
  publicIpAddresses : Except Err (List PublicIp)

/-- The object with the same id in a listing, or the object itself. -/
def find {α : Type} (toProvisioned : α → Provisioned) (obj : α) (l : List α) : α :=
  (l.find? fun new => (toProvisioned new).id = (toProvisioned obj).id).getD obj

/-- `_refresh`; the listing is that of the object's type. -/
def refresh {α : Type} (toProvisioned : α → Provisioned) (listing : Except Err (List α))
    (obj : α) (force : Bool) : Except Err α := do
  if (toProvisioned obj).succeeded ∧ ¬ force then
    return obj
  else
    return find toProvisioned obj (← listing)

/-! ### Creating a virtual machine -/

inductive AzureCreateState where
  | start
  | vmCreating
  | nicQuery
  | pipQuery
  | complete
deriving DecidableEq, Repr

structure AzureCreateStateMachine where
  state : AzureCreateState
  externalId : Option String
  hostname : String
  imageReference : Option String
  publicIpv4 : Option PublicIp
  publicIpv6 : Option PublicIp
  nic : Option Nic
  vm : Option Vm
  complete : Bool
deriving DecidableEq, Repr

namespace AzureCreateStateMachine

def init (hostname : String) : AzureCreateStateMachine where
  state := .start
  externalId := none
  hostname := hostname
  imageReference := none
  publicIpv4 := none
  publicIpv6 := none
  nic := none
  vm := none
  complete := false

/-- A method of the state machine; what it has assigned stays when it raises. -/
abbrev CreateM : Type → Type := ExceptT Err (StateM AzureCreateStateMachine)

def inState (state : AzureCreateState) (m : CreateM Unit) : CreateM Unit := do
  if (← get).state = state then m

/-- An attribute that an earlier state has set. -/
def required {α : Type} (f : AzureCreateStateMachine → Option α) : CreateM α := do
  match f (← get) with
  | some a => return a
  | none => throw .other

def startCreating (label : Label) (answers : Answers) : CreateM Unit := do
  modify fun m => { m with externalId := some m.hostname }
  if label.imageFilter then
    let reference ← answers.imageFromFilter
    modify fun m => { m with imageReference := some reference }
  let vm ← answers.createVirtualMachine
  modify fun m => { m with vm := some vm, state := .vmCreating }

/-- While the machine is being created, `advance` returns from here: the state stays. -/
def awaitVm (answers : Answers) : CreateM Unit := do
  let vm ← required (·.vm)
  let vm ← refresh Vm.toProvisioned answers.virtualMachines vm false
  modify fun m => { m with vm := some vm }
  if vm.succeeded then
    match vm.networkInterfaces with
    | [] => throw .other
    | nic :: _ => modify fun m => { m with nic := some nic, state := .nicQuery }
  else if vm.failed then
    throw .other

/-- The public addresses that the configurations of a network interface name. -/
def readPublicIp (m : AzureCreateStateMachine) (config : IpConfiguration) :
    AzureCreateStateMachine :=
  match config.publicIpAddress with
  | none => m
  | some ip =>
      if ip.version = "IPv4" then { m with publicIpv4 := some ip }
      else if ip.version = "IPv6" then { m with publicIpv6 := some ip }
      else m

def queryNic (answers : Answers) : CreateM Unit := do
  let nic ← required (·.nic)
  let nic ← refresh Nic.toProvisioned answers.networkInterfaces nic true
  modify fun m => { m with nic := some nic }
  if nic.ipConfigurations.all fun config => config.privateIpAddress.isSome then
    modify fun m => { nic.ipConfigurations.foldl readPublicIp m with state := .pipQuery }

/-- Refresh a public address, if there is one. -/
def refreshPip (answers : Answers) : Option PublicIp → Except Err (Option PublicIp)
  | none => return none
  | some ip => return some (← refresh PublicIp.toProvisioned answers.publicIpAddresses ip true)

/-- Whether there is no public address, or it is known. -/
def found (ip : Option PublicIp) : Bool := ip.all fun ip => ip.ipAddress.isSome

def queryPip (answers : Answers) : CreateM Unit := do
  let ipv4 ← refreshPip answers (← get).publicIpv4
  modify fun m => { m with publicIpv4 := ipv4 }
  let ipv6 ← refreshPip answers (← get).publicIpv6
  modify fun m => { m with publicIpv6 := ipv6 }
  if found ipv4 && found ipv6 then
    modify fun m => { m with state := .complete }

/-- The instance of a machine that has come to its last state. -/
def finish : CreateM (Option AzureInstance) := do
  if (← get).state = .complete then
    modify fun m => { m with complete := true }
    let vm ← required (·.vm)
    let m ← get
    return some (← AzureInstance.init vm m.nic m.publicIpv4 m.publicIpv6 none)
  else
    return none

def advance (label : Label) (answers : Answers) : CreateM (Option AzureInstance) := do
  inState .start (startCreating label answers)
  inState .vmCreating (awaitVm answers)
  inState .nicQuery (queryNic answers)
  inState .pipQuery (queryPip answers)
  finish

end AzureCreateStateMachine

end Nodepool.Azure
