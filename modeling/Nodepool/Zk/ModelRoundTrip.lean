import Nodepool.Zk.StoredModels

/-!
The stored models of `nodepool/zk/zookeeper.py`, class by class, and what becomes of an object
that is written and read again, as a new object or into one that has been read before.
-/

namespace Nodepool.StoredModels

/-! ### Node -/

inductive NodeField where
  | cloud | provider | pool | allocatedTo | az | region | publicIpv4 | privateIpv4 | publicIpv6
  | hostId | interfaceIp | connectionPort | imageId | launcher | createdTime | externalId
  | hostname | comment | userData | holdJob | hostKeys | username | connectionType | shellType
  | resources | slot | attributes | pythonPath | tenantName | driverData | requestor
deriving DecidableEq

namespace NodeField

def key : NodeField → String
  | cloud => "cloud"
  | provider => "provider"
  | pool => "pool"
  | allocatedTo => "allocated_to"
  | az => "az"
  | region => "region"
  | publicIpv4 => "public_ipv4"
  | privateIpv4 => "private_ipv4"
  | publicIpv6 => "public_ipv6"
  | hostId => "host_id"
  | interfaceIp => "interface_ip"
  | connectionPort => "connection_port"
  | imageId => "image_id"
  | launcher => "launcher"
  | createdTime => "created_time"
  | externalId => "external_id"
  | hostname => "hostname"
  | comment => "comment"
  | userData => "user_data"
  | holdJob => "hold_job"
  | hostKeys => "host_keys"
  | username => "username"
  | connectionType => "connection_type"
  | shellType => "shell_type"
  | resources => "resources"
  | slot => "slot"
  | attributes => "attributes"
  | pythonPath => "python_path"
  | tenantName => "tenant_name"
  | driverData => "driver_data"
  | requestor => "requestor"

def default : NodeField → Dict String Json → Json
  | connectionPort, d => d.get "ssh_port" (.int 22)
  | username, _ => .str "zuul"
  | hostKeys, _ => .list []
  | _, _ => .null

end NodeField

def nodeTable : Table NodeField where
  fields := [.cloud, .provider, .pool, .allocatedTo, .az, .region, .publicIpv4, .privateIpv4,
    .publicIpv6, .hostId, .interfaceIp, .connectionPort, .imageId, .launcher, .createdTime,
    .externalId, .hostname, .comment, .userData, .holdJob, .hostKeys, .username, .connectionType,
    .shellType, .resources, .slot, .attributes, .pythonPath, .tenantName, .driverData, .requestor]
  key := NodeField.key
  optional _ := false
  default := NodeField.default

structure NodeSpecial where
  type : List Json
  holdExpiration : Json

/-- The hold of a node as it is read: an integer, and 0 for a text that is none. -/
def readHold (parseInt : String → Option ℤ) : Json → Except Err Json
  | .null => .ok .null
  | value => (value.toInt parseInt).map .int

def Node (parseInt : String → Option ℤ) : StoredClass NodeField NodeSpecial where
  validStates := ["building", "testing", "ready", "in-use", "used", "hold", "deleting", "failed",
    "init", "aborted", "deleted"]
  table := nodeTable
  specialKeys := ["type", "ssh_port", "hold_expiration"]
  writeSpecial attr x :=
    [("type", .list x.type),
      -- kept for backwards compatibility
      ("ssh_port", attr .connectionPort),
      ("hold_expiration", x.holdExpiration)]
  readSpecial d _ := do
    let hold ← readHold parseInt (d.get "hold_expiration" .null)
    .ok ⟨(d.get "type" .null).asList, hold⟩
  initial
    | .connectionPort => .int 22
    | .hostKeys => .list []
    | _ => .null
  initialSpecial := ⟨[], .null⟩

theorem mem_nodeTable (f : NodeField) : f ∈ nodeTable.fields := by cases f <;> decide

theorem nodeTable_keys : (["state", "state_time"] ++ nodeTable.fields.map nodeTable.key ++
    ["type", "ssh_port", "hold_expiration"]).Nodup := by decide

theorem node_lawful (parseInt : String → Option ℤ) : (Node parseInt).Lawful where
  complete := mem_nodeTable
  keys := nodeTable_keys
  special _ _ := .refl _
  optional _ _ h := by cases h

/-! ### NodeRequest -/

inductive NodeRequestField where
  | declinedBy | nodeTypes | nodes | reuse | requestor | requestorData | provider
  | relativePriority | eventId | createdTime | tenantName
deriving DecidableEq

namespace NodeRequestField

def key : NodeRequestField → String
  | declinedBy => "declined_by"
  | nodeTypes => "node_types"
  | nodes => "nodes"
  | reuse => "reuse"
  | requestor => "requestor"
  | requestorData => "requestor_data"
  | provider => "provider"
  | relativePriority => "relative_priority"
  | eventId => "event_id"
  | createdTime => "created_time"
  | tenantName => "tenant_name"

def default : NodeRequestField → Json
  | declinedBy | nodeTypes | nodes => .list []
  | reuse => .bool true
  | relativePriority => .int 0
  | _ => .null

end NodeRequestField

def NodeRequest : StoredClass NodeRequestField Unit where
  validStates := ["requested", "pending", "fulfilled", "failed"]
  table := {
    fields := [.declinedBy, .nodeTypes, .nodes, .reuse, .requestor, .requestorData, .provider,
      .relativePriority, .eventId, .createdTime, .tenantName]
    key := NodeRequestField.key
    optional := fun _ => false
    default := fun f _ => f.default }
  specialKeys := []
  writeSpecial _ _ := []
  readSpecial _ _ := .ok ()
  initial := NodeRequestField.default
  initialSpecial := ()

theorem nodeRequest_lawful : NodeRequest.Lawful where
  complete f := by cases f <;> decide
  keys := by decide
  special _ _ := .refl _
  optional _ _ h := by cases h

/-! ### ImageUpload -/

inductive ImageUploadField where
  | externalId | externalName | format | username | pythonPath | shellType
deriving DecidableEq

namespace ImageUploadField

def key : ImageUploadField → String
  | externalId => "external_id"
  | externalName => "external_name"
  | format => "format"
  | username => "username"
  | pythonPath => "python_path"
  | shellType => "shell_type"

def default : ImageUploadField → Json
  | username => .str "zuul"
  | pythonPath => .str "/usr/bin/python2"
  | _ => .null

end ImageUploadField

def ImageUpload : StoredClass ImageUploadField Unit where
  validStates := ["uploading", "ready", "deleting", "failed"]
  table := {
    fields := [.externalId, .externalName, .format, .username, .pythonPath, .shellType]
    key := ImageUploadField.key
    optional := fun _ => false
    default := fun f _ => f.default }
  specialKeys := []
  writeSpecial _ _ := []
  readSpecial _ _ := .ok ()
  initial _ := .null
  initialSpecial := ()

theorem imageUpload_lawful : ImageUpload.Lawful where
  complete f := by cases f <;> decide
  keys := by decide
  special _ _ := .refl _
  optional _ _ h := by cases h

/-! ### ImageBuild -/

inductive ImageBuildField where
  | builder | builderId | username | pythonPath | shellType
deriving DecidableEq

namespace ImageBuildField

def key : ImageBuildField → String
  | builder => "builder"
  | builderId => "builder_id"
  | username => "username"
  | pythonPath => "python_path"
  | shellType => "shell_type"

def optional : ImageBuildField → Bool
  | builder | builderId => true
  | _ => false

def default : ImageBuildField → Json
  | username => .str "zuul"
  | pythonPath => .str "/usr/bin/python2"
  | _ => .null

end ImageBuildField

/-- The property `formats`; the attribute is in any order. -/
def formats (fmts : List String) : List String := fmts.insertionSort (· ≤ ·)

def writeFormats (fmts : List String) : List (String × Json) :=
  if formats fmts = [] then []
  else [("formats", .str (Text.join ',' (formats fmts)))]

/-- Only a text that is not empty is split, and the attribute stays what it is otherwise. -/
def readFormats (d : Dict String Json) (fmts : List String) : Except Err (List String) :=
  match d.get "formats" (.str "") with
  | .str s => if s = "" then .ok fmts else .ok (Text.split ',' s)
  | value => if value.truthy then .error .other else .ok fmts

def ImageBuild : StoredClass ImageBuildField (List String) where
  validStates := ["building", "ready", "deleting", "failed"]
  table := {
    fields := [.builder, .builderId, .username, .pythonPath, .shellType]
    key := ImageBuildField.key
    optional := ImageBuildField.optional
    default := fun f _ => f.default }
  specialKeys := ["formats"]
  writeSpecial _ := writeFormats
  readSpecial := readFormats
  initial _ := .null
  initialSpecial := []

theorem imageBuild_lawful : ImageBuild.Lawful where
  complete f := by cases f <;> decide
  keys := by decide
  special _ x := by
    change ((writeFormats x).map (·.1)).Sublist ["formats"]
    unfold writeFormats
    split
    · exact List.nil_sublist _
    · exact .refl _
  optional f _ h := by cases f <;> first | rfl | cases h

/-! ### Round trips -/

/-- The hold as `int` has it, where `int` takes it. -/
def normalHold (parseInt : String → Option ℤ) (value : Json) : Json :=
  match readHold parseInt value with
  | .ok hold => hold
  | .error _ => value

/-- A list, a mapping or an infinite float is not a time. -/
def Countable : Json → Prop
  | .list _ | .object _ | .infinity _ => False
  | _ => True

theorem readHold_ok_iff {parseInt : String → Option ℤ} {value : Json} :
    (∃ hold, readHold parseInt value = .ok hold) ↔ Countable value := by
  cases value with
  | list | object | infinity => exact iff_of_false (fun ⟨_, h⟩ => nomatch h) id
  | null | bool | int | float | nan | str => exact iff_of_true ⟨_, rfl⟩ trivial

/-- A node comes back unless its hold is a list, a mapping or an infinite float. -/
theorem node_roundTrips_iff (parseInt : String → Option ℤ) {x : Stored NodeField NodeSpecial}
    (valid : (Node parseInt).ValidState x) (o : Stored NodeField NodeSpecial) :
    RoundTrips (Node parseInt)
        (fun s => { s with holdExpiration := normalHold parseInt s.holdExpiration }) id x o ↔
      Countable x.special.holdExpiration := by
  have lawful := node_lawful parseInt
  have type : ((Node parseInt).toDict x).lookup "type" = some (.list x.special.type) :=
    (StoredClass.lookup_special lawful x List.mem_cons_self).mpr List.mem_cons_self
  have hold : ((Node parseInt).toDict x).lookup "hold_expiration" =
      some x.special.holdExpiration :=
    (StoredClass.lookup_special lawful x
      (List.mem_cons_of_mem _ (List.mem_cons_of_mem _ List.mem_cons_self))).mpr
      (List.mem_cons_of_mem _ (List.mem_cons_of_mem _ List.mem_cons_self))
  have read (s : NodeSpecial) : (Node parseInt).readSpecial ((Node parseInt).toDict x) s =
      (readHold parseInt x.special.holdExpiration).map fun h => ⟨x.special.type, h⟩ := by
    change (do
      let h ← readHold parseInt (Dict.get _ "hold_expiration" Json.null)
      .ok (⟨(Dict.get _ "type" Json.null).asList, h⟩ : NodeSpecial)) = _
    rw [Dict.get, Dict.get, hold, type, Option.getD_some, Option.getD_some]
    cases readHold parseInt x.special.holdExpiration <;> rfl
  rw [roundTrips_iff lawful valid o, read, read, ← readHold_ok_iff]
  constructor
  · rintro ⟨y, o', decoded, -⟩
    obtain ⟨h, ok, -⟩ := exists_of_map_eq_ok decoded
    exact ⟨h, ok⟩
  · rintro ⟨h, ok⟩
    rw [ok]
    refine ⟨_, _, rfl, rfl, ?_, rfl⟩
    change (⟨x.special.type, h⟩ : NodeSpecial) =
      ⟨x.special.type, normalHold parseInt x.special.holdExpiration⟩
    rw [normalHold, ok]

/-- A class without special attributes comes back. -/
theorem plain_roundTrips {F : Type} {C : StoredClass F Unit} (lawful : C.Lawful)
    (read : ∀ d s, C.readSpecial d s = .ok ()) {x : Stored F Unit} (valid : C.ValidState x)
    (o : Stored F Unit) : RoundTrips C id id x o :=
  (roundTrips_iff lawful valid o).mpr ⟨(), (), read _ _, read _ _, rfl, rfl⟩

/-- The name of a format. -/
structure FormatName (f : String) : Prop where
  nonempty : f ≠ ""
  noComma : ',' ∉ f.toList

theorem mem_formats {fmts : List String} {f : String} :
    f ∈ formats fmts ↔ f ∈ fmts := List.mem_insertionSort _

theorem formats_eq_nil_iff {fmts : List String} : formats fmts = [] ↔ fmts = [] := by
  rw [List.eq_nil_iff_forall_not_mem, List.eq_nil_iff_forall_not_mem]
  exact forall_congr' fun f => not_congr mem_formats

theorem formats_formats (fmts : List String) : formats (formats fmts) = formats fmts :=
  (List.pairwise_insertionSort _ _).insertionSort_eq

/-- What is read of the formats of a build. -/
theorem readFormats_toDict {x : Stored ImageBuildField (List String)}
    (names : ∀ f ∈ x.special, FormatName f) (fmts : List String) :
    readFormats (ImageBuild.toDict x) fmts =
      .ok (if x.special = [] then fmts else formats x.special) := by
  have written {v : Json} : (ImageBuild.toDict x).lookup "formats" = some v ↔
      ("formats", v) ∈ writeFormats x.special :=
    StoredClass.lookup_special imageBuild_lawful x (by decide)
  unfold writeFormats at written
  by_cases empty : x.special = []
  · have missing : (ImageBuild.toDict x).lookup "formats" = none := by
      refine Option.eq_none_iff_forall_ne_some.mpr fun v found => ?_
      have := written.mp found
      rw [if_pos (formats_eq_nil_iff.mpr empty)] at this
      cases this
    rw [readFormats, Dict.get, missing, if_pos empty]
    rfl
  · have some_ : (ImageBuild.toDict x).lookup "formats" =
        some (.str (Text.join ',' (formats x.special))) := by
      refine written.mpr ?_
      rw [if_neg (mt formats_eq_nil_iff.mp empty)]
      exact List.mem_cons_self
    have split : Text.split ',' (Text.join ',' (formats x.special)) = formats x.special :=
      Text.split_join (mt formats_eq_nil_iff.mp empty) fun f mem =>
        (names f (mem_formats.mp mem)).noComma
    have nonempty : Text.join ',' (formats x.special) ≠ "" := by
      intro h
      rw [h] at split
      have mem : "" ∈ formats x.special := split ▸ List.mem_cons_self
      exact (names "" (mem_formats.mp mem)).nonempty rfl
    rw [readFormats, Dict.get, some_, if_neg empty]
    change (if Text.join ',' (formats x.special) = "" then _ else _) = _
    rw [if_neg nonempty, split]

/-- A build comes back, but a build without formats does not take those of an object away. -/
theorem imageBuild_roundTrips_iff {x : Stored ImageBuildField (List String)}
    (valid : ImageBuild.ValidState x) (names : ∀ f ∈ x.special, FormatName f)
    (o : Stored ImageBuildField (List String)) :
    RoundTrips ImageBuild id formats x o ↔ x.special ≠ [] ∨ o.special = [] := by
  rw [roundTrips_iff imageBuild_lawful valid o]
  change (∃ y o', readFormats (ImageBuild.toDict x) [] = .ok y ∧
    readFormats (ImageBuild.toDict x) o.special = .ok o' ∧ _) ↔ _
  rw [readFormats_toDict names, readFormats_toDict names]
  by_cases empty : x.special = []
  · rw [if_pos empty, if_pos empty, empty]
    constructor
    · rintro ⟨y, o', decoded, refreshed, -, same⟩
      cases decoded
      cases refreshed
      exact .inr (formats_eq_nil_iff.mp same)
    · intro h
      exact ⟨_, _, rfl, rfl, rfl, congrArg formats (h.resolve_left (absurd rfl))⟩
  · rw [if_neg empty, if_neg empty]
    exact iff_of_true ⟨_, _, rfl, rfl, formats_formats _, rfl⟩ (.inl empty)

/-- When the models are the same after they have been written and read. -/
theorem stored_roundTrips_iff (parseInt : String → Option ℤ) :
    (∀ x o, (Node parseInt).ValidState x →
      (RoundTrips (Node parseInt)
          (fun s => { s with holdExpiration := normalHold parseInt s.holdExpiration }) id x o ↔
        Countable x.special.holdExpiration)) ∧
    (∀ x o, NodeRequest.ValidState x → RoundTrips NodeRequest id id x o) ∧
    (∀ x o, ImageUpload.ValidState x → RoundTrips ImageUpload id id x o) ∧
    ∀ x o, ImageBuild.ValidState x → (∀ f ∈ x.special, FormatName f) →
      (RoundTrips ImageBuild id formats x o ↔ x.special ≠ [] ∨ o.special = []) :=
  ⟨fun _ o valid => node_roundTrips_iff parseInt valid o,
    fun _ o valid => plain_roundTrips nodeRequest_lawful (fun _ _ => rfl) valid o,
    fun _ o valid => plain_roundTrips imageUpload_lawful (fun _ _ => rfl) valid o,
    fun _ o valid names => imageBuild_roundTrips_iff valid names o⟩

/-! ### A build that is refreshed -/

/-- A build with these formats. -/
def exampleBuild (state : String) (formats : List String) :
    Stored ImageBuildField (List String) where
  state := .str state
  stateTime := .int 0
  attr _ := .null
  special := formats

/-- The build has failed and has no formats, but the object keeps the one it had. -/
theorem formats_kept :
    ¬ RoundTrips ImageBuild id formats (exampleBuild "failed" [])
      (exampleBuild "ready" ["raw"]) := by
  have valid : ImageBuild.ValidState (exampleBuild "failed" []) := ⟨"failed", by decide, rfl⟩
  intro h
  rcases (imageBuild_roundTrips_iff valid (fun _ mem => nomatch mem) _).mp h with h | h
  · exact h rfl
  · cases h

end Nodepool.StoredModels
