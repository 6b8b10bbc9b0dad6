import Nodepool.Zk.ModelRoundTrip
import Nodepool.Zk.TreeCache

/-!
The lists of `nodepool/status.py` and `getMostRecentImageUpload`, read through the caches of
`nodepool/zk/zookeeper.py` and read from ZooKeeper.

The trees are those that the functions of class `ZooKeeper` store, without locks, so that
nothing is locked. The lists are compared without their order, and what only orders them is left
out. Data is what was decoded, with the defaults that the models read.
-/

namespace Nodepool.CachedLists

open Nodepool.TreeCache
open Nodepool.StoredModels (Json NodeField NodeRequestField formats)

/-! ### The caches -/

/-- The paths below `IMAGE_ROOT`. -/
inductive ImagePath where
  | image (image : String)
  | pause (image : String)
  | requestBuild (image : String)
  | builds (image : String)
  | build (image buildId : String)
  | providers (image buildId : String)
  | provider (image buildId provider : String)
  | images (image buildId provider : String)
  | upload (image buildId provider number : String)
deriving DecidableEq

namespace ImagePath

def parent : ImagePath → Option ImagePath
  | image _ => none
  | pause i => some (image i)
  | requestBuild i => some (image i)
  | builds i => some (image i)
  | build i _ => some (builds i)
  | providers i b => some (build i b)
  | provider i b _ => some (providers i b)
  | images i b p => some (provider i b p)
  | upload i b p _ => some (images i b p)

/-- A record is stored at the path. -/
def isRecord : ImagePath → Bool
  | build _ _ => true
  | upload _ _ _ _ => true
  | _ => false

end ImagePath

/-- The keys of the `ImageCache`. -/
inductive ImageKey where
  | image (image : String)
  | build (image buildId : String)
  | upload (image buildId provider number : String)
deriving DecidableEq

section Lists

variable {T : Type}

/-- What is read of the data of a build or an upload. -/
structure ImageDoc (T : Type) where
  state : String
  stateTime : T
  builder : Json
  formats : List String
  externalId : Json
  externalName : Json

structure Image where
  imageName : String
  paused : Bool

structure ImageBuild (T : Type) where
  imageName : String
  id : String
  builder : Json
  formats : List String
  state : String
  stateTime : T

structure ImageUpload (T : Type) where
  buildId : String
  id : String
  providerName : String
  imageName : String
  externalName : Json
  externalId : Json
  state : String
  stateTime : T

/-- The formats are assigned only if there are any. -/
def ImageBuild.updateFromDict (o : ImageBuild T) (d : ImageDoc T) : ImageBuild T :=
  { o with
    builder := d.builder
    formats := if d.formats = [] then o.formats else d.formats
    state := d.state
    stateTime := d.stateTime }

def ImageBuild.fromDict (d : ImageDoc T) (imageName id : String) : ImageBuild T :=
  updateFromDict ⟨imageName, id, .null, [], d.state, d.stateTime⟩ d

def ImageUpload.updateFromDict (o : ImageUpload T) (d : ImageDoc T) : ImageUpload T :=
  { o with
    externalId := d.externalId
    externalName := d.externalName
    state := d.state
    stateTime := d.stateTime }

def ImageUpload.fromDict (d : ImageDoc T) (buildId providerName imageName id : String) :
    ImageUpload T :=
  updateFromDict ⟨buildId, id, providerName, imageName, .null, .null, d.state, d.stateTime⟩ d

inductive ImageObject (T : Type) where
  | image (o : Image)
  | build (o : ImageBuild T)
  | upload (o : ImageUpload T)

def ImageCache : CacheClass ImagePath ImageKey (ImageDoc T) (ImageObject T) where
  parsePath
    | .upload i b p n => if n = "lock" then none else some (.upload i b p n)
    | .build i b => if b = "lock" then none else some (.build i b)
    | .image i => if i = "lock" then none else some (.image i)
    | _ => none
  preCacheHook path present key object :=
    match path, object with
    | .pause i, .image o => if key = .image i then .image { o with paused := present } else object
    | _, _ => object
  objectFromDict d
    | .upload i b p n => .upload (ImageUpload.fromDict d b p i n)
    | .build i b => .build (ImageBuild.fromDict d i b)
    | .image i => .image ⟨i, false⟩
  updateFromDict d
    | .upload o => .upload (o.updateFromDict d)
    | .build o => .build (o.updateFromDict d)
    | .image o => .image o

/-- The `NodeCache` and the `RequestCache`: the path and the key of a record are its identifier,
and each attribute is read anew. -/
def RecordCache (D : Type) : CacheClass String String D (String × D) where
  parsePath id := if id = "lock" then none else some id
  preCacheHook _ _ _ object := object
  objectFromDict d id := (id, d)
  updateFromDict d object := (object.1, d)

structure NodeDoc (T : Type) where
  state : String
  stateTime : T
  type : List Json
  attr : NodeField → Json

structure RequestDoc where
  state : String
  attr : NodeRequestField → Json

/-- The caches with the trees that they are on. -/
structure Zk (T : Type) where
  images : State ImagePath ImageKey (ImageDoc T) (ImageObject T)
  nodes : State String String (NodeDoc T) (String × NodeDoc T)
  requests : State String String RequestDoc (String × RequestDoc)

/-! ### Reading the trees -/

abbrev ImageTree (T : Type) : Type := Dict ImagePath (ZNode (ImageDoc T))

def getImageNames (tree : ImageTree T) : List String :=
  tree.keys.filterMap fun
    | .image i => some i
    | _ => none

def getImagePaused (tree : ImageTree T) (image : String) : Bool := .pause image ∈ tree

def getBuildIds (tree : ImageTree T) (image : String) : List String :=
  tree.keys.filterMap fun
    | .build i b => if i = image ∧ b ≠ "lock" then some b else none
    | _ => none

def getBuildProviders (tree : ImageTree T) (image buildId : String) : List String :=
  tree.keys.filterMap fun
    | .provider i b p => if i = image ∧ b = buildId then some p else none
    | _ => none

def getImageUploadNumbers (tree : ImageTree T) (image buildId provider : String) : List String :=
  tree.keys.filterMap fun
    | .upload i b p n =>
        if i = image ∧ b = buildId ∧ p = provider ∧ n ≠ "lock" then some n else none
    | _ => none

/-- A znode without data is not decoded, which is logged. -/
def getBuild (tree : ImageTree T) (image buildId : String) : Option (ImageBuild T) :=
  ((tree.lookup (.build image buildId)).bind (·.data)).map fun d =>
    ImageBuild.fromDict d image buildId

def getImageUpload (tree : ImageTree T) (image buildId provider number : String) :
    Option (ImageUpload T) :=
  ((tree.lookup (.upload image buildId provider number)).bind (·.data)).map fun d =>
    ImageUpload.fromDict d buildId provider image number

/-- `getNode`, not cached -/
def getNode (tree : Dict String (ZNode (NodeDoc T))) (id : String) : Option (String × NodeDoc T) :=
  ((tree.lookup id).bind (·.data)).map (id, ·)

/-- `getNodeRequest`, not cached; the data is decoded also if there is none, which raises. -/
def getNodeRequest (tree : Dict String (ZNode RequestDoc)) (id : String) :
    Except Err (Option (String × RequestDoc)) :=
  match tree.lookup id with
  | none => .ok none
  | some ⟨none, _⟩ => .error .other
  | some ⟨some d, _⟩ => .ok (some (id, d))

/-! ### Reading the caches -/

def getCachedImages (cached : Dict ImageKey (ImageObject T × ℕ)) : List Image :=
  cached.entries.filterMap fun entry =>
    match entry.2.1 with
    | .image o => some o
    | _ => none

def getCachedBuilds (cached : Dict ImageKey (ImageObject T × ℕ)) : List (ImageBuild T) :=
  cached.entries.filterMap fun entry =>
    match entry.2.1 with
    | .build o => some o
    | _ => none

def getCachedImageUploads (cached : Dict ImageKey (ImageObject T × ℕ)) : List (ImageUpload T) :=
  cached.entries.filterMap fun entry =>
    match entry.2.1 with
    | .upload o => some o
    | _ => none

/-! ### The lists -/

structure DibImageRow where
  id : String
  image : String
  builder : Json
  formats : List String
  state : String
  age : ℤ

/-- The builds, and which images are paused, through the cache or not. -/
def buildsOf (zk : Zk T) (enableCache : Bool) : List (ImageBuild T) × Dict String Bool :=
  if enableCache then
    (getCachedBuilds zk.images.cached,
      Dict.ofPairs ((getCachedImages zk.images.cached).map fun o => (o.imageName, o.paused)))
  else
    ((getImageNames zk.images.tree).flatMap fun image =>
      (getBuildIds zk.images.tree image).filterMap (getBuild zk.images.tree image),
      Dict.ofPairs ((getImageNames zk.images.tree).map fun image =>
        (image, getImagePaused zk.images.tree image)))

def dibImageRow (int : T → ℤ) (paused : Bool) (build : ImageBuild T) : DibImageRow where
  id := build.imageName ++ "-" ++ build.id
  image := build.imageName
  builder := build.builder
  formats := formats build.formats
  state := if paused then "paused" else build.state
  age := int build.stateTime

/-- `dib_image_list` -/
def dibImageList (int : T → ℤ) (zk : Zk T) (enableCache : Bool) : List DibImageRow :=
  let (builds, imagePaused) := buildsOf zk enableCache
  builds.map fun build => dibImageRow int (imagePaused.get build.imageName false) build

/-- The uploads that are read from the tree. -/
def imageUploads (tree : ImageTree T) : List (ImageUpload T) :=
  (getImageNames tree).flatMap fun image =>
    (getBuildIds tree image).flatMap fun buildNo =>
      (getBuildProviders tree image buildNo).flatMap fun provider =>
        (getImageUploadNumbers tree image buildNo provider).filterMap
          (getImageUpload tree image buildNo provider)

def imageRow (int : T → ℤ) (upload : ImageUpload T) : List (String × Json) :=
  [("id", .str upload.buildId), ("upload_id", .str upload.id),
    ("provider", .str upload.providerName), ("image", .str upload.imageName),
    ("external_name", upload.externalName), ("external_id", upload.externalId),
    ("state", .str upload.state), ("age", .int (int upload.stateTime))]

/-- `image_list` -/
def imageList (int : T → ℤ) (zk : Zk T) (enableCache : Bool) : List (List (String × Json)) :=
  let uploads :=
    if enableCache then getCachedImageUploads zk.images.cached else imageUploads zk.images.tree
  uploads.map (imageRow int)

/-- A port that is no number may contain credentials. For an infinite one `int` raises an
`OverflowError`, which is not caught. -/
def shownPort (parseInt : String → Option ℤ) : Json → Except Err Json
  | .bool b => .ok (.bool b)
  | .int z => .ok (.int z)
  | .float q => .ok (.float q)
  | .infinity _ => .error .other
  | .str s => .ok (if (parseInt s).isSome then .str s else .str "redacted")
  | _ => .ok (.str "redacted")

def nodeRow (age : T → String) (parseInt : String → Option ℤ) (node : String × NodeDoc T) :
    Except Err (List (String × Json)) := do
  let port ← shownPort parseInt (node.2.attr .connectionPort)
  .ok [("id", .str node.1), ("provider", node.2.attr .provider), ("label", .list node.2.type),
    ("server_id", node.2.attr .externalId), ("public_ipv4", node.2.attr .publicIpv4),
    ("ipv6", node.2.attr .publicIpv6), ("state", .str node.2.state),
    ("age", .str (age node.2.stateTime)), ("locked", .str "unlocked"),
    ("pool", node.2.attr .pool), ("hostname", node.2.attr .hostname),
    ("private_ipv4", node.2.attr .privateIpv4), ("AZ", node.2.attr .az),
    ("username", node.2.attr .username), ("connection_port", port),
    ("launcher", node.2.attr .launcher), ("allocated_to", node.2.attr .allocatedTo),
    ("hold_job", node.2.attr .holdJob), ("comment", node.2.attr .comment),
    ("user_data", node.2.attr .userData), ("driver_data", node.2.attr .driverData)]

/-- `nodeIterator` -/
def nodeIterator (zk : Zk T) (cachedIds : Bool) : List (String × NodeDoc T) :=
  if cachedIds then
    (zk.nodes.cached.entries.map (·.2.1.1)).filterMap fun id =>
      (zk.nodes.cached.lookup id).map (·.1)
  else zk.nodes.tree.keys.filterMap (getNode zk.nodes.tree)

/-- `node_list`; one node that is asked for is not read through the cache. -/
def nodeList (age : T → String) (parseInt : String → Option ℤ) (zk : Zk T) (nodeId : Option String)
    (enableCache : Bool) : Except Err (List (List (String × Json))) :=
  let nodes :=
    match nodeId with
    | some id =>
        if id ≠ "" then (getNode zk.nodes.tree id).toList else nodeIterator zk enableCache
    | none => nodeIterator zk enableCache
  nodes.mapM (nodeRow age parseInt)

def requestRow (request : String × RequestDoc) : List (String × Json) :=
  [("id", .str request.1), ("relative_priority", request.2.attr .relativePriority),
    ("state", .str request.2.state), ("requestor", request.2.attr .requestor),
    ("node_types", request.2.attr .nodeTypes), ("nodes", request.2.attr .nodes),
    ("declined_by", request.2.attr .declinedBy), ("event_id", request.2.attr .eventId)]

/-- `getNodeRequest`, cached -/
def getCachedNodeRequest (zk : Zk T) (id : String) : Except Err (Option (String × RequestDoc)) :=
  match zk.requests.cached.lookup id with
  | some object => .ok (some object.1)
  | none => getNodeRequest zk.requests.tree id

/-- `nodeRequestIterator` -/
def nodeRequestIterator (zk : Zk T) (cachedIds : Bool) : Except Err (List (String × RequestDoc)) :=
  if cachedIds then
    ((zk.requests.cached.entries.map (·.2.1.1)).mapM (getCachedNodeRequest zk)).map
      List.reduceOption
  else (zk.requests.tree.keys.mapM (getNodeRequest zk.requests.tree)).map List.reduceOption

/-- `request_list` -/
def requestList (zk : Zk T) (enableCache : Bool) : Except Err (List (List (String × Json))) :=
  (nodeRequestIterator zk enableCache).map fun requests => requests.map requestRow

/-- Of the uploads of a provider for an image in a state, the one with the latest state time. -/
def mostRecent [LinearOrder T] (image provider state : String) (uploads : List (ImageUpload T)) :
    Option (ImageUpload T) :=
  uploads.foldl (fun recentUpload upload =>
    if upload.imageName ≠ image then recentUpload
    else if upload.providerName ≠ provider then recentUpload
    else if upload.state ≠ state then recentUpload
    else match recentUpload with
      | none => some upload
      | some recent => if recent.stateTime < upload.stateTime then some upload else some recent)
    none

def getMostRecentImageUpload [LinearOrder T] (zk : Zk T) (image provider state : String)
    (cached : Bool) : Option (ImageUpload T) :=
  let uploads :=
    if cached then getCachedImageUploads zk.images.cached
    else (getBuildIds zk.images.tree image).flatMap fun buildId =>
      (getImageUploadNumbers zk.images.tree image buildId provider).filterMap fun number =>
        (getImageUpload zk.images.tree image buildId provider number).filter (·.state = state)
  mostRecent image provider state uploads

/-! ### What is stored -/

/-- `VALID_STATES` of builds and uploads -/
def validStates : List String := ["building", "uploading", "ready", "deleting", "failed"]

/-- What is stored at a path: only a record has data, with a valid state. -/
def Storable (path : ImagePath) (data : Option (ImageDoc T)) : Prop :=
  ∀ d ∈ data, path.isRecord = true ∧ d.state ∈ validStates

/-- The trees of images: each znode has its parent, and the identifiers of builds are random. -/
structure OwnImages (tree : ImageTree T) : Prop where
  closed : ∀ path ∈ tree, ∀ parent ∈ path.parent, parent ∈ tree
  names : ∀ image buildId, .build image buildId ∈ tree → buildId ≠ "lock"
  storable : ∀ path node, tree.lookup path = some node → Storable path node.data

/-- How the trees of images are written. -/
def WritesImages (tree : ImageTree T) : Action ImagePath (ImageDoc T) → Prop
  | .create path data => (∀ parent ∈ path.parent, parent ∈ tree) ∧
      (∀ image buildId, path = .build image buildId → buildId ≠ "lock") ∧ Storable path data
  | .set path data => Storable path data
  | .delete path => ∀ child ∈ tree, path ∉ child.parent
  | _ => True

def OwnNodes (tree : Dict String (ZNode (NodeDoc T))) : Prop := "lock" ∉ tree

def WritesNodes (_ : Dict String (ZNode (NodeDoc T))) : Action String (NodeDoc T) → Prop
  | .create path _ => path ≠ "lock"
  | _ => True

/-- A request always has data. -/
structure OwnRequests (tree : Dict String (ZNode RequestDoc)) : Prop where
  names : "lock" ∉ tree
  full : ∀ path node, tree.lookup path = some node → node.data.isSome = true

def WritesRequests (_ : Dict String (ZNode RequestDoc)) : Action String RequestDoc → Prop
  | .create path data => path ≠ "lock" ∧ data.isSome = true
  | .set _ data => data.isSome = true
  | _ => True

structure Zk.Reachable (zk : Zk T) : Prop where
  images : TreeCache.Reachable ImageCache OwnImages WritesImages zk.images
  nodes : TreeCache.Reachable (RecordCache (NodeDoc T)) OwnNodes WritesNodes zk.nodes
  requests : TreeCache.Reachable (RecordCache RequestDoc) OwnRequests WritesRequests zk.requests

structure Zk.Drained (zk : Zk T) : Prop where
  images : zk.images.queue = []
  nodes : zk.nodes.queue = []
  requests : zk.requests.queue = []

/-- The uploads have different state times. -/
def Zk.DistinctTimes (zk : Zk T) : Prop :=
  ∀ i b p n i' b' p' n' u u', getImageUpload zk.images.tree i b p n = some u →
    getImageUpload zk.images.tree i' b' p' n' = some u' → u.stateTime = u'.stateTime → u = u'

/-- The same rows in some order, or an exception on both sides. -/
def SameRows {R : Type} : Except Err (List R) → Except Err (List R) → Prop
  | .ok rows, .ok rows' => rows.Perm rows'
  | .error _, .error _ => True
  | _, _ => False

/-- What is read through the caches agrees with what is read from ZooKeeper. -/
structure Agrees [LinearOrder T] (int : T → ℤ) (age : T → String) (parseInt : String → Option ℤ)
    (zk : Zk T) : Prop where
  dibImageList : (dibImageList int zk true).Perm (dibImageList int zk false)
  imageList : (imageList int zk true).Perm (imageList int zk false)
  nodeList : ∀ nodeId, SameRows (nodeList age parseInt zk nodeId true)
    (nodeList age parseInt zk nodeId false)
  requestList : ∃ cached rows, requestList zk true = .ok cached ∧ requestList zk false = .ok rows ∧
    cached.Perm rows
  recent : ∀ image provider state, getMostRecentImageUpload zk image provider state true =
    getMostRecentImageUpload zk image provider state false

/-- No image that has a build is paused. -/
def Zk.Unpaused (zk : Zk T) : Prop :=
  ∀ image buildId, (getBuild zk.images.tree image buildId).isSome = true →
    getImagePaused zk.images.tree image = false

/-- No cached build has formats from a record that was stored before. -/
def Zk.FormatsKept (zk : Zk T) : Prop :=
  ∀ image buildId build stored, getBuild zk.images.tree image buildId = some stored →
    stored.formats = [] → build ∈ getCachedBuilds zk.images.cached → build.imageName = image →
    build.id = buildId → build.formats = []

end Lists

end Nodepool.CachedLists
