import Nodepool.Builder.Upload

/-!
The part of `nodepool/driver/ibmvpc/adapter.py` that uploads images and lists
resources. IBM Cloud is given no metadata: the node or the upload is encoded in the
name of a resource, and the provider in the name of its resource group.
-/

namespace Nodepool

open Effect Method

namespace IBMVPCAdapter

/-! ### Names -/

/-- A class of characters `[A-Za-z0-9-]`. -/
def isNameChar (c : Char) : Bool := c.isAlphanum || c == '-'

/-- `$` matches at the end, and before a line break at the end. -/
def dropFinalNewline (cs : List Char) : List Char :=
  if cs.getLast? = some '\n' then cs.dropLast else cs

/-- One or more characters of a class, up to the end of the name. -/
def matchToEnd (p : Char → Bool) (cs : List Char) : Option String :=
  let cs := dropFinalNewline cs
  if cs ≠ [] ∧ cs.all p then some (String.ofList cs) else none

/-- The rest of a name behind a fixed beginning. -/
def behind (beginning : String) (name : String) : Option (List Char) :=
  if beginning.toList <+: name.toList then some (name.toList.drop beginning.toList.length)
  else none

/-- `HOSTNAME_RE`: `^np([0-9]+)$` -/
def matchHostname (name : String) : Option String :=
  (behind "np" name).bind (matchToEnd Char.isDigit)

/-- `UPLOAD_RE`: `^npimage([0-9]+)(.*?)` -/
def matchUpload (name : String) : Option String :=
  (behind "npimage" name).bind fun cs =>
    let digits := cs.takeWhile Char.isDigit
    if digits ≠ [] then some (String.ofList digits) else none

/-- `RESOURCE_GROUP_RE`: `^np_([A-Za-z0-9-]+)_([A-Za-z0-9-]+)$` -/
def matchResourceGroup (name : String) : Option (String × String) :=
  (behind "np_" name).bind fun cs =>
    let provider := cs.takeWhile isNameChar
    match cs.dropWhile isNameChar with
    | '_' :: pool =>
        if provider ≠ [] then (matchToEnd isNameChar pool).map (String.ofList provider, ·) else none
    | _ => none

/-- `IMAGE_RESOURCE_GROUP_RE`: `^npimages_([A-Za-z0-9-]+)$` -/
def matchImageResourceGroup (name : String) : Option String :=
  (behind "npimages_" name).bind (matchToEnd isNameChar)

/-- `make_image_resource_group_name`, without its check for underscores -/
def imageResourceGroupName (provider : String) : String := "npimages_" ++ provider

/-- What the name of a resource says about its owner. -/
def metadataFromName (name : String) : Metadata :=
  match matchHostname name with
  | some id => { Metadata.empty with nodeId := some id }
  | none => { Metadata.empty with uploadId := matchUpload name }

/-- `get_metadata_from_resource_group_object` -/
def getMetadata (group : Option String) (name : String) : Metadata :=
  match group with
  | none => metadataFromName name
  | some group =>
      match matchResourceGroup group with
      | some (provider, pool) =>
          { metadataFromName name with providerName := some provider, poolName := some pool }
      | none => { metadataFromName name with providerName := matchImageResourceGroup group }

/-- `IBMVPCResource` -/
def resource (type : ResourceType) (name id : String) (group : Option String) : Resource :=
  ⟨getMetadata group name, type, name, id⟩

@[simp] theorem getMetadata_nodeId (group : Option String) (name : String) :
    (getMetadata group name).nodeId = matchHostname name := by
  have fromName : (metadataFromName name).nodeId = matchHostname name := by
    unfold metadataFromName
    split
    · rename_i h
      rw [h]
    · rename_i h
      rw [h]
      rfl
  unfold getMetadata
  split
  · exact fromName
  · split <;> exact fromName

/-! ### Uploading an image -/

variable {σ : Type} (provider : String)

/-- The default `image_name_format`: `npimage{upload_id}` -/
def imageNameFormat (_imageName uploadId : String) (_timestamp : Nat) : String :=
  "npimage" ++ uploadId

/-- `make_image_resource_group_name`, and the group if it does not exist yet. -/
def ensureImageResourceGroup : LauncherM σ Unit := do
  raiseUnless ('_' ∉ provider.toList) .other
  let exists_ ← call (.hasResourceGroup (imageResourceGroupName provider))
  when (¬ exists_) (call (.createResourceGroup (imageResourceGroupName provider)))

/-- `uploadImage`. The metadata is not used. -/
def uploadImage : UploadImage σ := fun name _filename format _metadata => do
  let location ← call .getBucketLocation
  call (.putObject (name ++ "." ++ format))
  ensureImageResourceGroup provider
  let id ← call (.createImage name (imageResourceGroupName provider)
    ("cos://" ++ location ++ "/" ++ name ++ "." ++ format))
  -- the image is polled until it is no longer pending
  let available ← call (.awaitImage id)
  raiseUnless available .other
  call (.deleteObject (name ++ "." ++ format))
  pure id

end IBMVPCAdapter

end Nodepool
