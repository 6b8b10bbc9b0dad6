import Nodepool.Zk.Client

/-!
The methods of class `ZooKeeper` that list nodes from the cache and that read and
write the records of image uploads.
-/

namespace Nodepool

open Effect Method

namespace ZooKeeper

variable {σ : Type}

/-- `nodeIterator(cached_ids=True)`, with the number of each node: the numbers are
listed first, and each node is read when its turn comes. -/
def nodeIterator : LauncherM σ (List (NodeId × Node)) := do
  let ids ← call .getNodeIds
  gather ids fun id => do
    let node ← call (.getNode id)
    pure (node.toList.map fun node => (id, node))

/-- `getUploads`, without a condition on the state. -/
def getUploads (image buildId provider : String) : LauncherM σ (List UploadPath) := do
  let numbers ← call (.getUploadNumbers image buildId provider)
  gather numbers fun number => do
    let data ← call (.getImageUpload ⟨image, buildId, provider, number⟩)
    pure (if data.isSome then [⟨image, buildId, provider, number⟩] else [])

/-- All uploads for a provider. The source returns them by image and build, which
the path of an upload names as well. -/
def getProviderUploads (provider : String) : LauncherM σ (List UploadPath) := do
  let images ← call .getImageNames
  gather images fun image => do
    let builds ← call (.getBuildIds image)
    gather builds fun buildId => do
      let providers ← call (.getBuildProviders image buildId)
      -- if this build is not valid for this provider, move along
      if provider ∈ providers then getUploads image buildId provider else pure []

/-- `storeImageUpload` without a number: a new number is taken. -/
def createImageUpload (image buildId provider : String) (data : ImageUpload) :
    LauncherM σ String := do
  let exist ← call (.buildsExist image)
  raiseUnless exist .other
  call (.createImageUpload image buildId provider data)

/-- `storeImageUpload` of an upload that has a number. -/
def storeImageUpload (path : UploadPath) (data : ImageUpload) : LauncherM σ Unit := do
  let exist ← call (.buildsExist path.image)
  raiseUnless exist .other
  call (.setImageUpload path data)

end ZooKeeper

end Nodepool
