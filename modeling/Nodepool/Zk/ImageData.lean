import Mathlib.Data.List.Sort
import Nodepool.Zk.ZNodeTree

/-!
The image data in ZooKeeper: `exportImageData` and `importImageData` of
`nodepool/zk/zookeeper.py`, and the operations on image uploads.

The source writes `/nodepool/images/...` and splits at the slashes; the empty part in
front of the first slash is left out here, so its ten parts are nine.
-/

namespace Nodepool

namespace ImageData

open ZTree

/-- `IMAGE_ROOT` -/
def imageRoot : ZPath := ["images", "nodepool"]

def imagePath (image : String) : ZPath := image :: imageRoot

def imagePausePath (image : String) : ZPath := "pause" :: imagePath image

def imageBuildsPath (image : String) : ZPath := "builds" :: imagePath image

def imageBuildIdPath (image buildId : String) : ZPath := buildId :: imageBuildsPath image

def imageProviderPath (image buildId : String) : ZPath :=
  "providers" :: imageBuildIdPath image buildId

def imageUploadPath (image buildId provider : String) : ZPath :=
  "images" :: provider :: imageProviderPath image buildId

def imageUploadLockPath (image buildId provider : String) : ZPath :=
  "lock" :: imageUploadPath image buildId provider

/-! ### Reading -/

def getImageNames (t : ZTree) : List String :=
  (t.children imageRoot).insertionSort (· ≤ ·)

def getImagePaused (t : ZTree) (image : String) : Bool := (t.data (imagePausePath image)).isSome

def getBuildIds (t : ZTree) (image : String) : List String :=
  (t.children (imageBuildsPath image)).filter (· ≠ "lock")

def getBuildProviders (t : ZTree) (image buildId : String) : List String :=
  (t.children (imageProviderPath image buildId)).insertionSort (· ≤ ·)

def getImageUploadNumbers (t : ZTree) (image buildId provider : String) : List String :=
  (t.children (imageUploadPath image buildId provider)).filter (· ≠ "lock")

/-- The uploads of a build that go into the export. -/
def exportUploads (t : ZTree) (image buildId : String) : List (ZPath × String) :=
  (getBuildProviders t image buildId).flatMap fun provider =>
    (getImageUploadNumbers t image buildId provider).flatMap fun number =>
      let path := number :: imageUploadPath image buildId provider
      match t.data path with
      | none => []
      | some data => [(path, data)]

def exportBuilds (t : ZTree) (image : String) : List (ZPath × String) :=
  (getBuildIds t image).flatMap fun buildId =>
    match t.data (imageBuildIdPath image buildId) with
    | none => []
    | some data => (imageBuildIdPath image buildId, data) :: exportUploads t image buildId

/-- What `exportImageData` puts into the result, one entry after another. -/
def exportEntries (t : ZTree) : List (ZPath × String) :=
  (getImageNames t).flatMap fun image =>
    (if getImagePaused t image then [(imagePausePath image, "")] else []) ++ exportBuilds t image

def exportImageData (t : ZTree) : Dict ZPath String := Dict.ofPairs (exportEntries t)

/-! ### Importing -/

/-- `int` of a numeral in decimal digits -/
def int (s : String) : Except ZkError Nat :=
  if s.toList ≠ [] ∧ s.toList.all Char.isDigit then .ok (Nat.ofDigitChars 10 s.toList 0)
  else .error .valueError

/-- Count the number of an upload into the highest of its parent. -/
def countNumber (highest : Dict ZPath Nat) : ZPath → Except ZkError (Dict ZPath Nat)
  | [] => pure highest
  | number :: key =>
      if key.length = 8 then do
        let num ← int number
        pure (highest.insert key (max (highest.get key num) num))
      else pure highest

def highestNum (importData : Dict ZPath String) : Except ZkError (Dict ZPath Nat) :=
  importData.entries.foldlM (fun highest e => countNumber highest e.1) ∅

/-- Create one sequence node; if it is not in the import data, delete it. -/
def createFiller (importData : Dict ZPath String) (path : ZPath) (t : ZTree) :
    Except ZkError ZTree := do
  let (node, t) ← createSequence t path ""
  if node ∈ importData then pure t else deleteNode t node

/-- Create sequence nodes up to the highest number. -/
def createFillers (importData : Dict ZPath String) (t : ZTree) (path : ZPath) (num : Nat) :
    Except ZkError ZTree :=
  (List.range num).foldlM (fun t _ => createFiller importData path t) t

/-- The node may have been created above; in that case, just set the data on it. -/
def restore (t : ZTree) (path : ZPath) (data : String) : Except ZkError ZTree :=
  if path ∈ t then set t path data else create t path data

def importImageData (t : ZTree) (importData : Dict ZPath String) : Except ZkError ZTree := do
  let highest ← highestNum importData
  let t ← highest.entries.foldlM (fun t e => createFillers importData t e.1 e.2) t
  importData.entries.foldlM (fun t e => restore t e.1 e.2) t

/-! ### Uploads -/

/-- `storeImageUpload`, with the number of the upload -/
def storeImageUpload (t : ZTree) (image buildId provider data : String)
    (uploadNumber : Option String) : Except ZkError (String × ZTree) :=
  if imageBuildsPath image ∉ t then .error .noNode
  else
    match uploadNumber with
    | none => do
        let (path, t) ← createSequence t (imageUploadPath image buildId provider) data
        pure (path.headD "", t)
    | some number => do
        let t ← set t (number :: imageUploadPath image buildId provider) data
        pure (number, t)

def deleteUpload (t : ZTree) (image buildId provider number : String) : ZTree :=
  deleteTree t (number :: imageUploadPath image buildId provider)

/-- `deleteBuild`: uploads must be deleted before the build. -/
def deleteBuild (t : ZTree) (image buildId : String) : ZTree :=
  if (getBuildProviders t image buildId).any fun provider =>
      getImageUploadNumbers t image buildId provider ≠ [] then t
  else deleteTree t (imageBuildIdPath image buildId)

end ImageData

end Nodepool
