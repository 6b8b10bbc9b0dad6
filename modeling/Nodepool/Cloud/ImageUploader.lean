import Mathlib.Algebra.Ring.Nat
import Nodepool.Cloud.Segments
import Nodepool.Zk.Client

/-!
`ImageUploader` of `nodepool/driver/utils.py`, which uploads an image in segments with an
executor, and its uses in the adapters of Azure and of AWS (import method `ebs-direct`).

What `startUpload` assigns to the uploader is handed to the other methods as a value. A
loop without an end takes the number of its rounds as an argument, and never returns after
the last one.
-/

namespace Nodepool

open Effect Method

variable {σ α : Type}

/-- What a subclass supplies: `Attrs` is what `startUpload` assigns, and `Result` is what
`finishUpload` returns. -/
structure ImageUploader (σ Attrs Result : Type) where
  segmentSize : Nat
  startUpload : (size : Nat) → LauncherM σ Attrs
  finishUpload : Attrs → (deadline : Option Nat) → LauncherM σ Result
  abortUpload : Attrs → (deadline : Option Nat) → LauncherM σ Unit

namespace ImageUploader

def errorRetries : Nat := 3

def concurrency : Nat := 10

/-- What is left of the loop of `retry`, with `left` attempts after this one. -/
def retryLoop (shouldRetry : Err → Bool) (func : LauncherM σ α) : (left : Nat) → LauncherM σ α
  | 0 => func
  | left + 1 => tryCatch func fun e =>
      if shouldRetry e then do
        call .sleep
        retryLoop shouldRetry func left
      else throw e

def retry (shouldRetry : Err → Bool) (func : LauncherM σ α) : LauncherM σ α :=
  retryLoop shouldRetry func (errorRetries - 1)

def checkTimeout : (deadline : Option Nat) → LauncherM σ Unit
  | none => pure ()
  | some deadline => do
      let now ← call .time
      raiseUnless (now ≤ deadline) .other

/-- Wait for some of the futures, and raise what one of them raised. -/
def collect (futures : List Segment) (firstCompleted : Bool) (deadline : Option Nat) :
    LauncherM σ (List Segment) := do
  let done ← call (.waitSegments futures firstCompleted deadline)
  forEach done fun future => call (.segmentResult future)
  checkTimeout deadline
  pure done

def uploadInner (segmentSize : Nat) (deadline : Option Nat) :
    List Segment → (futures : List Segment) → LauncherM σ Unit
  | [], futures => do
      let _ ← collect futures false deadline
      pure ()
  | segment :: rest, futures => do
      call (.readFile segmentSize)
      call (.submitSegment segment)
      let futures := futures ++ [segment]
      -- keep the pool of workers supplied with data but without reading the entire file
      if concurrency * 2 ≤ futures.length then do
        let done ← collect futures true deadline
        uploadInner segmentSize deadline rest (futures.filter (· ∉ done))
      else uploadInner segmentSize deadline rest futures

/-- `with concurrent.futures.ThreadPoolExecutor(...) as executor: body` -/
def withExecutor (body : LauncherM σ Unit) : LauncherM σ Unit := do
  let result ← attempt body
  call .shutdownExecutor
  match result with
  | .ok () => pure ()
  | .error e => throw e

/-- `self.timeout` -/
def getDeadline : (timeout : Option Nat) → LauncherM σ (Option Nat)
  | none => pure none
  | some timeout =>
      if timeout = 0 then pure none
      else do
        let now ← call .time
        pure (some (now + timeout))

variable {Attrs Result : Type}

/-- `upload` of a new uploader; `none` is what it returns without a `return`. -/
def upload (u : ImageUploader σ Attrs Result) (path : String) (timeout : Option Nat) :
    LauncherM σ (Option Result) := do
  let size ← call (.getFileSize path)
  let deadline ← getDeadline timeout
  let attrs ← u.startUpload size
  tryCatch (do
      withExecutor (do
        call (.openFile path)
        uploadInner u.segmentSize deadline (segments size u.segmentSize) [])
      let result ← u.finishUpload attrs deadline
      pure (some result))
    fun _ => do
      call (.log "Error uploading image")
      u.abortUpload attrs deadline
      pure none

end ImageUploader

/-! ### Azure -/

namespace AzureSnapshotUploader

/-- `4 * MIB` -/
def segmentSize : Nat := 4 * 1024 * 1024

def uploadSegment (segment : Segment) : LauncherM σ Unit :=
  ImageUploader.retry (fun _ => true)
    (call (.uploadSasChunk segment.offset (segment.offset + segment.length - 1)))

/-- One request of an upload, and the end of its operation. -/
def request (r : AzureRequest) (name : String) : LauncherM σ Unit := do
  call (.azure r name)
  let status ← call (.waitForAsyncOperation r)
  raiseUnless (status = "Succeeded") .other

def startUpload (name : String) : LauncherM σ Unit := do
  request .createDisk name
  request .beginGetAccess name

def finishUpload (name : String) : LauncherM σ Unit := do
  request .endGetAccess name
  request .createImage name
  request .deleteDisk name

def uploader (name : String) : ImageUploader σ Unit Unit where
  segmentSize := segmentSize
  startUpload _ := startUpload name
  finishUpload _ _ := finishUpload name
  abortUpload _ _ := pure ()

end AzureSnapshotUploader

/-- `AzureAdapter.uploadImage` -/
def AzureAdapter.uploadImage (name filename : String) : LauncherM σ String := do
  let _ ← (AzureSnapshotUploader.uploader name).upload filename none
  pure name

/-! ### AWS -/

namespace EBSSnapshotUploader

/-- `512 * KIB` -/
def segmentSize : Nat := 512 * 1024

/-- `math.ceil(self.size / GIB)` -/
def sizeInGib (size : Nat) : Nat := (size + 1024 ^ 3 - 1) / 1024 ^ 3

variable (shouldRetry : Err → Bool)

/-- The last block is filled up with zeros. The call is for the one snapshot of the
uploader, and returns whether the checksum in the response is the one of the block. -/
def uploadSegment (segment : Segment) : LauncherM σ Unit := do
  let same ← ImageUploader.retry shouldRetry
    (call (.putSnapshotBlock segment.index (max segment.length segmentSize)))
  raiseUnless same .other
  call .addSegmentCount

/-- The volume size and the snapshot. -/
def startUpload (size : Nat) : LauncherM σ (Nat × String) := do
  let snapshot ← ImageUploader.retry shouldRetry (call (.startSnapshot (sizeInGib size)))
  pure (sizeInGib size, snapshot)

/-- The loop of `finishUpload`. -/
def awaitCompleted (snapshot : String) (deadline : Option Nat) : (rounds : Nat) → LauncherM σ Unit
  | 0 => do
      let impossible ← call .forever
      nomatch impossible
  | rounds + 1 => do
      let count ← call .segmentCount
      let status ← ImageUploader.retry shouldRetry (call (.completeSnapshot snapshot count))
      raiseUnless (status ≠ "error") .other
      if status = "completed" then pure ()
      else do
        ImageUploader.checkTimeout deadline
        awaitCompleted snapshot deadline rounds

def finishUpload (rounds : Nat) (attrs : Nat × String) (deadline : Option Nat) :
    LauncherM σ (Nat × String) := do
  awaitCompleted shouldRetry attrs.2 deadline rounds
  pure attrs

def abortUpload (rounds : Nat) (attrs : Nat × String) (deadline : Option Nat) :
    LauncherM σ Unit := do
  let _ ← attempt (finishUpload shouldRetry rounds attrs deadline)
  call (.deleteSnapshot attrs.2)

def uploader (rounds : Nat) : ImageUploader σ (Nat × String) (Nat × String) where
  segmentSize := segmentSize
  startUpload := startUpload shouldRetry
  finishUpload := finishUpload shouldRetry rounds
  abortUpload := abortUpload shouldRetry rounds

end EBSSnapshotUploader

/-- `_uploadImageSnapshotEBS`, with `image_import_timeout` as `timeout` -/
def AwsAdapter.uploadImageSnapshotEBS (shouldRetry : Err → Bool) (rounds : Nat)
    (timeout : Option Nat) (name filename : String) : LauncherM σ String := do
  let uploaded ← (EBSSnapshotUploader.uploader shouldRetry rounds).upload filename timeout
  match uploaded with
  -- `None` cannot be unpacked
  | none => throw .other
  | some (volumeSize, snapshot) => call (.registerImage name volumeSize snapshot)

end Nodepool
