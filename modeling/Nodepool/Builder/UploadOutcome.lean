import Nodepool.Builder.Upload
import Nodepool.Cloud.ImageUploader
import Nodepool.Effect.Footprint
import Nodepool.Effect.Interleave

/-!
One run of `UploadWorker._uploadImage` with an adapter that uploads in segments, next to
the threads of the executor that upload the segments.

Every call to the cloud may fail, with or without effect, and time passes. The record
that comes out tells the truth exactly if two things have not happened: an exception in the
uploader of Azure after it was started, and at AWS the failure of a segment that the last wait
left unfinished at its deadline, with nothing after it that fails.
-/

namespace Nodepool

open Effect Method

/-- The adapters that use `ImageUploader`, with what the source takes from elsewhere. -/
inductive SegmentAdapter where
  | azure
  | aws (shouldRetry : Err → Bool) (rounds : Nat) (timeout : Option Nat)

namespace SegmentAdapter

def uploadImage : SegmentAdapter → UploadImage Unit
  | .azure => fun name filename _ _ => AzureAdapter.uploadImage name filename
  | .aws shouldRetry rounds timeout => fun name filename _ _ =>
      AwsAdapter.uploadImageSnapshotEBS shouldRetry rounds timeout name filename

def uploadSegment : SegmentAdapter → Segment → LauncherM Unit Unit
  | .azure => AzureSnapshotUploader.uploadSegment
  | .aws shouldRetry _ _ => EBSSnapshotUploader.uploadSegment shouldRetry

def segmentSize : SegmentAdapter → Nat
  | .azure => AzureSnapshotUploader.segmentSize
  | .aws _ _ _ => EBSSnapshotUploader.segmentSize

def isAzure : SegmentAdapter → Bool
  | .azure => true
  | .aws _ _ _ => false

end SegmentAdapter

structure SegmentWorld where
  /-- the length of the file -/
  size : Nat
  now : Nat
  submitted : List Segment
  result : Segment → Option (Except Err Unit)
  /-- the ranges of bytes that the disk at Azure has received -/
  chunks : List (Nat × Nat)
  /-- the blocks that the snapshot at AWS has received -/
  blocks : List Nat
  segmentCount : Nat
  /-- the futures that the last wait of `_uploadInner` left unfinished -/
  left : List Segment
  /-- the last operation of `finishUpload` has succeeded -/
  finished : Bool
  /-- `register_image` has succeeded -/
  registered : Bool
  /-- the exception handler of `ImageUploader.upload` was entered -/
  caught : Bool
  /-- the exception handler of `_uploadImage` was entered -/
  raised : Bool

inductive SegmentThread where
  | worker
  | executor (segment : Segment)
deriving DecidableEq

namespace SegmentWorld

def isDone (w : SegmentWorld) (future : Segment) : Bool := (w.result future).isSome

instance (w : SegmentWorld) (futures : List Segment) (firstCompleted : Bool)
    (deadline : Option Nat) (done : List Segment) :
    Decidable (Waited (w.isDone ·) futures firstCompleted deadline w.now done) :=
  inferInstanceAs (Decidable (_ ∧ _))

/-- The wait for all futures is the last one. -/
def waited (w : SegmentWorld) (futures : List Segment) (firstCompleted : Bool)
    (done : List Segment) : SegmentWorld :=
  if firstCompleted then w else { w with left := futures.filter (· ∉ done) }

def addChunk (w : SegmentWorld) (first last : Nat) : SegmentWorld :=
  { w with chunks := (first, last) :: w.chunks }

def addBlock (w : SegmentWorld) (index : Nat) : SegmentWorld :=
  { w with blocks := index :: w.blocks }

def finish (w : SegmentWorld) (b : Bool) : SegmentWorld :=
  if b then { w with finished := true } else w

def logged (w : SegmentWorld) (message : String) : SegmentWorld :=
  if message = "Error uploading image" then { w with caught := true }
  else if message = "Failed to upload build of image to provider" then { w with raised := true }
  else w

/-- The worlds that a call can lead to if it gets the given reply. -/
def next (w : SegmentWorld) : (c : Call) → LauncherSig.Reply c → List SegmentWorld
  | .getFileSize _, .ok size => if size = w.size then [w] else []
  | .time, .ok time => if time = w.now then [w] else []
  | .time, .error _ => []
  | .submitSegment segment, .ok _ => [{ w with submitted := segment :: w.submitted }]
  | .waitSegments futures first deadline, .ok done =>
      if Waited (w.isDone ·) futures first deadline w.now done then [w.waited futures first done]
      else []
  | .waitSegments _ _ _, .error _ => []
  | .segmentResult segment, r => if w.result segment = some r then [w] else []
  | .setSegmentResult segment r, .ok _ =>
      [{ w with result := Function.update w.result segment (some r) }]
  | .setSegmentResult _ _, .error _ => []
  | .shutdownExecutor, .ok _ => if ∀ segment ∈ w.submitted, w.isDone segment = true then [w] else []
  | .shutdownExecutor, .error _ => []
  | .uploadSasChunk first last, .ok _ => [w.addChunk first last]
  | .uploadSasChunk first last, .error _ => [w, w.addChunk first last]
  | .putSnapshotBlock index _, .ok true => [w.addBlock index]
  | .putSnapshotBlock index _, _ => [w, w.addBlock index]
  | .addSegmentCount, .ok _ => [{ w with segmentCount := w.segmentCount + 1 }]
  | .addSegmentCount, .error _ => []
  | .segmentCount, .ok count => if count = w.segmentCount then [w] else []
  | .segmentCount, .error _ => []
  | .waitForAsyncOperation request, .ok status =>
      [w.finish (request = .deleteDisk ∧ status = "Succeeded")]
  | .completeSnapshot _ _, .ok status => [w.finish (status = "completed")]
  | .registerImage _ _ _, .ok _ => [{ w with registered := true }]
  | .log message, .ok _ => [w.logged message]
  | .log _, .error _ => []
  | .forever, _ => []
  | _, _ => [w]

inductive Env (w : SegmentWorld) : SegmentWorld → Prop where
  | tick (now : Nat) (later : w.now ≤ now) : Env w { w with now := now }

def init (size : Nat) : SegmentWorld where
  size := size
  now := 0
  submitted := []
  result _ := none
  chunks := []
  blocks := []
  segmentCount := 0
  left := []
  finished := false
  registered := false
  caught := false
  raised := false

end SegmentWorld

/-- What `_uploadImage` is called with. -/
structure UploadJob where
  provider : UploadProvider
  path : UploadPath
  images : List String

namespace SegmentThread

/-- The worker keeps what `_uploadImage` returned or raised, and a thread of the executor
whether it has run. -/
abbrev State : SegmentThread → Type
  | .worker => Option (Except Err ImageUpload)
  | .executor _ => Bool

abbrev Op : SegmentThread → Type
  | .worker => UploadJob
  | .executor _ => Unit

/-- What the executor does with a function that was submitted. -/
def runSegment (adapter : SegmentAdapter) (segment : Segment) : LauncherM Unit Unit := do
  let result ← attempt (adapter.uploadSegment segment)
  call (.setSegmentResult segment result)

def body (adapter : SegmentAdapter) :
    (i : SegmentThread) → i.Op → i.State → Prog LauncherSig i.State
  | .worker, job, _ =>
      (UploadWorker.uploadImage adapter.uploadImage job.provider job.path job.images ()).bind
        fun out => .pure (some out.1)
  | .executor segment, _, _ => (runSegment adapter segment ()).bind fun _ => .pure true

def enabled (w : SegmentWorld) : (i : SegmentThread) → i.State → Bool
  | .worker, s => s.isNone
  | .executor segment, s => segment ∈ w.submitted && !s

def initial : (i : SegmentThread) → i.State
  | .worker => none
  | .executor _ => false

end SegmentThread

abbrev segmentSystem (adapter : SegmentAdapter) :
    System LauncherSig SegmentWorld SegmentThread where
  State := SegmentThread.State
  Op := SegmentThread.Op
  body := SegmentThread.body adapter
  enabled i _ s w := SegmentThread.enabled w i s
  next _ := SegmentWorld.next
  env := SegmentWorld.Env

namespace SegmentSystem

open SegmentWorld

def init (adapter : SegmentAdapter) (size : Nat) : Config (segmentSystem adapter) where
  world := SegmentWorld.init size
  thread i := .pure i.initial

/-- The cloud has received a segment. -/
def Stored : SegmentAdapter → SegmentWorld → Segment → Prop
  | .azure, w, segment => (segment.offset, segment.offset + segment.length - 1) ∈ w.chunks
  | .aws _ _ _, w, segment => segment.index ∈ w.blocks

/-- The uploader has finished the upload of the complete image. -/
def Complete (adapter : SegmentAdapter) (w : SegmentWorld) : Prop :=
  w.finished = true ∧ ∀ segment ∈ segments w.size adapter.segmentSize, Stored adapter w segment

/-- `uploadSegment` has raised. -/
def HasFailed (w : SegmentWorld) (segment : Segment) : Prop :=
  ∃ e, w.result segment = some (.error e)

/-- The upload of the image has failed at some step after it was started. -/
def Failed (w : SegmentWorld) : Prop := w.caught = true ∨ ∃ segment, HasFailed w segment

/-- A record that is READY is real and any other is FAILED, and what fails in the uploader
comes to the worker as an exception and makes a FAILED record. -/
structure Honest (adapter : SegmentAdapter) (w : SegmentWorld) (data : ImageUpload) : Prop where
  state : data.state = .ready ∨ data.state = .failed
  ready : data.state = .ready → data.externalId.isSome ∧ Complete adapter w
  failed : Failed w → w.raised = true ∧ data.state = .failed

/-- A segment that the last wait left has failed. -/
def Missed (w : SegmentWorld) : Prop := ∃ segment ∈ w.left, HasFailed w segment

variable {adapter : SegmentAdapter} {w w' : SegmentWorld} {i : SegmentThread}

/-! ### Invariant and rely -/

/-- What an upload of a segment that has succeeded leaves. -/
def Invariant (adapter : SegmentAdapter) (w : SegmentWorld) : Prop :=
  ∀ segment, w.result segment = some (.ok ()) → Stored adapter w segment

/-- The cloud keeps what it has received, and a submitted segment has one result. -/
structure Later (w w' : SegmentWorld) : Prop where
  size : w'.size = w.size
  now : w.now ≤ w'.now
  chunks : w.chunks ⊆ w'.chunks
  blocks : w.blocks ⊆ w'.blocks
  submitted : w.submitted ⊆ w'.submitted
  result : ∀ segment, w'.result segment = w.result segment ∨
    w.result segment = none ∧ segment ∈ w'.submitted

/-- What only the worker changes, but for the end of the upload. -/
structure Hush (w w' : SegmentWorld) : Prop extends Later w w' where
  same_submitted : w'.submitted = w.submitted
  left : w'.left = w.left
  registered : w'.registered = w.registered
  caught : w'.caught = w.caught
  raised : w'.raised = w.raised

/-- What only the worker changes. -/
structure Aside (w w' : SegmentWorld) : Prop extends Hush w w' where
  finished : w'.finished = w.finished

/-- The result of a segment is left to its own thread. -/
structure Apart (segment : Segment) (w w' : SegmentWorld) : Prop extends Later w w' where
  own : w'.result segment = w.result segment

def Beside : SegmentThread → SegmentWorld → SegmentWorld → Prop
  | .worker => Aside
  | .executor segment => Apart segment

theorem Later.refl (w : SegmentWorld) : Later w w :=
  ⟨rfl, le_refl _, List.Subset.refl _, List.Subset.refl _, List.Subset.refl _, fun _ => .inl rfl⟩

theorem Later.of_eq (size : w'.size = w.size) (now : w'.now = w.now)
    (chunks : w'.chunks = w.chunks) (blocks : w'.blocks = w.blocks)
    (submitted : w'.submitted = w.submitted) (result : w'.result = w.result) : Later w w' :=
  ⟨size, now.ge, chunks ▸ List.Subset.refl _, blocks ▸ List.Subset.refl _,
    submitted ▸ List.Subset.refl _, fun segment => .inl (congrFun result segment)⟩

theorem Later.trans {w'' : SegmentWorld} (h : Later w w') (h' : Later w' w'') : Later w w'' where
  size := h'.size.trans h.size
  now := h.now.trans h'.now
  chunks := List.Subset.trans h.chunks h'.chunks
  blocks := List.Subset.trans h.blocks h'.blocks
  submitted := List.Subset.trans h.submitted h'.submitted
  result segment := by
    rcases h'.result segment with same' | ⟨unset', mem'⟩
    · rcases h.result segment with same | ⟨unset, mem⟩
      · exact .inl (same'.trans same)
      · exact .inr ⟨unset, h'.submitted mem⟩
    · rcases h.result segment with same | ⟨unset, -⟩
      · exact .inr ⟨same.symm.trans unset', mem'⟩
      · exact .inr ⟨unset, mem'⟩

theorem later_tick {now : Nat} (later : w.now ≤ now) : Later w { w with now := now } :=
  ⟨rfl, later, List.Subset.refl _, List.Subset.refl _, List.Subset.refl _, fun _ => .inl rfl⟩

/-- A result stays as it is. -/
theorem Later.keeps {segment : Segment} {r : Except Err Unit} (h : Later w w')
    (set : w.result segment = some r) : w'.result segment = some r := by
  rcases h.result segment with same | ⟨unset, -⟩
  · exact same.trans set
  · rw [unset] at set
    cases set

theorem Hush.refl (w : SegmentWorld) : Hush w w := ⟨.refl w, rfl, rfl, rfl, rfl, rfl⟩

theorem Aside.refl (w : SegmentWorld) : Aside w w := ⟨.refl w, rfl⟩

theorem Aside.trans {w'' : SegmentWorld} (h : Aside w w') (h' : Aside w' w'') : Aside w w'' where
  toLater := h.toLater.trans h'.toLater
  same_submitted := h'.same_submitted.trans h.same_submitted
  left := h'.left.trans h.left
  registered := h'.registered.trans h.registered
  caught := h'.caught.trans h.caught
  raised := h'.raised.trans h.raised
  finished := h'.finished.trans h.finished

theorem Stored.later {segment : Segment} (h : Stored adapter w segment) (hl : Later w w') :
    Stored adapter w' segment := by
  cases adapter with
  | azure => exact hl.chunks h
  | aws shouldRetry rounds timeout => exact hl.blocks h

/-- The result of a segment is set once and by its own thread, and only the worker logs, submits,
waits, and asks of the cloud what is for the whole image. -/
def Req (adapter : SegmentAdapter) (i : SegmentThread) (w : SegmentWorld) : Call → Prop
  | .setSegmentResult segment result =>
      i = .executor segment ∧ segment ∈ w.submitted ∧ w.result segment = none ∧
        (result = .ok () → Stored adapter w segment)
  | .submitSegment _ | .waitSegments _ _ _ | .log _ | .waitForAsyncOperation _
  | .completeSnapshot _ _ | .registerImage _ _ _ => i = .worker
  | _ => True

/-! ### One step -/

/-- What a call can do. -/
inductive Stepped (w : SegmentWorld) : (c : Call) → LauncherSig.Reply c → SegmentWorld → Prop where
  | same (c : Call) (r : LauncherSig.Reply c) : Stepped w c r w
  | submit (segment : Segment) (r : Except Err Unit) :
      Stepped w (.submitSegment segment) r { w with submitted := segment :: w.submitted }
  | result (segment : Segment) (result r : Except Err Unit) :
      Stepped w (.setSegmentResult segment result) r
        { w with result := Function.update w.result segment (some result) }
  | chunk (first last : Nat) (r : Except Err Unit) :
      Stepped w (.uploadSasChunk first last) r (w.addChunk first last)
  | block (index length : Nat) (r : Except Err Bool) :
      Stepped w (.putSnapshotBlock index length) r (w.addBlock index)
  | count (r : Except Err Unit) :
      Stepped w .addSegmentCount r { w with segmentCount := w.segmentCount + 1 }
  | async (request : AzureRequest) (status : String) :
      Stepped w (.waitForAsyncOperation request) (.ok status)
        (w.finish (request = .deleteDisk ∧ status = "Succeeded"))
  | snapshot (id : String) (count : Nat) (status : String) :
      Stepped w (.completeSnapshot id count) (.ok status) (w.finish (status = "completed"))
  | wait (futures done : List Segment) (first : Bool) (deadline : Option Nat) :
      Stepped w (.waitSegments futures first deadline) (.ok done) (w.waited futures first done)
  | register (name snapshot : String) (volumeSize : Nat) (r : Except Err String) :
      Stepped w (.registerImage name volumeSize snapshot) r { w with registered := true }
  | log (message : String) (r : Except Err Unit) : Stepped w (.log message) r (w.logged message)

theorem eq_of_mem_ite {b : Prop} [Decidable b] {v : SegmentWorld}
    (h : v ∈ if b then [w] else []) : v = w := by
  split at h
  · exact List.mem_singleton.mp h
  · cases h

theorem next_stepped {c : Call} {r : LauncherSig.Reply c} (h : w' ∈ w.next c r) :
    Stepped w c r w' := by
  unfold SegmentWorld.next at h
  split at h
  case h_3 | h_6 | h_9 | h_11 | h_17 | h_19 | h_24 | h_25 => cases h
  case h_1 | h_2 | h_7 | h_10 | h_18 =>
    rw [eq_of_mem_ite h]
    exact .same _ _
  case h_5 =>
    rw [eq_of_mem_ite h]
    constructor
  case h_13 | h_15 =>
    rcases List.mem_pair.mp h with rfl | rfl
    · exact .same _ _
    · constructor
  all_goals
    obtain rfl := List.mem_singleton.mp h
    constructor

theorem hush_finish (w : SegmentWorld) (b : Bool) : Hush w (w.finish b) := by
  unfold SegmentWorld.finish
  split
  · exact ⟨.of_eq rfl rfl rfl rfl rfl rfl, rfl, rfl, rfl, rfl, rfl⟩
  · exact .refl w

/-- What the worker notes for itself does not matter to the cloud. -/
theorem later_waited (w : SegmentWorld) (futures done : List Segment) (first : Bool) :
    Later w (w.waited futures first done) := by
  unfold SegmentWorld.waited
  split <;> exact .of_eq rfl rfl rfl rfl rfl rfl

theorem later_logged (w : SegmentWorld) (message : String) : Later w (w.logged message) := by
  unfold SegmentWorld.logged
  split
  · exact .of_eq rfl rfl rfl rfl rfl rfl
  · split <;> exact .of_eq rfl rfl rfl rfl rfl rfl

theorem later_stepped {c : Call} {r : LauncherSig.Reply c} (hreq : Req adapter i w c)
    (h : Stepped w c r w') : Later w w' := by
  cases h with
  | submit segment r =>
      exact ⟨rfl, le_refl _, List.Subset.refl _, List.Subset.refl _, List.subset_cons_self _ _,
        fun _ => .inl rfl⟩
  | result segment result r =>
      refine ⟨rfl, le_refl _, List.Subset.refl _, List.Subset.refl _, List.Subset.refl _, ?_⟩
      intro other
      by_cases ho : other = segment
      · subst ho
        exact .inr ⟨hreq.2.2.1, hreq.2.1⟩
      · exact .inl (Function.update_of_ne ho _ _)
  | chunk first last r =>
      exact ⟨rfl, le_refl _, List.subset_cons_self _ _, List.Subset.refl _, List.Subset.refl _,
        fun _ => .inl rfl⟩
  | block index length r =>
      exact ⟨rfl, le_refl _, List.Subset.refl _, List.subset_cons_self _ _, List.Subset.refl _,
        fun _ => .inl rfl⟩
  | async request status | snapshot id count status => exact (hush_finish w _).toLater
  | wait futures done first deadline => exact later_waited w futures done first
  | log message r => exact later_logged w message
  | _ => exact .of_eq rfl rfl rfl rfl rfl rfl

/-- The calls that leave alone what the worker keeps track of. -/
def Quiet : Call → Prop
  | .log message =>
      message ≠ "Error uploading image" ∧
        message ≠ "Failed to upload build of image to provider"
  | .waitForAsyncOperation request => request ≠ .deleteDisk
  | .setSegmentResult _ _ | .completeSnapshot _ _ | .submitSegment _ | .waitSegments _ _ _
  | .registerImage _ _ _ => False
  | _ => True

/-- The calls of a `finishUpload`. -/
def Silent : Call → Prop
  | .log _ | .setSegmentResult _ _ | .submitSegment _ | .waitSegments _ _ _
  | .registerImage _ _ _ => False
  | _ => True

theorem worker_req {c : Call} (hc : Quiet c ∨ Silent c) : Req adapter .worker w c := by
  unfold Req
  split
  · exact (hc.elim id id : False).elim
  all_goals trivial

theorem aside_stepped {c : Call} {r : LauncherSig.Reply c} (hc : Quiet c)
    (h : Stepped w c r w') : Aside w w' := by
  have req : Req .azure .worker w c := worker_req (.inl hc)
  have later := later_stepped req h
  cases h with
  | submit | result | snapshot | wait | register => cases hc
  | async request status =>
      have none : w.finish (request = .deleteDisk ∧ status = "Succeeded") = w := by
        unfold SegmentWorld.finish
        rw [if_neg]
        exact fun hb => hc (of_decide_eq_true hb).1
      rw [none]
      exact .refl w
  | log message r =>
      have none : w.logged message = w := by
        unfold SegmentWorld.logged
        rw [if_neg hc.1, if_neg hc.2]
      rw [none]
      exact .refl w
  | _ => exact ⟨⟨later, rfl, rfl, rfl, rfl, rfl⟩, rfl⟩

theorem hush_stepped {c : Call} {r : LauncherSig.Reply c} (hc : Silent c)
    (h : Stepped w c r w') : Hush w w' := by
  have req : Req .azure .worker w c := worker_req (.inr hc)
  have later := later_stepped req h
  cases h with
  | submit | result | wait | register | log => cases hc
  | async request status | snapshot id count status => exact hush_finish w _
  | _ => exact ⟨later, rfl, rfl, rfl, rfl, rfl⟩

theorem invariant_stepped {c : Call} {r : LauncherSig.Reply c} (h : Invariant adapter w)
    (hreq : Req adapter i w c) (hs : Stepped w c r w') : Invariant adapter w' := by
  have later := later_stepped hreq hs
  have kept : w'.result = w.result → Invariant adapter w' := by
    intro same segment hr
    rw [same] at hr
    exact (h segment hr).later later
  cases hs with
  | result segment result r =>
      intro other hr
      by_cases ho : other = segment
      · subst ho
        simp only [Function.update_self] at hr
        exact (hreq.2.2.2 (Option.some.inj hr)).later later
      · simp only [Function.update_of_ne ho] at hr
        exact (h other hr).later later
  | async request status | snapshot id count status =>
      exact kept (by unfold SegmentWorld.finish; split <;> rfl)
  | wait futures done first deadline =>
      exact kept (by unfold SegmentWorld.waited; split <;> rfl)
  | log message r =>
      exact kept (by unfold SegmentWorld.logged; split <;> [rfl; split <;> rfl])
  | _ => exact kept rfl

theorem apart_stepped {segment : Segment} {c : Call} {r : LauncherSig.Reply c}
    (hc : ∀ result, c ≠ .setSegmentResult segment result) (hreq : Req adapter i w c)
    (hs : Stepped w c r w') : Apart segment w w' := by
  refine ⟨later_stepped hreq hs, ?_⟩
  cases hs with
  | result other result r =>
      have ho : segment ≠ other := by
        rintro rfl
        exact hc result rfl
      exact Function.update_of_ne ho _ _
  | async request status | snapshot id count status =>
      unfold SegmentWorld.finish
      split <;> rfl
  | wait futures done first deadline =>
      unfold SegmentWorld.waited
      split <;> rfl
  | log message r =>
      unfold SegmentWorld.logged
      split
      · rfl
      · split <;> rfl
  | _ => rfl

theorem beside_stepped {j : SegmentThread} {c : Call} {r : LauncherSig.Reply c} (hij : i ≠ j)
    (hreq : Req adapter i w c) (hs : Stepped w c r w') : Beside j w w' := by
  cases j with
  | executor segment =>
      refine apart_stepped (fun result hc => ?_) hreq hs
      subst hc
      exact hij hreq.1
  | worker =>
      have later := later_stepped hreq hs
      cases hs with
      | submit | async | snapshot | wait | register | log => exact absurd hreq hij
      | _ => exact ⟨⟨later, rfl, rfl, rfl, rfl, rfl⟩, rfl⟩

/-! ### The threads of the executor -/

abbrev context (adapter : SegmentAdapter) (i : SegmentThread) :
    Context LauncherSig SegmentWorld :=
  (segmentSystem adapter).context (System.always _) (Invariant adapter) (Beside i)
    (Req adapter i) i

variable {σ α : Type} {segment : Segment} {s : σ}

/-- What `retry` returns, one attempt has returned. -/
theorem retry_wp {Γ : Context LauncherSig SegmentWorld} {func : LauncherM σ α}
    {shouldRetry : Err → Bool} {B : SegmentWorld → Prop} {Q : α → σ → SegmentWorld → Prop}
    (attempt : ∀ s w, B w → func.wp Γ Q (fun _ _ => B) s w)
    (sleep : ∀ s w, B w → (call .sleep : LauncherM σ Unit).wp Γ (fun _ _ => B) (fun _ _ => B) s w)
    {w : SegmentWorld} (h : B w) :
    (ImageUploader.retry shouldRetry func).wp Γ Q (fun _ _ => B) s w := by
  unfold ImageUploader.retry
  generalize ImageUploader.errorRetries - 1 = left
  induction left generalizing s w with
  | zero => exact attempt s w h
  | succ left ih =>
      refine wp_tryCatch.mpr (wp_mono (attempt s w h) (fun _ _ _ h => h) fun e s₁ w₁ h₁ => ?_)
      split
      · exact wp_bind.mpr (wp_mono (sleep s₁ w₁ h₁) (fun _ _ _ h₂ => ih h₂) fun _ _ _ h => h)
      · exact h₁

theorem within_retry {P : Call → Prop} {shouldRetry : Err → Bool} {func : LauncherM σ α}
    (hf : Within P (fun s => s) func) (sleep : P .sleep) :
    Within P (fun s => s) (ImageUploader.retry shouldRetry func) := by
  unfold ImageUploader.retry
  generalize ImageUploader.errorRetries - 1 = left
  induction left with
  | zero => exact hf
  | succ left ih =>
      exact .tryCatch hf fun _ => .ite (.bind (.perform sleep) fun _ => ih) .throw

/-- A call of a thread of the executor. -/
theorem executor_call {c : Call} (hc : ∀ w, Req adapter (.executor segment) w c)
    {Q : c.Val → σ → SegmentWorld → Prop} {E : Err → σ → SegmentWorld → Prop}
    (ok : ∀ v (w w' : SegmentWorld), w' ∈ w.next c (.ok v) → Q v s w') (error : ∀ e w, E e s w) :
    (call c).wp (context adapter (.executor segment)) Q E s w := by
  exact Method.wp_call (P := fun _ => True) (fun _ _ _ => trivial) trivial (fun w _ _ => hc w)
    (fun v w₁ w₂ _ _ hs _ => ok v w₁ w₂ hs.1) fun e _ w₂ _ _ _ _ => error e w₂

theorem azure_uploadSegment_wp :
    (AzureSnapshotUploader.uploadSegment segment).wp (context .azure (.executor segment))
      (fun _ _ w' => Stored .azure w' segment) (fun _ _ _ => True) s w := by
  refine retry_wp (B := fun _ => True) (fun s w _ => ?_) (fun s w _ => ?_) trivial
  · refine executor_call (c := .uploadSasChunk _ _) (fun _ => trivial) (fun v w₁ w₂ mem => ?_)
      fun _ _ => trivial
    obtain rfl := List.mem_singleton.mp mem
    exact List.mem_cons_self
  · exact executor_call (c := .sleep) (fun _ => trivial) (fun _ _ _ _ => trivial) fun _ _ => trivial

theorem aws_uploadSegment_wp {shouldRetry : Err → Bool} {rounds : Nat} {timeout : Option Nat} :
    (EBSSnapshotUploader.uploadSegment shouldRetry segment).wp
      (context (.aws shouldRetry rounds timeout) (.executor segment))
      (fun _ _ w' => Stored (.aws shouldRetry rounds timeout) w' segment) (fun _ _ _ => True)
      s w := by
  have put : ∀ {s : σ} {w : SegmentWorld}, (ImageUploader.retry shouldRetry
      (call (.putSnapshotBlock segment.index
        (max segment.length EBSSnapshotUploader.segmentSize)))).wp
      (context (.aws shouldRetry rounds timeout) (.executor segment))
      (fun same _ w' => same = true → Stored (.aws shouldRetry rounds timeout) w' segment)
      (fun _ _ _ => True) s w := by
    intro s w
    refine retry_wp (B := fun _ => True) (fun s w _ => ?_) (fun s w _ => ?_) trivial
    · refine executor_call (c := .putSnapshotBlock _ _) (fun _ => trivial)
        (fun v w₁ w₂ mem hv => ?_) fun _ _ => trivial
      obtain rfl : v = true := hv
      obtain rfl := List.mem_singleton.mp mem
      exact List.mem_cons_self
    · exact executor_call (c := .sleep) (fun _ => trivial) (fun _ _ _ _ => trivial)
        fun _ _ => trivial
  refine wp_bind.mpr (wp_mono put (fun same s₁ w₁ stored => ?_) fun _ _ _ _ => trivial)
  cases same with
  | false => trivial
  | true =>
      refine Method.wp_call (P := fun w => Stored (.aws shouldRetry rounds timeout) w segment)
        (fun h hr _ => h.later hr.toLater) (stored rfl) (fun _ _ _ => trivial) ?_
        fun _ _ _ _ _ _ _ => trivial
      intro v w₂ w₃ h _ hs _
      have mem : w₃ ∈ w₂.next .addSegmentCount (.ok v) := hs.1
      exact h.later (aside_stepped (c := .addSegmentCount) trivial (next_stepped mem)).toLater

/-- The calls of an `uploadSegment`. -/
def Uploading : Call → Prop
  | .sleep | .uploadSasChunk _ _ | .putSnapshotBlock _ _ | .addSegmentCount => True
  | _ => False

/-- A segment that has been submitted and whose result has not been set. -/
structure Pending (segment : Segment) (w : SegmentWorld) : Prop where
  submitted : segment ∈ w.submitted
  unset : w.result segment = none

theorem Pending.apart (h : Pending segment w) (ha : Apart segment w w') : Pending segment w' :=
  ⟨ha.submitted h.submitted, ha.own.trans h.unset⟩

theorem executor_req {c : Call} (hc : Uploading c) : Req adapter (.executor segment) w c := by
  cases c <;> trivial

theorem uploading_stable :
    Stable (context adapter (.executor segment)) Uploading (Pending segment) where
  rely h hr _ := h.apart hr
  req hc _ _ := executor_req hc
  step {c r w w'} hc h _ hs _ := by
    have mem : w' ∈ w.next c r := hs.1
    have req : Req adapter (.executor segment) w c := executor_req hc
    refine h.apart (apart_stepped ?_ req (next_stepped mem))
    rintro result rfl
    cases hc

theorem within_uploadSegment :
    Within Uploading (fun s : Unit => s) (adapter.uploadSegment segment) := by
  cases adapter with
  | azure => exact within_retry (.perform trivial) trivial
  | aws shouldRetry rounds timeout =>
      exact .bind (within_retry (.perform trivial) trivial) fun _ =>
        .bind (raiseUnless_within _ _) fun _ => .perform trivial

theorem uploadSegment_wp {w : SegmentWorld} (h : Pending segment w) :
    (adapter.uploadSegment segment).wp (context adapter (.executor segment))
      (fun _ _ w' => Pending segment w' ∧ Stored adapter w' segment)
      (fun _ _ w' => Pending segment w') () w := by
  have stored : (adapter.uploadSegment segment).wp (context adapter (.executor segment))
      (fun _ _ w' => Stored adapter w' segment) (fun _ _ _ => True) () w := by
    cases adapter with
    | azure => exact azure_uploadSegment_wp
    | aws shouldRetry rounds timeout => exact aws_uploadSegment_wp
  have stable : Stable (context adapter (.executor segment)) Uploading (Pending segment) :=
    uploading_stable
  exact wp_mono (wp_and (within_uploadSegment.wp stable h) stored)
    (fun _ _ _ h => ⟨h.1.2, h.2⟩) fun _ _ _ h => h.1.2

theorem runSegment_wp {w : SegmentWorld} (h : Pending segment w) :
    (SegmentThread.runSegment adapter segment).wp (context adapter (.executor segment))
      (fun _ _ _ => True) (fun _ _ _ => True) () w := by
  have set : ∀ {result : Except Err Unit} {s : Unit} {w : SegmentWorld},
      Pending segment w ∧ (result = .ok () → Stored adapter w segment) →
      (call (.setSegmentResult segment result)).wp (context adapter (.executor segment))
        (fun _ _ _ => True) (fun _ _ _ => True) s w := by
    intro result s w h
    exact Method.wp_call
      (P := fun w => Pending segment w ∧ (result = .ok () → Stored adapter w segment))
      (fun h hr _ => ⟨h.1.apart hr, fun hok => (h.2 hok).later hr.toLater⟩) h
      (fun _ h _ => ⟨rfl, h.1.submitted, h.1.unset, h.2⟩) (fun _ _ _ _ _ _ _ => trivial)
      fun _ _ _ _ _ _ _ => trivial
  refine wp_bind.mpr (wp_attempt.mpr (wp_mono (uploadSegment_wp h) (fun v _ w h => ?_)
    fun e _ w h => ?_))
  · exact set ⟨h.1, fun _ => h.2⟩
  · exact set ⟨h, fun h => nomatch h⟩

/-! ### The worker -/

/-- An assertion that only ends when the worker makes it end. -/
abbrev Lasting (B : SegmentWorld → Prop) : Prop := ∀ {w w'}, B w → Aside w w' → B w'

/-- An assertion that also survives the end of the upload. -/
abbrev Enduring (B : SegmentWorld → Prop) : Prop := ∀ {w w'}, B w → Hush w w' → B w'

theorem quiet_stable {B : SegmentWorld → Prop} (lasting : Lasting B) :
    Stable (context adapter .worker) Quiet B where
  rely h hr _ := lasting h hr
  req hc _ _ := worker_req (Or.inl hc)
  step {c r w w'} hc h _ hs _ := by
    have mem : w' ∈ w.next c r := hs.1
    exact lasting h (aside_stepped hc (next_stepped mem))

theorem silent_stable {B : SegmentWorld → Prop} (enduring : Enduring B) :
    Stable (context adapter .worker) Silent B where
  rely h hr _ := enduring h hr.toHush
  req hc _ _ := worker_req (Or.inr hc)
  step {c r w w'} hc h _ hs _ := by
    have mem : w' ∈ w.next c r := hs.1
    exact enduring h (hush_stepped hc (next_stepped mem))

/-- What the quiet calls of a method leave alone. -/
theorem quiet_wp {m : LauncherM σ α} (within : Within Quiet (fun s => s) m)
    {B : SegmentWorld → Prop} (lasting : Lasting B) {w : SegmentWorld} (h : B w) :
    m.wp (context adapter .worker) (fun _ _ => B) (fun _ _ => B) s w :=
  wp_mono (within.wp (quiet_stable lasting) h) (fun _ _ _ h => h.2) fun _ _ _ h => h.2

theorem silent_wp {m : LauncherM σ α} (within : Within Silent (fun s => s) m)
    {B : SegmentWorld → Prop} (enduring : Enduring B) {w : SegmentWorld} (h : B w) :
    m.wp (context adapter .worker) (fun _ _ => B) (fun _ _ => B) s w :=
  wp_mono (within.wp (silent_stable enduring) h) (fun _ _ _ h => h.2) fun _ _ _ h => h.2

/-- The uploads of some segments have returned. -/
abbrev AllReturned (segments : List Segment) (w : SegmentWorld) : Prop :=
  ∀ segment ∈ segments, w.result segment = some (.ok ())

theorem AllReturned.later {segments : List Segment} (h : AllReturned segments w)
    (hl : Later w w') : AllReturned segments w' :=
  fun segment hs => hl.keeps (h segment hs)

theorem results_wp {B : SegmentWorld → Prop} (lasting : Lasting B) {done : List Segment}
    {w : SegmentWorld} (h : B w) :
    (forEach done fun future => (call (.segmentResult future) : LauncherM σ Unit)).wp
      (context adapter .worker) (fun _ _ w' => B w' ∧ AllReturned done w')
      (fun _ _ => B) s w := by
  induction done generalizing s w B with
  | nil => exact ⟨h, fun _ hs => absurd hs List.not_mem_nil⟩
  | cons future done ih =>
      have one : (call (.segmentResult future) : LauncherM σ Unit).wp (context adapter .worker)
          (fun _ _ w' => B w' ∧ w'.result future = some (.ok ())) (fun _ _ => B) s w := by
        refine Method.wp_call (P := B) (fun h hr _ => lasting h hr) h (fun _ _ _ => trivial) ?_ ?_
        · intro v w₁ w₂ h₁ _ hs _
          have mem : w₂ ∈ if w₁.result future = some (.ok v) then [w₁] else [] := hs.1
          split at mem
          · rename_i hr
            obtain rfl := List.mem_singleton.mp mem
            exact ⟨h₁, hr⟩
          · cases mem
        · intro e w₁ w₂ h₁ _ hs _
          have mem : w₂ ∈ w₁.next (.segmentResult future) (.error e) := hs.1
          exact lasting h₁ (aside_stepped (c := .segmentResult future) trivial (next_stepped mem))
      refine wp_bind.mpr (wp_mono one (fun _ s₁ w₁ h₁ => ?_) fun _ _ _ h => h)
      refine wp_mono (ih (B := fun w => B w ∧ w.result future = some (.ok ()))
        (fun h ha => ⟨lasting h.1 ha, ha.keeps h.2⟩) h₁) ?_ fun _ _ _ h => h.1
      rintro _ s₂ w₂ ⟨⟨h₂, returned⟩, rest⟩
      exact ⟨h₂, List.forall_mem_cons.mpr ⟨returned, rest⟩⟩

theorem checkTimeout_wp {B : SegmentWorld → Prop} (lasting : Lasting B) {deadline : Option Nat}
    {w : SegmentWorld} (h : B w) :
    (ImageUploader.checkTimeout deadline : LauncherM σ Unit).wp (context adapter .worker)
      (fun _ _ w' => B w') (fun _ _ => B) s w := by
  have within : Within Quiet (fun s : σ => s)
      (ImageUploader.checkTimeout deadline : LauncherM σ Unit) := by
    cases deadline with
    | none => exact .pure
    | some time => exact .bind (.perform trivial) fun _ => .ite .pure .throw
  exact quiet_wp within lasting h

/-- One wait. What is known when it is over is kept while the results are looked at. -/
theorem collect_wp {P : SegmentWorld → Prop} {B : List Segment → SegmentWorld → Prop}
    (before : Lasting P) (lasting : ∀ done, Lasting (B done)) {futures : List Segment}
    {first : Bool} {deadline : Option Nat}
    (waited : ∀ w done, P w → Waited (w.isDone ·) futures first deadline w.now done →
      B done (w.waited futures first done)) {w : SegmentWorld} (h : P w) :
    (ImageUploader.collect futures first deadline : LauncherM σ (List Segment)).wp
      (context adapter .worker) (fun done _ w' => B done w' ∧ AllReturned done w')
      (fun _ _ w' => ∃ done, B done w') s w := by
  refine wp_bind.mpr (Method.wp_call (P := P) (fun h hr _ => before h hr) h (fun _ _ _ => rfl)
    ?_ ?_)
  · intro done w₁ w₂ h₁ _ hs _
    have mem : w₂ ∈ if Waited (w₁.isDone ·) futures first deadline w₁.now done then
        [w₁.waited futures first done] else [] := hs.1
    split at mem
    · rename_i ended
      obtain rfl := List.mem_singleton.mp mem
      refine wp_bind.mpr (wp_mono (results_wp (lasting done) (waited w₁ done h₁ ended)) ?_
        fun _ _ _ h => ⟨done, h⟩)
      intro _ s₂ w₂ h₂
      have both : Lasting fun w => B done w ∧ AllReturned done w :=
        fun h ha => ⟨lasting done h.1 ha, h.2.later ha.toLater⟩
      exact wp_bind.mpr (wp_mono (checkTimeout_wp both h₂) (fun _ _ _ h => h)
        fun _ _ _ h => ⟨done, h.1⟩)
    · cases mem
  · intro e w₁ w₂ _ _ hs _
    have mem : w₂ ∈ w₁.next (.waitSegments futures first deadline) (.error e) := hs.1
    cases mem

/-- Between the start of an upload and the first message. -/
structure Underway (size : Nat) (w : SegmentWorld) : Prop where
  size : w.size = size
  registered : w.registered = false
  caught : w.caught = false
  raised : w.raised = false
  results : ∀ segment r, w.result segment = some r → segment ∈ w.submitted

/-- All segments but the last ones have been submitted, and each one that is no longer waited for
has returned. -/
structure Known (size : Nat) (all rest futures : List Segment) (w : SegmentWorld) : Prop
    extends Underway size w where
  all : ∀ segment ∈ all, segment ∈ rest ∨ segment ∈ w.submitted
  known : ∀ segment ∈ w.submitted, segment ∈ futures ∨ w.result segment = some (.ok ())

variable {size : Nat} {all rest futures : List Segment}

theorem Underway.hush (h : Underway size w) (hh : Hush w w') : Underway size w' where
  size := hh.size.trans h.size
  registered := hh.registered.trans h.registered
  caught := hh.caught.trans h.caught
  raised := hh.raised.trans h.raised
  results segment r set := by
    rcases hh.result segment with same | ⟨-, mem⟩
    · exact hh.submitted (h.results segment r (same.symm.trans set))
    · exact mem

theorem Known.aside (h : Known size all rest futures w) (ha : Aside w w') :
    Known size all rest futures w' where
  toUnderway := h.hush ha.toHush
  all segment mem := (h.all segment mem).imp_right fun mem => ha.submitted mem
  known segment mem := by
    rw [ha.same_submitted] at mem
    exact (h.known segment mem).imp_right ha.keeps

/-- Futures that have returned need not be waited for. -/
theorem Known.returned {futures' done : List Segment} (h : Known size all rest futures w)
    (returned : AllReturned done w)
    (other : ∀ future ∈ futures, future ∈ futures' ∨ future ∈ done) :
    Known size all rest futures' w where
  toUnderway := h.toUnderway
  all := h.all
  known segment mem := by
    rcases h.known segment mem with future | known
    · exact (other segment future).imp_right (returned segment)
    · exact .inr known

theorem submit_wp {segment : Segment} {w : SegmentWorld}
    (h : Known size all (segment :: rest) futures w) :
    (call (.submitSegment segment) : LauncherM σ Unit).wp (context adapter .worker)
      (fun _ _ w' => Known size all rest (futures ++ [segment]) w') (fun _ _ => Underway size)
      s w := by
  refine Method.wp_call (P := Known size all (segment :: rest) futures)
    (fun h hr _ => h.aside hr) h (fun _ _ _ => rfl) ?_ ?_
  · intro v w₁ w₂ h₁ _ hs _
    have mem : w₂ ∈ w₁.next (.submitSegment segment) (.ok v) := hs.1
    obtain rfl := List.mem_singleton.mp mem
    refine ⟨⟨h₁.size, h₁.registered, h₁.caught, h₁.raised, fun x r set =>
      List.mem_cons_of_mem _ (h₁.results x r set)⟩, fun x mem => ?_, fun x mem => ?_⟩
    · rcases h₁.all x mem with mem | mem
      · rcases List.mem_cons.mp mem with rfl | mem
        · exact .inr List.mem_cons_self
        · exact .inl mem
      · exact .inr (List.mem_cons_of_mem _ mem)
    · rcases List.mem_cons.mp mem with rfl | mem
      · exact .inl (List.mem_append_right _ List.mem_cons_self)
      · exact (h₁.known x mem).imp_left (List.mem_append_left _)
  · intro e w₁ w₂ h₁ _ hs _
    have mem : w₂ ∈ w₁.next (.submitSegment segment) (.error e) := hs.1
    obtain rfl := List.mem_singleton.mp mem
    exact h₁.toUnderway

/-- The last wait leaves futures at its deadline only. -/
def Unlimited (adapter : SegmentAdapter) (w : SegmentWorld) : Prop :=
  adapter.isAzure = true → w.left = []

theorem uploadInner_wp {segmentSize : Nat} {deadline : Option Nat}
    (limit : adapter.isAzure = true → deadline = none) {w : SegmentWorld}
    (h : Known size all rest futures w) :
    (ImageUploader.uploadInner segmentSize deadline rest futures : LauncherM σ Unit).wp
      (context adapter .worker)
      (fun _ _ w' => Known size all [] w'.left w' ∧ Unlimited adapter w')
      (fun _ _ => Underway size) s w := by
  induction rest generalizing futures s w with
  | nil =>
      refine wp_bind.mpr (wp_mono (collect_wp (P := Known size all [] futures)
        (B := fun done w => Known size all [] (w.left ++ done) w ∧ Unlimited adapter w)
        (fun h ha => h.aside ha) ?_ ?_ h) ?_ fun _ _ _ ⟨_, h⟩ => h.1.toUnderway)
      · intro done w w' h ha
        rw [Unlimited, ha.left]
        exact ⟨h.1.aside ha, h.2⟩
      · intro w done h ended
        refine ⟨⟨⟨h.size, h.registered, h.caught, h.raised, h.results⟩, h.all, ?_⟩, fun azure => ?_⟩
        · intro segment mem
          refine (h.known segment mem).imp_left fun future => ?_
          by_cases hd : segment ∈ done
          · exact List.mem_append_right _ hd
          · exact List.mem_append_left _ (List.mem_filter.mpr ⟨future, by simpa using hd⟩)
        · -- without a deadline, the wait is for all of them
          have all : ∀ future ∈ futures, future ∈ done := by
            refine ended.2.2.resolve_right ?_
            rintro ⟨time, mem, -⟩
            rw [limit azure] at mem
            cases mem
          exact List.filter_eq_nil_iff.mpr fun future mem => by simpa using all future mem
      · rintro done s₁ w₁ ⟨⟨h₁, unlimited⟩, returned⟩
        exact ⟨h₁.returned returned fun _ => List.mem_append.mp, unlimited⟩
  | cons segment rest ih =>
      have read : Within Quiet (fun s : σ => s) (call (.readFile segmentSize)) := .perform trivial
      refine wp_bind.mpr (wp_mono (quiet_wp read (fun h ha => h.aside ha) h)
        (fun _ s₁ w₁ h₁ => ?_) fun _ _ _ h => h.toUnderway)
      refine wp_bind.mpr (wp_mono (submit_wp h₁) (fun _ s₂ w₂ h₂ => ?_) fun _ _ _ h => h)
      dsimp only
      split
      · refine wp_bind.mpr (wp_mono (collect_wp
          (B := fun _ => Known size all rest (futures ++ [segment])) (fun h ha => h.aside ha)
          (fun _ _ _ h ha => h.aside ha) (fun _ _ h _ => h) h₂) ?_
          fun _ _ _ ⟨_, h⟩ => h.toUnderway)
        rintro done s₃ w₃ ⟨h₃, returned⟩
        refine ih (h₃.returned returned fun future mem => ?_)
        by_cases hd : future ∈ done
        · exact .inr hd
        · exact .inl (List.mem_filter.mpr ⟨mem, by simpa using hd⟩)
      · exact ih h₂

/-! ### The uploaders -/

variable {Attrs Result : Type}

/-- What an adapter's uploader does at the beginning and at the end. -/
structure Uploads (adapter : SegmentAdapter) (u : ImageUploader σ Attrs Result) : Prop where
  segmentSize : u.segmentSize = adapter.segmentSize
  start : ∀ size, Within Quiet (fun s => s) (u.startUpload size)
  finish : ∀ {B : SegmentWorld → Prop}, Enduring B → ∀ attrs deadline s w, B w →
    (u.finishUpload attrs deadline).wp (context adapter .worker)
      (fun _ _ w' => B w' ∧ w'.finished = true) (fun _ _ => B) s w
  abort : ∀ attrs deadline, Within Silent (fun s => s) (u.abortUpload attrs deadline)

/-- The executor is left when all its threads have ended. -/
theorem shutdown_wp {P : SegmentWorld → Prop} (kept : Lasting P) {w : SegmentWorld} (h : P w) :
    (call .shutdownExecutor : LauncherM σ Unit).wp (context adapter .worker)
      (fun _ _ w' => P w' ∧ ∀ segment ∈ w'.submitted, w'.isDone segment = true)
      (fun _ _ _ => False) s w := by
  refine Method.wp_call (P := P) (fun h hr _ => kept h hr) h (fun _ _ _ => trivial) ?_ ?_
  · intro v w₁ w₂ h₁ _ hs _
    have mem : w₂ ∈ if ∀ segment ∈ w₁.submitted, w₁.isDone segment = true then [w₁] else [] := hs.1
    split at mem
    · rename_i done
      obtain rfl := List.mem_singleton.mp mem
      exact ⟨h₁, done⟩
    · cases mem
  · intro e w₁ w₂ _ _ hs _
    have mem : w₂ ∈ w₁.next .shutdownExecutor (.error e) := hs.1
    cases mem

theorem withExecutor_wp {B P : SegmentWorld → Prop} (lasting : Lasting B) (kept : Lasting P)
    {body : LauncherM σ Unit} {w : SegmentWorld}
    (h : body.wp (context adapter .worker) (fun _ _ => P) (fun _ _ => B) s w) :
    (ImageUploader.withExecutor body).wp (context adapter .worker)
      (fun _ _ w' => P w' ∧ ∀ segment ∈ w'.submitted, w'.isDone segment = true)
      (fun _ _ => B) s w := by
  refine wp_bind.mpr (wp_attempt.mpr (wp_mono h (fun _ s₁ w₁ h₁ => ?_) fun e s₁ w₁ h₁ => ?_))
  · exact wp_bind.mpr (wp_mono (shutdown_wp kept h₁) (fun _ _ _ h => h) fun _ _ _ h => h.elim)
  · exact wp_bind.mpr (wp_mono (shutdown_wp lasting h₁) (fun _ _ _ h => h.1) fun _ _ _ h => h.elim)

/-- Each segment of the file has been uploaded, but for those that the last wait left, which may
have failed. -/
structure Over (adapter : SegmentAdapter) (w : SegmentWorld) : Prop where
  all : ∀ segment ∈ segments w.size adapter.segmentSize, segment ∈ w.submitted
  known : ∀ segment ∈ w.submitted, segment ∈ w.left ∨ w.result segment = some (.ok ())
  done : ∀ segment ∈ w.submitted, w.isDone segment = true
  results : ∀ segment r, w.result segment = some r → segment ∈ w.submitted
  unlimited : Unlimited adapter w

theorem Over.hush (h : Over adapter w) (hh : Hush w w') : Over adapter w' where
  all segment mem := by
    rw [hh.size] at mem
    exact hh.submitted (h.all segment mem)
  known segment mem := by
    rw [hh.same_submitted] at mem
    rw [hh.left]
    exact (h.known segment mem).imp_right hh.keeps
  done segment mem := by
    rw [hh.same_submitted] at mem
    obtain ⟨r, set⟩ := Option.isSome_iff_exists.mp (h.done segment mem)
    exact Option.isSome_iff_exists.mpr ⟨r, hh.keeps set⟩
  results segment r set := by
    rcases hh.result segment with same | ⟨-, mem⟩
    · exact hh.submitted (h.results segment r (same.symm.trans set))
    · exact mem
  unlimited := by
    rw [Unlimited, hh.left]
    exact h.unlimited

/-- Nothing is missing if no segment that was left has failed. -/
theorem Over.returned (h : Over adapter w) (none : ¬ Missed w) : AllReturned w.submitted w := by
  intro segment mem
  refine (h.known segment mem).elim (fun left => ?_) id
  obtain ⟨e | v, set⟩ := Option.isSome_iff_exists.mp (h.done segment mem)
  · exact absurd ⟨segment, left, e, set⟩ none
  · exact set

/-- Before the first segment is submitted. -/
structure Fresh (size : Nat) (w : SegmentWorld) : Prop extends Underway size w where
  submitted : w.submitted = []

theorem Fresh.hush (h : Fresh size w) (hh : Hush w w') : Fresh size w' :=
  ⟨h.toUnderway.hush hh, hh.same_submitted.trans h.submitted⟩

theorem Fresh.known (h : Fresh size w) : Known size all all [] w where
  toUnderway := h.toUnderway
  all _ mem := .inl mem
  known segment mem := by
    rw [h.submitted] at mem
    cases mem

theorem getDeadline_wp {B : SegmentWorld → Prop} (lasting : Lasting B) {timeout : Option Nat}
    {w : SegmentWorld} (h : B w) :
    (ImageUploader.getDeadline timeout : LauncherM σ (Option Nat)).wp (context adapter .worker)
      (fun deadline _ w' => B w' ∧ (timeout = none → deadline = none)) (fun _ _ => B) s w := by
  cases timeout with
  | none => exact ⟨h, fun _ => rfl⟩
  | some timeout =>
      have within : Within Quiet (fun s : σ => s)
          (ImageUploader.getDeadline (some timeout) : LauncherM σ (Option Nat)) :=
        .ite .pure (.bind (.perform trivial) fun _ => .pure)
      exact wp_mono (quiet_wp within lasting h) (fun _ _ _ h => ⟨h, fun none => nomatch none⟩)
        fun _ _ _ h => h

theorem getFileSize_wp {path : String} {w : SegmentWorld} (h : Fresh size w) :
    (call (.getFileSize path) : LauncherM σ Nat).wp (context adapter .worker)
      (fun n _ w' => n = size ∧ Fresh size w') (fun _ _ => Fresh size) s w := by
  refine Method.wp_call (P := Fresh size) (fun h hr _ => h.hush hr.toHush) h
    (fun _ _ _ => trivial) ?_ ?_
  · intro n w₁ w₂ h₁ _ hs _
    have mem : w₂ ∈ if n = w₁.size then [w₁] else [] := hs.1
    split at mem
    · rename_i hn
      obtain rfl := List.mem_singleton.mp mem
      exact ⟨hn.trans h₁.size, h₁⟩
    · cases mem
  · intro e w₁ w₂ h₁ _ hs _
    have mem : w₂ ∈ w₁.next (.getFileSize path) (.error e) := hs.1
    exact h₁.hush (aside_stepped (c := .getFileSize path) trivial (next_stepped mem)).toHush

/-- `finishUpload` has returned. -/
structure Finished (adapter : SegmentAdapter) (w : SegmentWorld) : Prop extends Over adapter w where
  finished : w.finished = true

theorem Finished.aside (h : Finished adapter w) (ha : Aside w w') : Finished adapter w' :=
  ⟨h.toOver.hush ha.toHush, ha.finished.trans h.finished⟩

/-- The body of the `try` in `upload`. -/
theorem uploadBody_wp {u : ImageUploader σ Attrs Result} (uploads : Uploads adapter u)
    {path : String} {deadline : Option Nat} (limit : adapter.isAzure = true → deadline = none)
    {attrs : Attrs} {w : SegmentWorld} (h : Fresh size w) :
    (do
      ImageUploader.withExecutor (do
        call (.openFile path)
        ImageUploader.uploadInner u.segmentSize deadline (segments size u.segmentSize) [])
      let result ← u.finishUpload attrs deadline
      pure (some result) : LauncherM σ (Option Result)).wp (context adapter .worker)
      (fun result _ w' => result.isSome = true ∧ Underway size w' ∧ Finished adapter w')
      (fun _ _ => Underway size) s w := by
  have lasting : Lasting (Underway size) := fun h ha => h.hush ha.toHush
  have «open» : Within Quiet (fun s : σ => s) (call (.openFile path)) := .perform trivial
  have inner : (do
      call (.openFile path)
      ImageUploader.uploadInner u.segmentSize deadline (segments size u.segmentSize) [] :
        LauncherM σ Unit).wp (context adapter .worker)
      (fun _ _ w' => Known size (segments size u.segmentSize) [] w'.left w' ∧
        Unlimited adapter w')
      (fun _ _ => Underway size) s w := by
    refine wp_bind.mpr (wp_mono (quiet_wp «open» (fun h ha => h.hush ha.toHush) h)
      (fun _ s₁ w₁ h₁ => ?_) fun _ _ _ h => h.toUnderway)
    exact uploadInner_wp limit h₁.known
  have kept : Lasting fun w =>
      Known size (segments size u.segmentSize) [] w.left w ∧ Unlimited adapter w := by
    intro w w' h ha
    rw [Unlimited, ha.left]
    exact ⟨h.1.aside ha, h.2⟩
  refine wp_bind.mpr (wp_mono (withExecutor_wp lasting kept inner) ?_ fun _ _ _ h => h)
  rintro _ s₁ w₁ ⟨⟨known, unlimited⟩, done⟩
  have ended : Over adapter w₁ := by
    refine ⟨fun segment mem => ?_, known.known, done, known.results, unlimited⟩
    rw [known.size, ← uploads.segmentSize] at mem
    exact (known.all segment mem).resolve_left List.not_mem_nil
  refine wp_bind.mpr (wp_mono (uploads.finish (B := fun w => Underway size w ∧ Over adapter w)
    (fun h hh => ⟨h.1.hush hh, h.2.hush hh⟩) attrs deadline s₁ w₁ ⟨known.toUnderway, ended⟩) ?_
    fun _ _ _ h => h.1)
  rintro result s₂ w₂ ⟨⟨h₂, ended₂⟩, finished⟩
  exact ⟨rfl, h₂, ended₂, finished⟩

/-- What `upload` leaves: a result when `finishUpload` has returned, and none after an
exception. -/
structure Uploaded (adapter : SegmentAdapter) (result : Option Result) (w : SegmentWorld) :
    Prop where
  raised : w.raised = false
  registered : w.registered = false
  some : result.isSome = true → w.caught = false ∧ Finished adapter w
  none : result.isSome = false → w.caught = true

theorem upload_wp {u : ImageUploader σ Attrs Result} (uploads : Uploads adapter u)
    (aborts : Prop)
    (abort : ∀ {B : SegmentWorld → Prop}, Enduring B → ∀ attrs deadline s w, B w →
      (u.abortUpload attrs deadline).wp (context adapter .worker) (fun _ _ => B)
        (fun _ _ w' => B w' ∧ aborts) s w)
    {path : String} {timeout : Option Nat} (limit : adapter.isAzure = true → timeout = none)
    {w : SegmentWorld} (h : Fresh w.size w) :
    (u.upload path timeout).wp (context adapter .worker)
      (fun result _ w' => Uploaded adapter result w')
      (fun _ _ w' => w'.raised = false ∧ w'.registered = false ∧ (w'.caught = true → aborts))
      s w := by
  generalize w.size = size at h
  have lasting : Lasting (Fresh size) := fun h ha => h.hush ha.toHush
  have exits : ∀ {w}, Fresh size w →
      w.raised = false ∧ w.registered = false ∧ (w.caught = true → aborts) :=
    fun h => ⟨h.raised, h.registered, fun hc => absurd (h.caught.symm.trans hc) (by decide)⟩
  refine wp_bind.mpr (wp_mono (getFileSize_wp h) ?_ fun _ _ _ h => exits h)
  rintro _ s₁ w₁ ⟨rfl, h₁⟩
  refine wp_bind.mpr (wp_mono (getDeadline_wp lasting h₁) ?_ fun _ _ _ h => exits h)
  rintro deadline s₂ w₂ ⟨h₂, unlimited⟩
  refine wp_bind.mpr (wp_mono (quiet_wp (uploads.start _) lasting h₂) (fun attrs s₃ w₃ h₃ => ?_)
    fun _ _ _ h => exits h)
  refine wp_tryCatch.mpr (wp_mono (uploadBody_wp uploads (fun azure => unlimited (limit azure)) h₃)
    ?_ fun e s₄ w₄ h₄ => ?_)
  · rintro result s₄ w₄ ⟨some_, h₄, finished⟩
    exact ⟨h₄.raised, h₄.registered, fun _ => ⟨h₄.caught, finished⟩,
      fun none => absurd (some_.symm.trans none) (by decide)⟩
  · -- the handler: the message, and the abort
    have message : (call (.log "Error uploading image") : LauncherM σ Unit).wp
        (context adapter .worker)
        (fun _ _ w' => w'.caught = true ∧ w'.raised = false ∧ w'.registered = false)
        (fun _ _ _ => False) s₄ w₄ := by
      refine Method.wp_call (P := Underway _) (fun h hr _ => h.hush hr.toHush) h₄
        (fun _ _ _ => rfl) ?_ ?_
      · intro v w₅ w₆ h₅ _ hs _
        have mem : w₆ ∈ w₅.next (.log "Error uploading image") (.ok v) := hs.1
        obtain rfl := List.mem_singleton.mp mem
        exact ⟨rfl, h₅.raised, h₅.registered⟩
      · intro e w₅ w₆ _ _ hs _
        have mem : w₆ ∈ w₅.next (.log "Error uploading image") (.error e) := hs.1
        cases mem
    refine wp_bind.mpr (wp_mono message (fun _ s₅ w₅ h₅ => ?_) fun _ _ _ h => h.elim)
    have enduring : Enduring fun w =>
        w.caught = true ∧ w.raised = false ∧ w.registered = false :=
      fun h hh => ⟨hh.caught.trans h.1, hh.raised.trans h.2.1, hh.registered.trans h.2.2⟩
    refine wp_bind.mpr (wp_mono (abort enduring attrs deadline s₅ w₅ h₅) ?_ ?_)
    · exact fun _ _ _ h => ⟨h.2.1, h.2.2, fun some_ => (nomatch some_), fun _ => h.1⟩
    · exact fun _ _ _ h => ⟨h.1.2.1, h.1.2.2, fun _ => h.2⟩

/-! ### Azure -/

theorem within_request {P : Call → Prop} {r : AzureRequest} {name : String}
    (request : P (.azure r name)) (await : P (.waitForAsyncOperation r)) :
    Within P (fun s : σ => s) (AzureSnapshotUploader.request r name) :=
  .bind (.perform request) fun _ => .bind (.perform await) fun _ => raiseUnless_within _ _

theorem deleteDisk_wp {B : SegmentWorld → Prop} (enduring : Enduring B) {name : String}
    {w : SegmentWorld} (h : B w) :
    (AzureSnapshotUploader.request .deleteDisk name : LauncherM σ Unit).wp (context adapter .worker)
      (fun _ _ w' => B w' ∧ w'.finished = true) (fun _ _ => B) s w := by
  have request : Within Silent (fun s : σ => s) (call (.azure .deleteDisk name)) := .perform trivial
  refine wp_bind.mpr (wp_mono (silent_wp request enduring h) (fun _ s₁ w₁ h₁ => ?_)
    fun _ _ _ h => h)
  refine wp_bind.mpr (Method.wp_call (P := B) (fun h hr _ => enduring h hr.toHush) h₁
    (fun _ _ _ => rfl) ?_ ?_)
  · intro status w₂ w₃ h₂ _ hs _
    have mem : w₃ ∈ w₂.next (.waitForAsyncOperation .deleteDisk) (.ok status) := hs.1
    have h₃ := enduring h₂ (hush_stepped (c := .waitForAsyncOperation .deleteDisk) trivial
      (next_stepped mem))
    unfold raiseUnless
    split
    · rename_i succeeded
      obtain rfl := List.mem_singleton.mp mem
      refine ⟨h₃, ?_⟩
      unfold SegmentWorld.finish
      rw [if_pos (by simpa using succeeded)]
    · exact h₃
  · intro e w₂ w₃ h₂ _ hs _
    have mem : w₃ ∈ w₂.next (.waitForAsyncOperation .deleteDisk) (.error e) := hs.1
    exact enduring h₂ (hush_stepped (c := .waitForAsyncOperation .deleteDisk) trivial
      (next_stepped mem))

theorem azure_uploads (name : String) :
    Uploads (σ := σ) .azure (AzureSnapshotUploader.uploader name) where
  segmentSize := rfl
  start _ := .bind (within_request trivial (by decide : AzureRequest.createDisk ≠ .deleteDisk))
    fun _ => within_request trivial (by decide : AzureRequest.beginGetAccess ≠ .deleteDisk)
  abort _ _ := .pure
  finish enduring _ _ s w h := by
    have access : Within Silent (fun s : σ => s)
        (AzureSnapshotUploader.request .endGetAccess name) := within_request trivial trivial
    have create : Within Silent (fun s : σ => s)
        (AzureSnapshotUploader.request .createImage name) := within_request trivial trivial
    refine wp_bind.mpr (wp_mono (silent_wp access enduring h) (fun _ s₁ w₁ h₁ => ?_)
      fun _ _ _ h => h)
    refine wp_bind.mpr (wp_mono (silent_wp create enduring h₁) (fun _ s₂ w₂ h₂ => ?_)
      fun _ _ _ h => h)
    exact deleteDisk_wp enduring h₂

/-- What an adapter leaves when it returns. -/
structure Returned (adapter : SegmentAdapter) (w : SegmentWorld) : Prop where
  raised : w.raised = false
  finished : w.caught = false → Finished adapter w
  aws : adapter.isAzure = false → w.caught = false ∧ w.registered = true

/-- What an adapter leaves when it raises. -/
structure Raised (adapter : SegmentAdapter) (w : SegmentWorld) : Prop where
  raised : w.raised = false
  registered : w.registered = false
  azure : adapter.isAzure = true → w.caught = false

theorem azure_uploadImage_wp {name filename : String} {w : SegmentWorld} (h : Fresh w.size w) :
    (AzureAdapter.uploadImage name filename : LauncherM σ String).wp (context .azure .worker)
      (fun _ _ w' => Returned .azure w') (fun _ _ w' => Raised .azure w') s w := by
  refine wp_bind.mpr (wp_mono (upload_wp (azure_uploads name) False
    (fun _ _ _ _ _ h => h) (fun _ => rfl) h) ?_ ?_)
  · intro result s₁ w₁ uploaded
    refine ⟨uploaded.raised, fun uncaught => (uploaded.some ?_).2, fun h => nomatch h⟩
    cases hr : result.isSome with
    | true => rfl
    | false => exact absurd (uncaught.symm.trans (uploaded.none hr)) (by decide)
  · rintro e s₁ w₁ ⟨raised, registered, caught⟩
    refine ⟨raised, registered, fun _ => ?_⟩
    cases hc : w₁.caught with
    | false => rfl
    | true => exact (caught hc).elim

/-! ### AWS -/

variable {shouldRetry : Err → Bool} {rounds : Nat} {timeout : Option Nat}

theorem within_checkTimeout {P : Call → Prop} (time : P .time) {deadline : Option Nat} :
    Within P (fun s : σ => s) (ImageUploader.checkTimeout deadline) := by
  cases deadline with
  | none => exact .pure
  | some deadline => exact .bind (.perform time) fun _ => raiseUnless_within _ _

theorem within_awaitCompleted {snapshot : String} {deadline : Option Nat} :
    Within Silent (fun s : σ => s)
      (EBSSnapshotUploader.awaitCompleted shouldRetry snapshot deadline rounds) := by
  induction rounds with
  | zero => exact .bind (.perform trivial) fun impossible => nomatch impossible
  | succ rounds ih =>
      refine .bind (.perform trivial) fun count => .bind (within_retry (.perform trivial) trivial)
        fun status => .bind (raiseUnless_within _ _) fun _ => .ite .pure ?_
      exact .bind (within_checkTimeout trivial) fun _ => ih

/-- The loop only ends without an exception when the snapshot is completed. -/
theorem awaitCompleted_wp {B : SegmentWorld → Prop} (enduring : Enduring B) {snapshot : String}
    {deadline : Option Nat} {w : SegmentWorld} (h : B w) :
    (EBSSnapshotUploader.awaitCompleted shouldRetry snapshot deadline rounds :
      LauncherM σ Unit).wp (context adapter .worker)
      (fun _ _ w' => B w' ∧ w'.finished = true) (fun _ _ => B) s w := by
  induction rounds generalizing s w with
  | zero =>
      refine wp_bind.mpr (Method.wp_call (P := B) (fun h hr _ => enduring h hr.toHush) h
        (fun _ _ _ => trivial) ?_ ?_)
      · exact fun impossible => nomatch impossible
      · intro e w₁ w₂ _ _ hs _
        have mem : w₂ ∈ w₁.next .forever (.error e) := hs.1
        cases mem
  | succ rounds ih =>
      have count : Within Silent (fun s : σ => s) (call .segmentCount) := .perform trivial
      refine wp_bind.mpr (wp_mono (silent_wp count enduring h) (fun n s₁ w₁ h₁ => ?_)
        fun _ _ _ h => h)
      have complete : (ImageUploader.retry shouldRetry (call (.completeSnapshot snapshot n))).wp
          (context adapter .worker)
          (fun status _ w' => B w' ∧ (status = "completed" → w'.finished = true))
          (fun _ _ => B) s₁ w₁ := by
        refine retry_wp (fun s w h => ?_) (fun s w h => ?_) h₁
        · refine Method.wp_call (P := B) (fun h hr _ => enduring h hr.toHush) h (fun _ _ _ => rfl)
            ?_ ?_
          · intro status w₂ w₃ h₂ _ hs _
            have mem : w₃ ∈ w₂.next (.completeSnapshot snapshot n) (.ok status) := hs.1
            refine ⟨enduring h₂ (hush_stepped (c := .completeSnapshot snapshot n) trivial
              (next_stepped mem)), fun completed => ?_⟩
            obtain rfl := List.mem_singleton.mp mem
            unfold SegmentWorld.finish
            rw [if_pos (by simpa using completed)]
          · intro e w₂ w₃ h₂ _ hs _
            have mem : w₃ ∈ w₂.next (.completeSnapshot snapshot n) (.error e) := hs.1
            exact enduring h₂ (hush_stepped (c := .completeSnapshot snapshot n) trivial
              (next_stepped mem))
        · have sleep : Within Silent (fun s : σ => s) (call .sleep) := .perform trivial
          exact silent_wp sleep enduring h
      refine wp_bind.mpr (wp_mono complete ?_ fun _ _ _ h => h)
      rintro status s₂ w₂ ⟨h₂, finished⟩
      unfold raiseUnless
      refine wp_bind.mpr ?_
      split
      · refine wp_pure.mpr ?_
        split
        · rename_i completed
          exact ⟨h₂, finished completed⟩
        · exact wp_bind.mpr (wp_mono (silent_wp (within_checkTimeout trivial) enduring h₂)
            (fun _ _ _ h => ih h) fun _ _ _ h => h)
      · exact h₂

theorem aws_uploads : Uploads (σ := σ) (.aws shouldRetry rounds timeout)
    (EBSSnapshotUploader.uploader shouldRetry rounds) where
  segmentSize := rfl
  start _ := .bind (within_retry (.perform trivial) trivial) fun _ => .pure
  abort _ _ := .bind (.attempt (.bind within_awaitCompleted fun _ => .pure)) fun _ =>
    .perform trivial
  finish enduring _ _ _ _ h := wp_bind.mpr (awaitCompleted_wp enduring h)

theorem registerImage_wp {name snapshot : String} {volumeSize : Nat} {w : SegmentWorld}
    (h : w.raised = false ∧ w.registered = false ∧ w.caught = false ∧ Finished adapter w) :
    (call (.registerImage name volumeSize snapshot) : LauncherM σ String).wp
      (context adapter .worker) (fun _ _ w' => Returned adapter w')
      (fun _ _ w' => Raised adapter w') s w := by
  refine Method.wp_call
    (P := fun w => w.raised = false ∧ w.registered = false ∧ w.caught = false ∧ Finished adapter w)
    ?_ h (fun _ _ _ => rfl) ?_ ?_
  · exact fun h hr _ => ⟨hr.raised.trans h.1, hr.registered.trans h.2.1, hr.caught.trans h.2.2.1,
      h.2.2.2.aside hr⟩
  · rintro v w₁ w₂ ⟨raised, -, caught, f⟩ _ hs _
    have mem : w₂ ∈ w₁.next (.registerImage name volumeSize snapshot) (.ok v) := hs.1
    obtain rfl := List.mem_singleton.mp mem
    exact ⟨raised, fun _ => ⟨⟨f.all, f.known, f.done, f.results, f.unlimited⟩, f.finished⟩,
      fun _ => ⟨caught, rfl⟩⟩
  · rintro e w₁ w₂ ⟨raised, registered, caught, -⟩ _ hs _
    have mem : w₂ ∈ w₁.next (.registerImage name volumeSize snapshot) (.error e) := hs.1
    obtain rfl := List.mem_singleton.mp mem
    exact ⟨raised, registered, fun _ => caught⟩

theorem aws_uploadImage_wp {name filename : String} {w : SegmentWorld} (h : Fresh w.size w) :
    (AwsAdapter.uploadImageSnapshotEBS shouldRetry rounds timeout name filename :
      LauncherM σ String).wp (context (.aws shouldRetry rounds timeout) .worker)
      (fun _ _ w' => Returned (.aws shouldRetry rounds timeout) w')
      (fun _ _ w' => Raised (.aws shouldRetry rounds timeout) w') s w := by
  have uploads : Uploads (σ := σ) (.aws shouldRetry rounds timeout)
      (EBSSnapshotUploader.uploader shouldRetry rounds) := aws_uploads
  have abort : ∀ {B : SegmentWorld → Prop}, Enduring B → ∀ attrs deadline (s : σ) w, B w →
      ((EBSSnapshotUploader.uploader shouldRetry rounds).abortUpload attrs deadline).wp
        (context (.aws shouldRetry rounds timeout) .worker) (fun _ _ => B)
        (fun _ _ w' => B w' ∧ True) s w := by
    intro B enduring attrs deadline s w h
    exact wp_mono (silent_wp (uploads.abort attrs deadline) enduring h) (fun _ _ _ h => h)
      fun _ _ _ h => ⟨h, trivial⟩
  refine wp_bind.mpr (wp_mono (upload_wp uploads True abort (fun azure => nomatch azure) h) ?_ ?_)
  · intro result s₁ w₁ uploaded
    cases result with
    | none => exact ⟨uploaded.raised, uploaded.registered, fun azure => nomatch azure⟩
    | some attrs =>
        obtain ⟨caught, finished⟩ := uploaded.some rfl
        exact registerImage_wp ⟨uploaded.raised, uploaded.registered, caught, finished⟩
  · exact fun _ _ _ h => ⟨h.1, h.2.1, fun azure => nomatch azure⟩

/-! ### The record of the upload -/

theorem adapter_uploadImage_wp {name filename format : String} {metadata : Metadata}
    {w : SegmentWorld} (h : Fresh w.size w) :
    (adapter.uploadImage name filename format metadata).wp (context adapter .worker)
      (fun _ _ w' => Returned adapter w') (fun _ _ w' => Raised adapter w') () w := by
  cases adapter with
  | azure => exact azure_uploadImage_wp h
  | aws shouldRetry rounds timeout => exact aws_uploadImage_wp h

/-- What is known of a record that `_uploadImage` returns. -/
inductive Outcome (adapter : SegmentAdapter) (data : ImageUpload) (w : SegmentWorld) : Prop where
  | returned (h : Returned adapter w) (state : data.state = .ready ∨ data.state = .failed)
      (ready : data.state = .ready → data.externalId.isSome)
  | raised (failed : data.state = .failed) (raised : w.raised = true)
      (registered : w.registered = false) (azure : adapter.isAzure = true → w.caught = false)

theorem Returned.aside (h : Returned adapter w) (ha : Aside w w') : Returned adapter w' where
  raised := ha.raised.trans h.raised
  finished hc := (h.finished (ha.caught ▸ hc)).aside ha
  aws hz := ⟨ha.caught.trans (h.aws hz).1, ha.registered.trans (h.aws hz).2⟩

theorem Raised.aside (h : Raised adapter w) (ha : Aside w w') : Raised adapter w' :=
  ⟨ha.raised.trans h.raised, ha.registered.trans h.registered,
    fun hz => ha.caught.trans (h.azure hz)⟩

theorem Outcome.aside {data : ImageUpload} (h : Outcome adapter data w) (ha : Aside w w') :
    Outcome adapter data w' := by
  cases h with
  | returned h state ready => exact .returned (h.aside ha) state ready
  | raised failed raised registered azure =>
      exact .raised failed (ha.raised.trans raised) (ha.registered.trans registered)
        fun hz => ha.caught.trans (azure hz)

theorem runPostUploadHook_wp {provider : UploadProvider} {name externalId format : String}
    {w : SegmentWorld} (h : Returned adapter w) :
    (UploadWorker.runPostUploadHook provider name externalId format).wp (context adapter .worker)
      (fun data _ w' => Outcome adapter data w') (fun _ _ _ => True) () w := by
  have lasting : Lasting (Returned adapter) := fun h ha => h.aside ha
  have hook : Within Quiet (fun s : Unit => s)
      (when provider.postUploadHook (call (.postUploadHook externalId))) :=
    .ite (.perform trivial) .pure
  have «delete» : Within Quiet (fun s : Unit => s)
      (tryCatch (call (.deleteImage name)) fun _ => call (.log "Unable to delete image")) :=
    .tryCatch (.perform trivial) fun _ => .perform ⟨by decide, by decide⟩
  refine wp_bind.mpr (wp_attempt.mpr (wp_mono (quiet_wp hook lasting h) (fun _ s₁ w₁ h₁ => ?_)
    fun _ s₁ w₁ h₁ => ?_))
  · exact .returned h₁ (.inl rfl) fun _ => rfl
  · exact wp_bind.mpr (wp_mono (quiet_wp «delete» lasting h₁)
      (fun _ _ _ h₂ => .returned h₂ (.inr rfl) fun hd => nomatch hd) fun _ _ _ _ => trivial)

theorem failed_wp {w : SegmentWorld} (h : Raised adapter w) :
    (do
      call (.log "Failed to upload build of image to provider")
      pure UploadWorker.failedUpload : LauncherM Unit ImageUpload).wp (context adapter .worker)
      (fun data _ w' => Outcome adapter data w') (fun _ _ _ => True) () w := by
  refine wp_bind.mpr (Method.wp_call (P := Raised adapter) (fun h hr _ => h.aside hr) h
    (fun _ _ _ => rfl) (fun v w₁ w₂ h₁ _ hs _ => ?_) fun _ _ _ _ _ _ _ => trivial)
  have mem : w₂ ∈ w₁.next (.log "Failed to upload build of image to provider") (.ok v) := hs.1
  obtain rfl := List.mem_singleton.mp mem
  exact .raised rfl rfl h₁.registered h₁.azure

theorem uploadImage_wp {job : UploadJob} {w : SegmentWorld} (h : Fresh w.size w) :
    (UploadWorker.uploadImage adapter.uploadImage job.provider job.path job.images).wp
      (context adapter .worker) (fun data _ w' => Outcome adapter data w') (fun _ _ _ => True)
      () w := by
  have lasting : Lasting fun w => Fresh w.size w := by
    intro w w' h ha
    have := h.hush ha.toHush
    rwa [← ha.size] at this
  have time : Within Quiet (fun s : Unit => s) (call .time) := .perform trivial
  refine wp_bind.mpr (wp_mono (quiet_wp (raiseUnless_within _ _) lasting h) (fun _ s₁ w₁ h₁ => ?_)
    fun _ _ _ _ => trivial)
  refine wp_bind.mpr (wp_mono (quiet_wp time lasting h₁) (fun now s₂ w₂ h₂ => ?_)
    fun _ _ _ _ => trivial)
  refine wp_bind.mpr (wp_mono (quiet_wp (raiseUnless_within _ _) lasting h₂) (fun _ s₃ w₃ h₃ => ?_)
    fun _ _ _ _ => trivial)
  refine wp_bind.mpr (wp_attempt.mpr (wp_mono (adapter_uploadImage_wp h₃) ?_ ?_))
  · exact fun externalId s₄ w₄ h₄ => runPostUploadHook_wp h₄
  · exact fun e s₄ w₄ h₄ => failed_wp h₄

/-- What holds of the attributes of a thread between its operations. -/
def idle (adapter : SegmentAdapter) : (i : SegmentThread) → i.State → SegmentWorld → Prop
  | .worker, none, w => Fresh w.size w
  | .worker, some (.ok data), w => Outcome adapter data w
  | .worker, some (.error _), _ => True
  | .executor segment, started, w => started = false → w.result segment = none

theorem idle_beside {s : i.State} (h : idle adapter i s w) (hb : Beside i w w') :
    idle adapter i s w' := by
  cases i with
  | executor segment =>
      exact fun unstarted => (Apart.own hb).trans (h unstarted)
  | worker =>
      match s with
      | none =>
          have later : Fresh w.size w' := Fresh.hush h hb.toHush
          rw [← hb.size] at later
          exact later
      | some (.ok data) => exact Outcome.aside h hb
      | some (.error e) => trivial

def outline (adapter : SegmentAdapter) : Outline (segmentSystem adapter) (System.always _) where
  inv := Invariant adapter
  rely := Beside
  req := Req adapter
  linv := idle adapter
  rely_refl i w := by
    cases i with
    | worker => exact Aside.refl w
    | executor segment => exact ⟨Later.refl w, rfl⟩
  rely_trans i _ _ _ h h' := by
    cases i with
    | worker => exact Aside.trans h h'
    | executor segment =>
        exact ⟨(Apart.toLater h).trans (Apart.toLater h'), (Apart.own h').trans (Apart.own h)⟩
  linv_stable _ _ _ _ h hr _ := idle_beside h hr
  entry i op s w _ enabled _ h := by
    cases i with
    | worker =>
        have hs : s = none := Option.isNone_iff_eq_none.mp enabled
        subst hs
        change ((UploadWorker.uploadImage adapter.uploadImage op.provider op.path op.images
          ()).bind fun out => .pure (some out.1)).wp (context adapter .worker)
          (idle adapter .worker) w
        refine Prog.wp_bind.mpr (Prog.wp_mono (uploadImage_wp h) ?_)
        rintro ⟨_ | data, _⟩ w' h'
        · trivial
        · exact h'
    | executor segment =>
        obtain ⟨submitted, unstarted⟩ : segment ∈ w.submitted ∧ s = false := by
          simpa [SegmentThread.enabled] using enabled
        change ((SegmentThread.runSegment adapter segment ()).bind fun _ => .pure true).wp
          (context adapter (.executor segment)) (fun started w => started = false → _) w
        exact Prog.wp_bind.mpr (Prog.wp_mono (runSegment_wp ⟨submitted, h unstarted⟩)
          fun _ _ _ started => nomatch started)
  call_inv _ _ _ _ _ h hreq _ hs := invariant_stepped h hreq (next_stepped hs)
  call_rely _ _ _ _ _ _ hij _ hreq _ hs := beside_stepped hij hreq (next_stepped hs)
  env_inv := by
    rintro w _ h ⟨now, later⟩
    exact fun segment hr => (h segment hr).later (later_tick later)
  env_rely := by
    rintro j w _ - ⟨now, later⟩
    cases j with
    | worker => exact ⟨⟨later_tick later, rfl, rfl, rfl, rfl, rfl⟩, rfl⟩
    | executor segment => exact ⟨later_tick later, rfl⟩

theorem init_safe (size : Nat) : (outline adapter).Safe (init adapter size) := by
  refine Outline.Safe.of_idle (fun _ h => nomatch h) fun i => ⟨i.initial, rfl, ?_⟩
  cases i with
  | worker => exact ⟨⟨rfl, rfl, rfl, rfl, nofun⟩, rfl⟩
  | executor segment => exact fun _ => rfl

/-- What is known of a record and of the results makes it honest, or not. -/
theorem Outcome.honest_iff_noticed {data : ImageUpload} (h : Outcome adapter data w)
    (inv : Invariant adapter w) :
    Honest adapter w data ↔ ¬ (adapter.isAzure = true ∧ w.caught = true) ∧
      ¬ (Missed w ∧ w.registered = true) := by
  cases h with
  | raised failed raised registered azure =>
      refine iff_of_true ⟨.inr failed, fun ready => ?_, fun _ => ⟨raised, failed⟩⟩ ⟨?_, ?_⟩
      · exact absurd (failed.symm.trans ready) (by decide)
      · exact fun h => absurd ((azure h.1).symm.trans h.2) (by decide)
      · exact fun h => absurd (registered.symm.trans h.2) (by decide)
  | returned returned state ready =>
      constructor
      · intro honest
        have unfailed : ¬ Failed w := fun failed =>
          absurd (returned.raised.symm.trans (honest.failed failed).1) (by decide)
        refine ⟨fun h => unfailed (.inl h.2), fun h => unfailed (.inr ?_)⟩
        obtain ⟨⟨segment, -, failed⟩, -⟩ := h
        exact ⟨segment, failed⟩
      · rintro ⟨swallowed, overlooked⟩
        have uncaught : w.caught = false := by
          cases hz : adapter.isAzure with
          | true => exact Bool.eq_false_iff.mpr fun caught => swallowed ⟨hz, caught⟩
          | false => exact (returned.aws hz).1
        have finished := returned.finished uncaught
        have none : ¬ Missed w := by
          cases hz : adapter.isAzure with
          | true =>
              rintro ⟨segment, left, -⟩
              rw [finished.unlimited hz] at left
              cases left
          | false => exact fun missed => overlooked ⟨missed, (returned.aws hz).2⟩
        have all := finished.returned none
        refine ⟨state, fun hd => ⟨ready hd, finished.finished, fun segment mem => ?_⟩, ?_⟩
        · exact inv segment (all segment (finished.all segment mem))
        · rintro (caught | ⟨segment, e, failed⟩)
          · exact absurd (uncaught.symm.trans caught) (by decide)
          · have set := all segment (finished.results segment _ failed)
            rw [set] at failed
            cases failed

/-- **Main result.** In every run, the record that an upload comes to is honest exactly if
no exception was caught in the uploader of Azure, and no segment failed that the last wait left
unfinished when the image was registered all the same. -/
theorem honest_iff {size : Nat} {cfg : Config (segmentSystem adapter)}
    (run : (segmentSystem adapter).Run (System.always _) (init adapter size) cfg)
    {data : ImageUpload} (idle : cfg.thread .worker = .pure (some (.ok data))) :
    Honest adapter cfg.world data ↔ ¬ (adapter.isAzure = true ∧ cfg.world.caught = true) ∧
      ¬ (Missed cfg.world ∧ cfg.world.registered = true) := by
  have safe := (outline adapter).sound (init_safe size) run
  have outcome : Outcome adapter data cfg.world := safe.idle idle
  exact outcome.honest_iff_noticed safe.inv

/-! ### Examples -/

def exampleJob : UploadJob where
  provider := ⟨"azure", "vhd", fun image number _ => image ++ "-" ++ number,
    (∅ : Dict _ _).insert "fedora" false, false⟩
  path := ⟨"fedora", "1", "azure", "7"⟩
  images := ["vhd"]

/-- The segment of a file of one byte. -/
def exampleSegment : Segment := ⟨0, 0, 1⟩

/-- Answers of calls that succeed, but for the upload of a segment. -/
def exampleAnswer (result : Except Err Unit) (w : SegmentWorld) : (c : Call) → LauncherSig.Reply c
  | .time => .ok w.now
  | .getFileSize _ => .ok w.size
  | .waitForAsyncOperation _ => .ok "Succeeded"
  | .waitSegments futures _ _ => .ok (futures.filter (w.isDone ·))
  | .segmentResult segment => (w.result segment).getD (.ok ())
  | .uploadSasChunk _ _ => result
  | .putSnapshotBlock _ _ => result.map fun _ => true
  | .startSnapshot _ => .ok "snapshot"
  | .segmentCount => .ok w.segmentCount
  | .completeSnapshot _ _ => .ok "completed"
  | .registerImage name _ _ => .ok name
  | .azure _ _ | .openFile _ | .readFile _ | .submitSegment _ | .setSegmentResult _ _
  | .shutdownExecutor | .addSegmentCount | .sleep | .log _ => .ok ()
  | _ => .error .other

def exampleCalls (adapter : SegmentAdapter) (result : Except Err Unit) (i : SegmentThread)
    (n : Nat) : List (System.Action (segmentSystem adapter)) :=
  List.replicate n (.respond i (exampleAnswer result) 0)

/-- The thread of the one segment runs to its end. -/
def exampleSegmentCalls (adapter : SegmentAdapter) (result : Except Err Unit) (n : Nat) :
    List (System.Action (segmentSystem adapter)) :=
  .start (.executor exampleSegment) () ::
    exampleCalls adapter result (.executor exampleSegment) n

/-- An upload of one segment, which takes its thread the given number of calls, and after
which the worker makes the given number of calls. -/
def exampleSchedule (result : Except Err Unit) (segmentCalls workerCalls : Nat) :
    List (System.Action (segmentSystem .azure)) :=
  .start .worker exampleJob :: exampleCalls .azure result .worker 9 ++
    exampleSegmentCalls .azure result segmentCalls ++
    exampleCalls .azure result .worker workerCalls

/-- Uploads to AWS are not retried, and take at most five seconds. -/
def exampleAws : SegmentAdapter := .aws (fun _ => false) 1 (some 5)

/-- The upload to AWS of one segment that fails, after the wait for it has timed out at its
deadline. -/
theorem exampleRun : ∃ cfg data,
    (segmentSystem exampleAws).Run (System.always _) (init exampleAws 1) cfg ∧
      cfg.thread .worker = .pure (some (.ok data)) ∧ data.state = .ready ∧
      HasFailed cfg.world exampleSegment := by
  have waits : ∃ cfg, System.exec (fun _ _ => true) (init exampleAws 1)
      (.start .worker exampleJob :: exampleCalls exampleAws (.error .other) .worker 7) = some cfg ∧
      cfg.world.now = 0 ∧ ∃ cfg' data,
        System.exec (fun _ _ => true) ⟨{ cfg.world with now := 5 }, cfg.thread⟩
          (exampleCalls exampleAws (.error .other) .worker 2 ++
            exampleSegmentCalls exampleAws (.error .other) 2 ++
            exampleCalls exampleAws (.error .other) .worker 4) = some cfg' ∧
        cfg'.thread .worker = .pure (some (.ok data)) ∧ data.state = .ready ∧
        cfg'.world.result exampleSegment = some (.error .other) :=
    ⟨_, rfl, rfl, _, _, rfl, rfl, rfl, rfl⟩
  obtain ⟨cfg, started, clock, cfg', data, ended, idle, ready, failed⟩ := waits
  have before := System.exec_run (System.always _) (fun _ _ _ => trivial) started
  have after := System.exec_run (System.always _) (fun _ _ _ => trivial) ended
  have later : cfg.world.now ≤ 5 := clock ▸ Nat.zero_le 5
  have tick : (segmentSystem exampleAws).Step cfg .env ⟨{ cfg.world with now := 5 }, cfg.thread⟩ :=
    .env (.tick 5 later)
  exact ⟨cfg', data, (before.tail trivial tick).trans after, idle, ready, .other, failed⟩

/-- An upload that succeeds, and one at whose deadline a segment is left that fails. -/
theorem honest_iff_exampleSchedule : (∃ cfg data,
    System.exec (fun _ _ => true) (init .azure 1) (exampleSchedule (.ok ()) 2 9) = some cfg ∧
      (Honest .azure cfg.world data ↔
        ¬ (SegmentAdapter.azure.isAzure = true ∧ cfg.world.caught = true) ∧
          ¬ (Missed cfg.world ∧ cfg.world.registered = true))) ∧
    ∃ (cfg : Config (segmentSystem exampleAws)) (data : ImageUpload), data.state = .ready ∧
      HasFailed cfg.world exampleSegment ∧ (Honest exampleAws cfg.world data ↔
        ¬ (exampleAws.isAzure = true ∧ cfg.world.caught = true) ∧
          ¬ (Missed cfg.world ∧ cfg.world.registered = true)) := by
  have hexec : ∃ cfg data,
      System.exec (fun _ _ => true) (init .azure 1) (exampleSchedule (.ok ()) 2 9) = some cfg ∧
      cfg.thread .worker = .pure (some (.ok data)) := ⟨_, _, rfl, rfl⟩
  obtain ⟨cfg, data, hcfg, idle⟩ := hexec
  obtain ⟨cfg', data', run', idle', ready, failed⟩ := exampleRun
  exact ⟨⟨cfg, data, hcfg, honest_iff (System.exec_run _ (fun _ _ _ => trivial) hcfg) idle⟩,
    cfg', data', ready, failed, honest_iff run' idle'⟩

/-- The only segment of an image fails, three times at Azure, and the record is READY. -/
theorem not_forall_honest :
    (¬ ∀ (size : Nat) (cfg : Config (segmentSystem .azure)),
      (segmentSystem .azure).Run (System.always _) (init .azure size) cfg →
      ∀ data, cfg.thread .worker = .pure (some (.ok data)) → Honest .azure cfg.world data) ∧
    ¬ ∀ (shouldRetry : Err → Bool) (rounds : Nat) (timeout : Option Nat) (size : Nat)
      (cfg : Config (segmentSystem (.aws shouldRetry rounds timeout))),
      (segmentSystem (.aws shouldRetry rounds timeout)).Run (System.always _)
        (init (.aws shouldRetry rounds timeout) size) cfg →
      ∀ data, cfg.thread .worker = .pure (some (.ok data)) →
        Honest (.aws shouldRetry rounds timeout) cfg.world data := by
  constructor
  · intro h
    have hexec : ∃ cfg data, System.exec (fun _ _ => true) (init .azure 1)
        (exampleSchedule (.error .other) 6 4) = some cfg ∧
        cfg.thread .worker = .pure (some (.ok data)) ∧ data.state = .ready ∧
        cfg.world.finished = false := ⟨_, _, rfl, rfl, rfl, rfl⟩
    obtain ⟨cfg, data, hcfg, idle, ready, unfinished⟩ := hexec
    have honest := h 1 cfg (System.exec_run _ (fun _ _ _ => trivial) hcfg) data idle
    have finished := (honest.ready ready).2.1
    rw [unfinished] at finished
    cases finished
  · intro h
    obtain ⟨cfg, data, run, idle, ready, failed⟩ := exampleRun
    have honest := h (fun _ => false) 1 (some 5) 1 cfg run data idle
    have state := (honest.failed (.inr ⟨exampleSegment, failed⟩)).2
    rw [ready] at state
    cases state

end SegmentSystem

end Nodepool
