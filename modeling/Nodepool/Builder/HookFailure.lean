import Nodepool.Effect.Serial
import Nodepool.StateMachine.CloudSystem

/-!
An upload whose post upload hook fails. The image is in the cloud by then, and
`_uploadImage` asks the manager of the provider to delete it; the manager is a
`StateMachineProvider`, and passes the deletion on to the adapter of the cloud.
-/

namespace Nodepool.HookFailure

open Effect Method

/-- What an upload meets outside of the builder. -/
structure Environment where
  time : Nat
  /-- `uploadImage` of the adapter -/
  upload : (name filename : String) → Metadata → Except Err String
  /-- the outcome of the post upload hook for an image id -/
  hook : String → Except Err Unit
  /-- `deleteImage` of the adapter -/
  delete : String → Except Err Unit

/-- The image ids that the adapter has returned, and those it was told to delete. -/
structure Cloud where
  uploaded : List String
  deleted : List String
deriving DecidableEq

/-- `StateMachineProvider.deleteImage(self, name, id)`, called with positional arguments.
Any other number of them raises `TypeError`. -/
def deleteImage (env : Environment) (arguments : List String) (w : Cloud) :
    Except Err Unit × Cloud :=
  match arguments with
  | [_, id] => (env.delete id, { w with deleted := id :: w.deleted })
  | _ => (.error .other, w)

def uploadImage (env : Environment) (name filename : String) (metadata : Metadata) (w : Cloud) :
    Except Err String × Cloud :=
  match env.upload name filename metadata with
  | .ok id => (.ok id, { w with uploaded := id :: w.uploaded })
  | .error e => (.error e, w)

/-- The calls that an upload makes. The upload worker passes the name of the image to
`manager.deleteImage`, and nothing else. -/
def answer (env : Environment) : Answer LauncherSig Cloud := fun w c =>
  match c with
  | .time => (.ok env.time, w)
  | .uploadImage name filename metadata => uploadImage env name filename metadata w
  | .postUploadHook id => (env.hook id, w)
  | .deleteImage name => deleteImage env [name] w
  | .log _ => (.ok (), w)
  | _ => (.error .other, w)

variable (env : Environment) (provider : UploadProvider) (path : UploadPath)
  (images : List String)

/-- `_uploadImage` of a build that has images in the given formats. -/
def upload : (Except Err ImageUpload × Unit) × Cloud :=
  (UploadWorker.uploadImage .external provider path images).runAlone (answer env) () ⟨[], []⟩

/-- The metadata that the adapter gets. -/
def metadata : Metadata :=
  { Metadata.empty with
    providerName := some provider.name
    buildId := some path.buildId
    uploadId := some path.number }

/-- The upload gets as far as the cloud, where the adapter returns an image id. -/
def Uploads (id : String) : Prop :=
  provider.imageType ∈ images ∧ path.image ∈ provider.diskimages ∧
    env.upload (provider.imageNameFormat path.image path.number env.time)
      (path.image ++ "-" ++ path.buildId) (metadata provider path) = .ok id

/-- No image is left behind: if `_uploadImage` returns a `FAILED` record after an image
was uploaded, the adapter has been told to delete that image. -/
def LeavesNoImage : Prop :=
  ∀ data, (upload env provider path images).1.1 = .ok data → data.state = .failed →
    ∀ id ∈ (upload env provider path images).2.uploaded,
      id ∈ (upload env provider path images).2.deleted

/-! ### The outcomes of an upload -/

variable {env provider path images}

/-- The image is in the cloud, and the outcome of the hook decides about the record. Either
way nothing is deleted. -/
structure Ended (env : Environment) (provider : UploadProvider) (id : String) (data : ImageUpload)
    (w : Cloud) : Prop where
  uploaded : w.uploaded = [id]
  deleted : w.deleted = []
  failed : data.state = .failed ↔ provider.postUploadHook = true ∧ env.hook id ≠ .ok ()

theorem runPostUploadHook_wp {name id format : String} {X : Err → Unit → Cloud → Prop} :
    (UploadWorker.runPostUploadHook provider name id format).wp (answerContext (answer env))
      (fun data _ w => Ended env provider id data w) X () ⟨[id], []⟩ := by
  unfold UploadWorker.runPostUploadHook
  rw [wp_bind, wp_attempt]
  have succeeded : ¬ (provider.postUploadHook = true ∧ env.hook id ≠ .ok ()) →
      Ended env provider id ⟨.ready, some id, some name, some format⟩ ⟨[id], []⟩ :=
    fun h => ⟨rfl, rfl, iff_of_false (by simp) h⟩
  by_cases configured : provider.postUploadHook = true
  · rw [when, if_pos configured]
    refine wp_answer ?_
    unfold answer
    dsimp only
    cases outcome : env.hook id with
    | ok v => exact succeeded fun h => h.2 outcome
    | error e =>
        -- the name alone does not do as the arguments of `deleteImage`
        dsimp only
        rw [wp_bind, wp_tryCatch]
        refine wp_answer ?_
        refine wp_answer ?_
        exact ⟨rfl, rfl, iff_of_true rfl ⟨configured, by rw [outcome]; simp⟩⟩
  · rw [when, if_neg configured]
    exact succeeded fun h => configured h.1

/-- The upload ends before an image is in the cloud. -/
structure NotUploaded (env : Environment) (provider : UploadProvider) (path : UploadPath)
    (images : List String) (w : Cloud) : Prop where
  none : w.uploaded = []
  never : ∀ id, ¬ Uploads env provider path images id

theorem uploadImage_wp (env : Environment) (provider : UploadProvider) (path : UploadPath)
    (images : List String) :
    (UploadWorker.uploadImage .external provider path images).wp (answerContext (answer env))
      (fun data _ w => NotUploaded env provider path images w ∨
        ∃ id, Uploads env provider path images id ∧ Ended env provider id data w)
      (fun _ _ w => NotUploaded env provider path images w) () ⟨[], []⟩ := by
  unfold UploadWorker.uploadImage
  rw [wp_bind]
  by_cases format : provider.imageType ∈ images
  case neg =>
    rw [raiseUnless, if_neg (by simpa using format)]
    exact ⟨rfl, fun id h => format h.1⟩
  rw [raiseUnless, if_pos (decide_eq_true format), wp_pure, wp_bind]
  refine wp_answer ?_
  change Method.wp _ _ _ _ () _
  rw [wp_bind]
  by_cases config : path.image ∈ provider.diskimages
  case neg =>
    rw [raiseUnless, if_neg (by simpa using config)]
    exact ⟨rfl, fun id h => config h.2.1⟩
  rw [raiseUnless, if_pos (decide_eq_true config), wp_pure, wp_bind, wp_attempt]
  refine wp_answer ?_
  unfold answer uploadImage
  dsimp only
  cases outcome : env.upload (provider.imageNameFormat path.image path.number env.time)
      (path.image ++ "-" ++ path.buildId) (metadata provider path) with
  | error e =>
      unfold metadata at outcome
      rw [outcome]
      dsimp only
      rw [wp_bind]
      refine wp_answer (.inl ⟨rfl, fun id h => ?_⟩)
      have := h.2.2
      unfold metadata at this
      rw [outcome] at this
      cases this
  | ok id =>
      have uploads : Uploads env provider path images id := ⟨format, config, outcome⟩
      unfold metadata at outcome
      rw [outcome]
      exact Method.wp_mono runPostUploadHook_wp (fun _ _ _ h => .inr ⟨id, uploads, h⟩)
        fun _ _ _ h => h

/-- The hook succeeds, or is not configured, whenever the adapter has returned an image id. -/
def HookSucceeds (env : Environment) (provider : UploadProvider) (path : UploadPath)
    (images : List String) : Prop :=
  ∀ id, Uploads env provider path images id → provider.postUploadHook = true →
    env.hook id = .ok ()

/-- A failed upload leaves no image behind exactly when it is not the hook that fails. -/
theorem leavesNoImage_iff (env : Environment) (provider : UploadProvider) (path : UploadPath)
    (images : List String) :
    LeavesNoImage env provider path images ↔ HookSucceeds env provider path images := by
  have spec := runAlone_of_wp (uploadImage_wp env provider path images)
  unfold LeavesNoImage HookSucceeds upload
  generalize (UploadWorker.uploadImage .external provider path images).runAlone (answer env) ()
    ⟨[], []⟩ = outcome at spec ⊢
  obtain ⟨⟨result, ⟨⟩⟩, w⟩ := outcome
  cases result with
  | error e => exact iff_of_true (fun _ h => nomatch h) fun id h => absurd h (spec.never id)
  | ok data =>
      rcases spec with not | ⟨id, uploads, ended⟩
      · refine iff_of_true (fun _ _ _ id mem => ?_) fun id h => absurd h (not.never id)
        rw [not.none] at mem
        cases mem
      · constructor
        · intro h id' uploads' configured
          obtain rfl : id = id' := Except.ok.inj (uploads.2.2.symm.trans uploads'.2.2)
          by_contra failed
          have mem := h data rfl (ended.failed.mpr ⟨configured, failed⟩) id
            (by rw [ended.uploaded]; exact List.mem_singleton_self id)
          rw [ended.deleted] at mem
          cases mem
        · intro h data' same failed
          obtain rfl : data = data' := Except.ok.inj same
          obtain ⟨configured, raised⟩ := ended.failed.mp failed
          exact absurd (h id uploads configured) raised

/-! ### A hook that exits with an error -/

/-- An adapter that returns an image id and deletes what it is asked to. -/
def exampleEnvironment : Environment where
  time := 0
  upload := fun _ _ _ => .ok "image-1"
  hook := fun _ => .error .other
  delete := fun _ => .ok ()

def exampleProvider : UploadProvider where
  name := "cloud"
  imageType := "qcow2"
  imageNameFormat := fun name _ _ => name
  diskimages := Dict.ofPairs [("debian", false)]
  postUploadHook := true

/-- The image `image-1` is left in the cloud. -/
theorem not_forall_leavesNoImage :
    ¬ ∀ (env : Environment) (provider : UploadProvider) (path : UploadPath) (images : List String),
      LeavesNoImage env provider path images := by
  intro h
  have deleted := h exampleEnvironment exampleProvider ⟨"debian", "1", "cloud", "1"⟩ ["qcow2"]
    UploadWorker.failedUpload rfl rfl "image-1" (List.mem_singleton_self _)
  cases deleted

end Nodepool.HookFailure
