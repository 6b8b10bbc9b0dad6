import Nodepool.Builder.CleanupFootprint
import Nodepool.Effect.Interleave

/-!
One pass of the cleanup worker of a builder, with nobody else at work.

Every call may fail, and a call that fails may still have taken effect. A record is read as
it is stored, or as `None` if it cannot be decoded.
-/

namespace Nodepool

open Effect Method

/-! ### The most recent records -/

/-- At most one other record is as recent as this one. -/
def AmongTwoMostRecent {α : Type} [DecidableEq α] (time : α → Nat) (records : List α) (a : α) :
    Prop :=
  a ∈ records ∧ records.countP (fun b => b ≠ a ∧ time a ≤ time b) ≤ 1

instance {α : Type} [DecidableEq α] (time : α → Nat) (records : List α) (a : α) :
    Decidable (AmongTwoMostRecent time records a) :=
  inferInstanceAs (Decidable (_ ∧ _))

section MostRecent

variable {α : Type} [DecidableEq α] {time : α → Nat} {records records' : List α} {a : α}

omit [DecidableEq α] in
theorem pairwise_mostRecentFirst :
    (mostRecentFirst time records).Pairwise fun a b => time b ≤ time a := by
  have : Std.Total fun a b : α => time b ≤ time a := ⟨fun a b => Nat.le_total (time b) (time a)⟩
  have : IsTrans α fun a b => time b ≤ time a := ⟨fun _ _ _ hab hbc => hbc.trans hab⟩
  exact List.pairwise_insertionSort _ records

omit [DecidableEq α] in
theorem perm_mostRecentFirst : (mostRecentFirst time records).Perm records :=
  List.perm_insertionSort _ records

/-- In a list that is sorted, the two most recent records come first. -/
theorem AmongTwoMostRecent.mem_take_of_pairwise (h : AmongTwoMostRecent time records a)
    (sorted : records.Pairwise fun a b => time b ≤ time a) : a ∈ records.take 2 := by
  by_contra notMem
  have split := List.take_append_drop 2 records
  have later : a ∈ records.drop 2 := by
    have mem := h.1
    rw [← split, List.mem_append] at mem
    exact mem.resolve_left notMem
  have two : (records.take 2).length = 2 := by
    have pos := List.length_pos_of_mem later
    rw [List.length_drop] at pos
    rw [List.length_take]
    omega
  have recent : ∀ b ∈ records.take 2, b ≠ a ∧ time a ≤ time b := by
    intro b hb
    rw [← split, List.pairwise_append] at sorted
    exact ⟨fun e => notMem (e ▸ hb), sorted.2.2 b hb a later⟩
  have counted : 2 ≤ records.countP fun b => b ≠ a ∧ time a ≤ time b := by
    rw [← split, List.countP_append,
      List.countP_eq_length.mpr fun b hb => decide_eq_true (recent b hb), two]
    exact Nat.le_add_right 2 _
  exact absurd (counted.trans h.2) (by decide)

/-- Among fewer records it is still among the two most recent ones. -/
theorem AmongTwoMostRecent.of_subperm (h : AmongTwoMostRecent time records a)
    (sub : records'.Subperm records) (mem : a ∈ records') : AmongTwoMostRecent time records' a :=
  ⟨mem, (sub.countP_le _).trans h.2⟩

/-- What is among the two most recent records is kept with two of them. -/
theorem AmongTwoMostRecent.mem_take (h : AmongTwoMostRecent time records a) :
    a ∈ (mostRecentFirst time records).take 2 :=
  (h.of_subperm perm_mostRecentFirst.subperm
    (perm_mostRecentFirst.mem_iff.mpr h.1)).mem_take_of_pairwise pairwise_mostRecentFirst

end MostRecent

/-! ### Images in ZooKeeper -/

/-- The znodes of builds and uploads; a record is missing if it cannot be decoded. -/
structure ImageStore where
  builds : Dict (String × String) (Option BuildRecord)
  uploads : Dict UploadPath (Option UploadRecord)

namespace ImageStore

/-- `getBuild`; the id is not part of the data. -/
def readBuild (w : ImageStore) (image buildId : String) : Option BuildRecord :=
  (w.builds.lookup (image, buildId)).join.map fun build => { build with id := buildId }

/-- `getImageUpload`; the path is not part of the data. -/
def readUpload (w : ImageStore) (path : UploadPath) : Option UploadRecord :=
  (w.uploads.lookup path).join.map fun upload => { upload with path := path }

def buildIds (w : ImageStore) (image : String) : List String :=
  (w.builds.keys.filter fun key => key.1 = image).map (·.2)

def uploadNumbers (w : ImageStore) (image buildId provider : String) : List String :=
  (w.uploads.keys.filter fun path =>
    path.image = image ∧ path.buildId = buildId ∧ path.provider = provider).map (·.number)

/-- The paths of the uploads of a build. -/
def uploadsOf (w : ImageStore) (image buildId : String) : List UploadPath :=
  w.uploads.keys.filter fun path => path.image = image ∧ path.buildId = buildId

def setBuild (w : ImageStore) (image : String) (data : BuildRecord) : ImageStore :=
  if (image, data.id) ∈ w.builds then
    { w with builds := w.builds.insert (image, data.id) (some data) }
  else w

def setUpload (w : ImageStore) (data : UploadRecord) : ImageStore :=
  if data.path ∈ w.uploads then { w with uploads := w.uploads.insert data.path (some data) } else w

def deleteUpload (w : ImageStore) (path : UploadPath) : ImageStore :=
  { w with uploads := w.uploads.erase path }

/-- A build is deleted with all that is below it. -/
def deleteBuild (w : ImageStore) (image buildId : String) : ImageStore where
  builds := w.builds.erase (image, buildId)
  uploads := (w.uploadsOf image buildId).foldl (fun uploads path => uploads.erase path) w.uploads

/-- The stores that a call can lead to if it gets the given reply. -/
def next (w : ImageStore) : (c : Call) → LauncherSig.Reply c → List ImageStore
  | .getImageNames, .ok images => if ∀ key ∈ w.builds.keys, key.1 ∈ images then [w] else []
  | .getBuildIds image, .ok ids => if ids.Perm (w.buildIds image) then [w] else []
  | .getBuildProviders image buildId, .ok providers =>
      if providers.Nodup ∧ ∀ path ∈ w.uploadsOf image buildId, path.provider ∈ providers then [w]
      else []
  | .getUploadNumbers image buildId provider, .ok numbers =>
      if numbers.Perm (w.uploadNumbers image buildId provider) then [w] else []
  | .getBuildRecord image buildId, .ok data =>
      if data = w.readBuild image buildId then [w] else []
  | .getUploadRecord path, .ok data => if data = w.readUpload path then [w] else []
  | .setBuildRecord image data, .ok _ =>
      if (image, data.id) ∈ w.builds then [w.setBuild image data] else []
  | .setBuildRecord image data, .error _ => [w, w.setBuild image data]
  | .setUploadRecord data, .ok _ => if data.path ∈ w.uploads then [w.setUpload data] else []
  | .setUploadRecord data, .error _ => [w, w.setUpload data]
  | .deleteUploadTree path, .ok _ => [w.deleteUpload path]
  | .deleteUploadTree path, .error _ => [w, w.deleteUpload path]
  | .deleteBuildTree image buildId, .ok _ => [w.deleteBuild image buildId]
  | .deleteBuildTree image buildId, .error _ => [w, w.deleteBuild image buildId]
  | _, _ => [w]

/-- The READY uploads of an image to a provider, over the READY builds. -/
def readyUploads (w : ImageStore) (image provider : String) : List UploadRecord :=
  (w.uploads.keys.filter fun path => path.image = image ∧ path.provider = provider ∧
    (w.readBuild image path.buildId).any (·.state = .ready)).filterMap fun path =>
      (w.readUpload path).filter (·.state = .ready)

def readyBuilds (w : ImageStore) (image : String) : List BuildRecord :=
  (w.buildIds image).filterMap fun id => (w.readBuild image id).filter (·.state = .ready)

/-- One of the two most recent READY uploads of an image to a provider that manages images and
is configured with it. -/
def RetainedUpload (config : BuilderConfig) (w : ImageStore) (upload : UploadRecord) : Prop :=
  (∃ provider ∈ config.providers, provider.name = upload.path.provider ∧
    provider.manageImages = true ∧ upload.path.image ∈ provider.diskimages) ∧
  AmongTwoMostRecent UploadRecord.stateTime (w.readyUploads upload.path.image upload.path.provider)
    upload

/-- One of the two most recent READY builds of an image that is configured. -/
def RetainedBuild (config : BuilderConfig) (w : ImageStore) (image : String) (build : BuildRecord) :
    Prop :=
  image ∈ config.diskimages ∧
    AmongTwoMostRecent BuildRecord.stateTime (w.readyBuilds image) build

end ImageStore

/-- The cleanup worker, which makes one pass. -/
abbrev passSystem : System LauncherSig ImageStore Unit where
  State _ := Unit
  Op _ := Empty
  body _ op := nomatch op
  enabled _ op _ _ := nomatch op
  next _ := ImageStore.next
  env _ _ := False

namespace PassSystem

open ImageStore BuilderCleanup

/-- The pass over a store. -/
def start (config : BuilderConfig) (w : ImageStore) : Config passSystem where
  world := w
  thread _ := (cleanup config).toBody (fun _ s => s) ()

variable {config : BuilderConfig} {w₀ w w' : ImageStore} {image buildId provider : String}
  {path : UploadPath}

/-- A call is not about a record that is retained, and does not delete uploads with a build. -/
def Req (config : BuilderConfig) (w₀ w : ImageStore) : Call → Prop
  | .setUploadRecord data => ∀ upload, RetainedUpload config w₀ upload → data.path ≠ upload.path
  | .deleteUploadTree path => ∀ upload, RetainedUpload config w₀ upload → path ≠ upload.path
  | .setBuildRecord image data => data.state = .deleting ∧
      ∀ build, RetainedBuild config w₀ image build → data.id ≠ build.id
  | .deleteBuildTree image buildId => w.uploadsOf image buildId = [] ∧
      ∀ build, RetainedBuild config w₀ image build → buildId ≠ build.id
  | _ => True

/-- What is retained is as it was, and no build has become READY. -/
structure Kept (config : BuilderConfig) (w₀ w : ImageStore) : Prop where
  upload : ∀ upload, RetainedUpload config w₀ upload → w.readUpload upload.path = some upload
  build : ∀ image build, RetainedBuild config w₀ image build →
    w.readBuild image build.id = some build
  ready : ∀ image buildId build, w.readBuild image buildId = some build → build.state = .ready →
    w₀.readBuild image buildId = some build

def ctx (config : BuilderConfig) (w₀ : ImageStore) : Context LauncherSig ImageStore :=
  passSystem.context passSystem.always (Kept config w₀) Eq (Req config w₀) ()

/-! ### One step -/

/-- What a call of the worker can do. -/
inductive Stepped (w : ImageStore) : Call → ImageStore → Prop where
  | same (c : Call) : Stepped w c w
  | setBuild (image : String) (data : BuildRecord) :
      Stepped w (.setBuildRecord image data) (w.setBuild image data)
  | setUpload (data : UploadRecord) : Stepped w (.setUploadRecord data) (w.setUpload data)
  | deleteUpload (path : UploadPath) : Stepped w (.deleteUploadTree path) (w.deleteUpload path)
  | deleteBuild (image buildId : String) :
      Stepped w (.deleteBuildTree image buildId) (w.deleteBuild image buildId)

theorem next_stepped {c : Call} {r : LauncherSig.Reply c} (h : w' ∈ w.next c r) :
    Stepped w c w' := by
  unfold ImageStore.next at h
  split at h
  case h_7 =>
    split at h
    · obtain rfl := List.mem_singleton.mp h
      exact .setBuild _ _
    · cases h
  case h_8 =>
    rcases List.mem_pair.mp h with rfl | rfl
    · exact .same _
    · exact .setBuild _ _
  case h_9 =>
    split at h
    · obtain rfl := List.mem_singleton.mp h
      exact .setUpload _
    · cases h
  case h_10 =>
    rcases List.mem_pair.mp h with rfl | rfl
    · exact .same _
    · exact .setUpload _
  case h_11 =>
    obtain rfl := List.mem_singleton.mp h
    exact .deleteUpload _
  case h_12 =>
    rcases List.mem_pair.mp h with rfl | rfl
    · exact .same _
    · exact .deleteUpload _
  case h_13 =>
    obtain rfl := List.mem_singleton.mp h
    exact .deleteBuild _ _
  case h_14 =>
    rcases List.mem_pair.mp h with rfl | rfl
    · exact .same _
    · exact .deleteBuild _ _
  case h_15 =>
    obtain rfl := List.mem_singleton.mp h
    exact .same _
  all_goals
    split at h
    · obtain rfl := List.mem_singleton.mp h
      exact .same _
    · cases h

theorem readUpload_setUpload {data : UploadRecord} (ne : path ≠ data.path) :
    (w.setUpload data).readUpload path = w.readUpload path := by
  unfold ImageStore.setUpload
  split
  · simp only [readUpload, AList.lookup_insert_ne ne]
  · rfl

theorem readUpload_deleteUpload {q : UploadPath} (ne : path ≠ q) :
    (w.deleteUpload q).readUpload path = w.readUpload path := by
  simp only [readUpload, ImageStore.deleteUpload, AList.lookup_erase_ne ne]

theorem readBuild_setBuild (w : ImageStore) (image : String) (data : BuildRecord)
    (other buildId : String) :
    (w.setBuild image data).readBuild other buildId = w.readBuild other buildId ∨
      other = image ∧ buildId = data.id ∧
        (w.setBuild image data).readBuild other buildId = some data := by
  unfold ImageStore.setBuild
  split
  · by_cases e : (other, buildId) = (image, data.id)
    · obtain ⟨rfl, rfl⟩ := Prod.mk.inj e
      exact Or.inr ⟨rfl, rfl, by simp [readBuild]⟩
    · exact Or.inl (by simp only [readBuild, AList.lookup_insert_ne e])
  · exact Or.inl rfl

theorem readBuild_deleteBuild_of_ne {other otherId : String}
    (ne : (other, otherId) ≠ (image, buildId)) :
    (w.deleteBuild image buildId).readBuild other otherId = w.readBuild other otherId := by
  simp only [readBuild, ImageStore.deleteBuild, AList.lookup_erase_ne ne]

theorem readBuild_deleteBuild_self :
    (w.deleteBuild image buildId).readBuild image buildId = none := by
  simp [readBuild, ImageStore.deleteBuild]

theorem mem_readyUploads {upload : UploadRecord} (h : upload ∈ w.readyUploads image provider) :
    w.readUpload upload.path = some upload ∧ upload.state = .ready ∧ upload.path.image = image ∧
      upload.path.provider = provider ∧
      (w.readBuild image upload.path.buildId).any (·.state = .ready) = true := by
  obtain ⟨path, hpath, hread⟩ := List.mem_filterMap.mp h
  obtain ⟨hread, ready⟩ := Option.filter_eq_some_iff.mp hread
  have same : upload.path = path := by
    obtain ⟨_, -, rfl⟩ := Option.map_eq_some_iff.mp hread
    rfl
  have found := of_decide_eq_true (List.mem_filter.mp hpath).2
  rw [same]
  exact ⟨hread, of_decide_eq_true ready, found.1, found.2.1, found.2.2⟩

theorem mem_readyBuilds {build : BuildRecord} (h : build ∈ w.readyBuilds image) :
    w.readBuild image build.id = some build ∧ build.state = .ready := by
  obtain ⟨id, -, hread⟩ := List.mem_filterMap.mp h
  obtain ⟨hread, ready⟩ := Option.filter_eq_some_iff.mp hread
  have same : build.id = id := by
    obtain ⟨_, -, rfl⟩ := Option.map_eq_some_iff.mp hread
    rfl
  rw [same]
  exact ⟨hread, of_decide_eq_true ready⟩

theorem Kept.refl : Kept config w₀ w₀ where
  upload _ h := (mem_readyUploads h.2.1).1
  build _ _ h := (mem_readyBuilds h.2.1).1
  ready _ _ _ h _ := h

/-- Only builds have changed. -/
theorem Kept.of_builds (h : Kept config w₀ w) (uploads : w'.uploads = w.uploads)
    (build : ∀ image build, RetainedBuild config w₀ image build →
      w'.readBuild image build.id = w.readBuild image build.id)
    (ready : ∀ image buildId build, w'.readBuild image buildId = some build →
      build.state = .ready → w.readBuild image buildId = some build) : Kept config w₀ w' where
  upload upload hu := by
    unfold readUpload
    rw [uploads]
    exact h.upload upload hu
  build image b hb := (build image b hb).trans (h.build image b hb)
  ready image id b hb hr := h.ready image id b (ready image id b hb hr) hr

/-- Only uploads have changed. -/
theorem Kept.of_uploads (h : Kept config w₀ w) (builds : w'.builds = w.builds)
    (upload : ∀ upload, RetainedUpload config w₀ upload →
      w'.readUpload upload.path = w.readUpload upload.path) : Kept config w₀ w' where
  upload u hu := (upload u hu).trans (h.upload u hu)
  build image b hb := by
    unfold readBuild
    rw [builds]
    exact h.build image b hb
  ready image id b hb hr := by
    unfold readBuild at hb
    rw [builds] at hb
    exact h.ready image id b hb hr

theorem kept_step {c : Call} {r : LauncherSig.Reply c} (h : Kept config w₀ w)
    (hreq : Req config w₀ w c) (hs : w' ∈ w.next c r) : Kept config w₀ w' := by
  cases next_stepped hs with
  | same => exact h
  | setBuild image data =>
      refine h.of_builds ?_ (fun other b hb => ?_) fun other id b hb ready => ?_
      · unfold ImageStore.setBuild
        split <;> rfl
      · rcases readBuild_setBuild w image data other b.id with same | ⟨rfl, e, -⟩
        · exact same
        · exact absurd e.symm (hreq.2 b hb)
      · rcases readBuild_setBuild w image data other id with same | ⟨-, -, set⟩
        · rwa [same] at hb
        · rw [set] at hb
          cases hb
          rw [hreq.1] at ready
          cases ready
  | setUpload data =>
      refine h.of_uploads ?_ fun u hu => readUpload_setUpload (Ne.symm (hreq u hu))
      unfold ImageStore.setUpload
      split <;> rfl
  | deleteUpload path =>
      exact h.of_uploads rfl fun u hu => readUpload_deleteUpload (Ne.symm (hreq u hu))
  | deleteBuild image buildId =>
      refine h.of_builds ?_ (fun other b hb => ?_) fun other id b hb ready => ?_
      · simp only [ImageStore.deleteBuild, hreq.1, List.foldl_nil]
      · refine readBuild_deleteBuild_of_ne fun e => ?_
        obtain ⟨rfl, same⟩ := Prod.mk.inj e
        exact hreq.2 b hb same.symm
      · by_cases e : (other, id) = (image, buildId)
        · obtain ⟨rfl, rfl⟩ := Prod.mk.inj e
          rw [readBuild_deleteBuild_self] at hb
          cases hb
        · rwa [readBuild_deleteBuild_of_ne e] at hb

/-! ### Reading -/

/-- A call that is not about a retained record, whatever the store is. -/
def Harmless (config : BuilderConfig) (w₀ : ImageStore) : Call → Prop
  | .setUploadRecord data => ∀ upload, RetainedUpload config w₀ upload → data.path ≠ upload.path
  | .deleteUploadTree path => ∀ upload, RetainedUpload config w₀ upload → path ≠ upload.path
  | .setBuildRecord image data => data.state = .deleting ∧
      ∀ build, RetainedBuild config w₀ image build → data.id ≠ build.id
  | .deleteBuildTree _ _ => False
  | _ => True

theorem Harmless.req {c : Call} (h : Harmless config w₀ c) : Req config w₀ w c := by
  cases c with
  | deleteBuildTree _ _ => exact h.elim
  | _ => exact h

/-- The method makes only calls that it may make, and so keeps what is retained. -/
def Respects {α : Type} (config : BuilderConfig) (w₀ : ImageStore) (m : LauncherM Unit α) : Prop :=
  Keeps (ctx config w₀) (fun _ => Kept config w₀) m

theorem respects_of_within {α : Type} {m : LauncherM Unit α}
    (h : Within (Harmless config w₀) (fun s : Unit => s) m) : Respects config w₀ m := by
  intro s w hw
  have stable : Stable (ctx config w₀) (Harmless config w₀) (Kept config w₀) :=
    ⟨fun _ _ hi => hi, fun hc _ _ => hc.req, fun _ _ _ _ hi => hi⟩
  exact wp_mono (h.wp stable hw) (fun _ _ _ h => h.2) fun _ _ _ h => h.2

/-- The calls that leave the store alone. -/
def Reading : Call → Prop
  | .setUploadRecord _ | .deleteUploadTree _ | .setBuildRecord _ _ | .deleteBuildTree _ _ => False
  | _ => True

theorem Reading.harmless {c : Call} (h : Reading c) : Harmless config w₀ c := by
  unfold Reading at h
  unfold Harmless
  split at h <;> first | exact h.elim | trivial

/-- A call that reads: what it returns can be seen in the store. -/
theorem read_wp {c : Call} {s : Unit} {Q : c.Val → Unit → ImageStore → Prop}
    {E : Err → Unit → ImageStore → Prop} (hc : Reading c)
    (normal : ∀ v, w ∈ w.next c (.ok v) → Q v s w) (exceptional : ∀ e, E e s w) :
    (call c).wp (ctx config w₀) Q E s w := by
  have same : ∀ r w', w' ∈ w.next c r → w' = w := by
    intro r w' hs
    cases next_stepped hs with
    | same => rfl
    | _ => exact hc.elim
  refine wp_perform.mpr ?_
  rintro _ rfl -
  refine ⟨hc.harmless.req, fun v w₂ hs _ => ?_, fun e w₂ hs _ => ?_⟩
  · have e := same _ _ hs.1
    subst e
    exact normal v hs.1
  · have e' := same _ _ hs.1
    subst e'
    exact exceptional e

/-- A loop that only reads: its result is made of what the rounds return. -/
theorem gather_wp {α β : Type} {f : α → LauncherM Unit (List β)} {g : α → List β} {as : List α}
    {s : Unit} (round : ∀ a ∈ as, (f a).wp (ctx config w₀) (fun bs _ w' => bs = g a ∧ w' = w)
      (fun _ _ w' => w' = w) s w) :
    (gather as f).wp (ctx config w₀) (fun bs _ w' => bs = as.flatMap g ∧ w' = w)
      (fun _ _ w' => w' = w) s w := by
  induction as with
  | nil => exact ⟨rfl, rfl⟩
  | cons a as ih =>
      refine wp_bind.mpr (wp_mono (round a List.mem_cons_self) ?_ fun _ _ _ h => h)
      rintro bs _ _ ⟨rfl, rfl⟩
      refine wp_bind.mpr (wp_mono (ih fun a' ha' => round a' (List.mem_cons_of_mem a ha')) ?_
        fun _ _ _ h => h)
      rintro bs _ _ ⟨rfl, rfl⟩
      exact ⟨rfl, rfl⟩

/-- The records of the uploads of one build to one provider, in the order of their numbers. -/
def uploadRecords (w : ImageStore) (image buildId provider : String)
    (states : Option (List UploadState)) (numbers : List String) : List UploadRecord :=
  numbers.flatMap fun number =>
    (w.readUpload ⟨image, buildId, provider, number⟩).toList.filter fun upload =>
      states.all (upload.state ∈ ·)

theorem getUploadRecords_wp {states : Option (List UploadState)} {s : Unit} :
    (ZooKeeper.getUploadRecords image buildId provider states).wp (ctx config w₀)
      (fun uploads _ w' => w' = w ∧ ∃ numbers,
        numbers.Perm (w.uploadNumbers image buildId provider) ∧
        uploads = uploadRecords w image buildId provider states numbers)
      (fun _ _ w' => w' = w) s w := by
  refine wp_bind.mpr (read_wp (c := .getUploadNumbers image buildId provider) trivial
    (fun numbers hs => ?_) fun _ => rfl)
  have perm : numbers.Perm (w.uploadNumbers image buildId provider) :=
    (List.mem_ite_nil_right.mp hs).1
  refine wp_mono (gather_wp (g := fun number =>
    (w.readUpload ⟨image, buildId, provider, number⟩).toList.filter fun upload =>
      states.all (upload.state ∈ ·)) fun number _ => ?_) ?_ fun _ _ _ h => h
  · refine wp_bind.mpr (read_wp (c := .getUploadRecord _) trivial (fun data hs => ?_) fun _ => rfl)
    have same : data = w.readUpload ⟨image, buildId, provider, number⟩ :=
      (List.mem_ite_nil_right.mp hs).1
    exact ⟨by rw [same], rfl⟩
  · rintro uploads _ _ ⟨rfl, rfl⟩
    exact ⟨rfl, numbers, perm, rfl⟩

theorem getBuilds_wp {states : Option (List BuildState)} {s : Unit} :
    (ZooKeeper.getBuilds image states).wp (ctx config w₀)
      (fun builds _ w' => w' = w ∧ ∃ ids : List String, ids.Perm (w.buildIds image) ∧
        builds = ids.flatMap fun id =>
          if states.all fun states => (w.readBuild image id).any (·.state ∈ states) then
            [w.readBuild image id] else [])
      (fun _ _ w' => w' = w) s w := by
  refine wp_bind.mpr (read_wp (c := .getBuildIds image) trivial (fun ids hs => ?_) fun _ => rfl)
  have perm : ids.Perm (w.buildIds image) :=
    (List.mem_ite_nil_right.mp hs).1
  refine wp_mono (gather_wp (g := fun id =>
    if states.all fun states => (w.readBuild image id).any (·.state ∈ states) then
      [w.readBuild image id] else []) fun id _ => ?_) ?_ fun _ _ _ h => h
  · refine wp_bind.mpr (read_wp (c := .getBuildRecord _ _) trivial (fun data hs => ?_)
      fun _ => rfl)
    have same : data = w.readBuild image id :=
      (List.mem_ite_nil_right.mp hs).1
    exact ⟨by rw [same], rfl⟩
  · rintro builds _ _ ⟨rfl, rfl⟩
    exact ⟨rfl, ids, perm, rfl⟩

theorem getBuildProviders_wp {s : Unit} :
    (call (.getBuildProviders image buildId)).wp (ctx config w₀)
      (fun providers _ w' => w' = w ∧ providers.Nodup ∧
        ∀ path ∈ w.uploadsOf image buildId, path.provider ∈ providers)
      (fun _ _ w' => w' = w) s w := by
  refine read_wp (c := .getBuildProviders image buildId) trivial (fun providers hs => ?_)
    fun _ => rfl
  exact ⟨rfl, (List.mem_ite_nil_right.mp hs).1⟩

/-! ### What the lists of records contain -/

theorem readUpload_path {upload : UploadRecord} (h : w.readUpload path = some upload) :
    upload.path = path ∧ path ∈ w.uploads := by
  obtain ⟨data, hl, rfl⟩ := Option.map_eq_some_iff.mp h
  refine ⟨rfl, AList.lookup_isSome.mp ?_⟩
  cases e : w.uploads.lookup path with
  | none =>
      rw [e] at hl
      cases hl
  | some _ => rfl

theorem readBuild_id {build : BuildRecord} (h : w.readBuild image buildId = some build) :
    build.id = buildId ∧ (image, buildId) ∈ w.builds := by
  obtain ⟨data, hl, rfl⟩ := Option.map_eq_some_iff.mp h
  refine ⟨rfl, AList.lookup_isSome.mp ?_⟩
  cases e : w.builds.lookup (image, buildId) with
  | none =>
      rw [e] at hl
      cases hl
  | some _ => rfl

theorem mem_uploadNumbers {number : String} :
    number ∈ w.uploadNumbers image buildId provider ↔
      (⟨image, buildId, provider, number⟩ : UploadPath) ∈ w.uploads := by
  unfold uploadNumbers
  constructor
  · intro h
    obtain ⟨path, hpath, rfl⟩ := List.mem_map.mp h
    have mem := List.mem_filter.mp hpath
    obtain ⟨rfl, rfl, rfl⟩ := of_decide_eq_true mem.2
    exact AList.mem_keys.mp mem.1
  · intro h
    exact List.mem_map.mpr ⟨_, List.mem_filter.mpr ⟨AList.mem_keys.mpr h, by simp⟩, rfl⟩

theorem nodup_uploadNumbers : (w.uploadNumbers image buildId provider).Nodup := by
  refine List.Nodup.map_on ?_ ((w.uploads.keys_nodup).filter _)
  intro p hp q hq e
  obtain ⟨rfl, rfl, rfl⟩ := of_decide_eq_true (List.mem_filter.mp hp).2
  obtain ⟨h₁, h₂, h₃⟩ := of_decide_eq_true (List.mem_filter.mp hq).2
  cases p
  cases q
  simp_all

theorem mem_buildIds {id : String} : id ∈ w.buildIds image ↔ (image, id) ∈ w.builds := by
  unfold buildIds
  constructor
  · intro h
    obtain ⟨key, hkey, rfl⟩ := List.mem_map.mp h
    have mem := List.mem_filter.mp hkey
    rw [← of_decide_eq_true mem.2]
    exact AList.mem_keys.mp mem.1
  · intro h
    exact List.mem_map.mpr ⟨_, List.mem_filter.mpr ⟨AList.mem_keys.mpr h, by simp⟩, rfl⟩

theorem nodup_buildIds : (w.buildIds image).Nodup := by
  refine List.Nodup.map_on ?_ ((w.builds.keys_nodup).filter _)
  intro p hp q hq e
  have h₁ := of_decide_eq_true (List.mem_filter.mp hp).2
  have h₂ := of_decide_eq_true (List.mem_filter.mp hq).2
  exact Prod.ext (h₁.trans h₂.symm) e

theorem mem_uploadRecords {states : Option (List UploadState)} {numbers : List String}
    {upload : UploadRecord} (h : upload ∈ uploadRecords w image buildId provider states numbers) :
    ∃ number ∈ numbers, upload.path = ⟨image, buildId, provider, number⟩ ∧
      w.readUpload upload.path = some upload ∧ states.all (upload.state ∈ ·) = true := by
  obtain ⟨number, hnumber, h⟩ := List.mem_flatMap.mp h
  obtain ⟨read, matched⟩ := List.mem_filter.mp h
  have read := Option.mem_toList.mp read
  obtain ⟨e, -⟩ := readUpload_path read
  exact ⟨number, hnumber, e, e ▸ read, matched⟩

theorem nodup_uploadRecords {states : Option (List UploadState)} {numbers : List String}
    (h : numbers.Nodup) : (uploadRecords w image buildId provider states numbers).Nodup := by
  unfold uploadRecords
  refine List.nodup_flatMap.mpr ⟨fun number _ => ?_, h.imp fun ne => ?_⟩
  · refine List.Nodup.filter _ ?_
    cases w.readUpload ⟨image, buildId, provider, _⟩ with
    | none => exact List.nodup_nil
    | some _ => exact List.nodup_singleton _
  · intro upload h₁ h₂
    have e₁ := (readUpload_path (Option.mem_toList.mp (List.mem_filter.mp h₁).1)).1
    have e₂ := (readUpload_path (Option.mem_toList.mp (List.mem_filter.mp h₂).1)).1
    exact ne (congrArg UploadPath.number (e₁.symm.trans e₂))

/-- The READY uploads of a READY build. -/
theorem mem_readyUploads_of {upload : UploadRecord} (read : w.readUpload upload.path = some upload)
    (ready : upload.state = .ready) (himage : upload.path.image = image)
    (hprovider : upload.path.provider = provider)
    (build : (w.readBuild image upload.path.buildId).any (·.state = .ready) = true) :
    upload ∈ w.readyUploads image provider := by
  have mem := AList.mem_keys.mpr (readUpload_path read).2
  refine List.mem_filterMap.mpr ⟨upload.path, List.mem_filter.mpr ⟨mem, ?_⟩, ?_⟩
  · exact decide_eq_true ⟨himage, hprovider, build⟩
  · rw [read]
    exact Option.filter_eq_some_iff.mpr ⟨rfl, decide_eq_true ready⟩

/-! ### The table of recent uploads -/

def RecentUpload.of (upload : UploadRecord) : RecentUpload :=
  ⟨upload.path.buildId, upload.path.number, upload.stateTime⟩

/-- The entries of one provider, with the builds that have been looked at. -/
def Entries (w : ImageStore) (image provider : String) (done : List String)
    (recent : List RecentUpload) : Prop :=
  ∃ uploads : List UploadRecord, recent = uploads.map RecentUpload.of ∧ uploads.Nodup ∧
    (∀ upload ∈ uploads, upload ∈ w.readyUploads image provider ∧ upload.path.buildId ∈ done) ∧
    ∀ upload, AmongTwoMostRecent UploadRecord.stateTime (w.readyUploads image provider) upload →
      upload.path.buildId ∈ done → upload ∈ uploads

theorem Entries.nil : Entries w image provider [] [] :=
  ⟨[], rfl, List.nodup_nil, fun _ h => absurd h List.not_mem_nil,
    fun _ _ h => absurd h List.not_mem_nil⟩

/-- A build without uploads to the provider. -/
theorem Entries.skip {done : List String} {recent : List RecentUpload}
    (h : Entries w image provider done recent)
    (none : ∀ path ∈ w.uploadsOf image buildId, path.provider ≠ provider) :
    Entries w image provider (done ++ [buildId]) recent := by
  obtain ⟨uploads, rfl, nodup, sound, complete⟩ := h
  refine ⟨uploads, rfl, nodup, fun u hu => ⟨(sound u hu).1, List.mem_append_left _ (sound u hu).2⟩,
    fun u hu hd => ?_⟩
  rcases List.mem_append.mp hd with hd | hd
  · exact complete u hu hd
  · obtain ⟨read, -, himage, hprovider, -⟩ := mem_readyUploads hu.1
    have hbuild := List.mem_singleton.mp hd
    refine absurd hprovider (none u.path (List.mem_filter.mpr ⟨?_, ?_⟩))
    · exact AList.mem_keys.mpr (readUpload_path read).2
    · exact decide_eq_true ⟨himage, hbuild⟩

/-- The two most recent uploads of a build are added. -/
theorem Entries.add {done : List String} {recent : List RecentUpload} {numbers : List String}
    (h : Entries w image provider done recent) (new : buildId ∉ done)
    (ready : (w.readBuild image buildId).any (·.state = .ready) = true)
    (perm : numbers.Perm (w.uploadNumbers image buildId provider)) :
    Entries w image provider (done ++ [buildId]) (recent ++
      ((mostRecentFirst UploadRecord.stateTime
        (uploadRecords w image buildId provider (some [.ready]) numbers)).take 2).map
          RecentUpload.of) := by
  obtain ⟨uploads, rfl, nodup, sound, complete⟩ := h
  set found := uploadRecords w image buildId provider (some [.ready]) numbers with hfound
  have nodupFound : found.Nodup :=
    nodup_uploadRecords (perm.nodup_iff.mpr nodup_uploadNumbers)
  have mem_found : ∀ u ∈ found, u ∈ w.readyUploads image provider ∧ u.path.buildId = buildId := by
    intro u hu
    obtain ⟨number, -, path, read, matched⟩ := mem_uploadRecords hu
    have state : u.state = .ready := by simpa using matched
    refine ⟨mem_readyUploads_of read state ?_ ?_ ?_, ?_⟩ <;> rw [path]
    exact ready
  have subset : ∀ u ∈ (mostRecentFirst UploadRecord.stateTime found).take 2, u ∈ found :=
    fun u hu => perm_mostRecentFirst.mem_iff.mp (List.mem_of_mem_take hu)
  refine ⟨uploads ++ (mostRecentFirst UploadRecord.stateTime found).take 2,
    (List.map_append ..).symm, ?_, fun u hu => ?_, fun u hu hd => ?_⟩
  · refine List.Nodup.append nodup ?_ fun u hu hu' => ?_
    · exact (perm_mostRecentFirst.nodup_iff.mpr nodupFound).sublist (List.take_sublist ..)
    · exact new ((mem_found u (subset u hu')).2 ▸ (sound u hu).2)
  · rcases List.mem_append.mp hu with hu | hu
    · exact ⟨(sound u hu).1, List.mem_append_left _ (sound u hu).2⟩
    · have hf := mem_found u (subset u hu)
      exact ⟨hf.1, List.mem_append_right _ (List.mem_singleton.mpr hf.2)⟩
  · rcases List.mem_append.mp hd with hd | hd
    · exact List.mem_append_left _ (complete u hu hd)
    · obtain ⟨read, state, himage, hprovider, -⟩ := mem_readyUploads hu.1
      have hbuild := List.mem_singleton.mp hd
      have path : u.path = ⟨image, buildId, provider, u.path.number⟩ := by
        rw [← himage, ← hprovider, ← hbuild]
      have number : u.path.number ∈ numbers := by
        refine perm.mem_iff.mpr (mem_uploadNumbers.mpr ?_)
        rw [← path]
        exact (readUpload_path read).2
      have mem : u ∈ found := by
        refine List.mem_flatMap.mpr ⟨u.path.number, number, List.mem_filter.mpr ⟨?_, ?_⟩⟩
        · rw [← path]
          exact Option.mem_toList.mpr read
        · simp [state]
      refine List.mem_append_right _ (AmongTwoMostRecent.mem_take (hu.of_subperm ?_ mem))
      exact List.subperm_of_subset nodupFound fun v hv => (mem_found v hv).1

/-- The two entries that are kept are those of the most recent uploads. -/
theorem Entries.kept {done : List String} {recent : List RecentUpload}
    (h : Entries w image provider done recent) {upload : UploadRecord}
    (hu : AmongTwoMostRecent UploadRecord.stateTime (w.readyUploads image provider) upload)
    (hd : upload.path.buildId ∈ done) :
    RecentUpload.of upload ∈ (mostRecentFirst RecentUpload.stateTime recent).take 2 := by
  obtain ⟨uploads, rfl, nodup, sound, complete⟩ := h
  have mem := complete upload hu hd
  have sub : uploads.Subperm (w.readyUploads image provider) :=
    List.subperm_of_subset nodup fun u h => (sound u h).1
  refine AmongTwoMostRecent.mem_take ⟨List.mem_map_of_mem mem, ?_⟩
  rw [List.countP_map]
  refine (List.countP_mono_left fun u _ hcount => ?_).trans (hu.of_subperm sub mem).2
  have hcount := of_decide_eq_true hcount
  exact decide_eq_true ⟨fun e => hcount.1 (congrArg RecentUpload.of e), hcount.2⟩

theorem addUploads_wp {table : Dict String (List RecentUpload)} {done : List String} {s : Unit}
    (h : Entries w image provider done (table.get provider [])) (new : buildId ∉ done)
    (ready : (w.readBuild image buildId).any (·.state = .ready) = true) :
    (addUploads image buildId table provider).wp (ctx config w₀)
      (fun table' _ w' => w' = w ∧
        Entries w image provider (done ++ [buildId]) (table'.get provider []) ∧
        ∀ other, other ≠ provider → table'.get other [] = table.get other [])
      (fun _ _ w' => w' = w) s w := by
  refine wp_bind.mpr (wp_bind.mpr (wp_mono getUploadRecords_wp ?_ fun _ _ _ h => h))
  rintro _ _ w ⟨rfl, numbers, perm, rfl⟩
  refine ⟨rfl, ?_, fun other ne => Dict.get_insert_ne ne ..⟩
  have entries : ∀ upload ∈ (mostRecentFirst UploadRecord.stateTime
      (uploadRecords w image buildId provider (some [.ready]) numbers)).take 2,
      (⟨buildId, upload.path.number, upload.stateTime⟩ : RecentUpload) =
        RecentUpload.of upload := by
    intro upload hu
    obtain ⟨_, -, path, -⟩ := mem_uploadRecords
      (perm_mostRecentFirst.mem_iff.mp (List.mem_of_mem_take hu))
    rw [RecentUpload.of, path]
  rw [Dict.get_insert, List.map_congr_left entries]
  exact h.add new ready perm

/-- The entries for all providers. -/
def EntriesOf (w : ImageStore) (image : String) (done : List String)
    (table : Dict String (List RecentUpload)) : Prop :=
  ∀ provider, Entries w image provider done (table.get provider [])

theorem addBuild_wp {table : Dict String (List RecentUpload)} {done : List String} {s : Unit}
    {build : BuildRecord} (h : EntriesOf w image done table) (new : build.id ∉ done)
    (ready : (w.readBuild image build.id).any (·.state = .ready) = true) :
    (addBuild image table build).wp (ctx config w₀)
      (fun table' _ w' => w' = w ∧ EntriesOf w image (done ++ [build.id]) table')
      (fun _ _ w' => w' = w) s w := by
  refine wp_bind.mpr (wp_mono getBuildProviders_wp ?_ fun _ _ _ h => h)
  rintro providers _ w ⟨rfl, nodup, cover⟩
  -- the providers still to come have the entries of before
  refine wp_mono (wp_fold_rest (J := fun rest (table : Dict String (List RecentUpload)) _ w' =>
    w' = w ∧ rest.Nodup ∧ ∀ provider,
      if provider ∈ rest then Entries w image provider done (table.get provider [])
      else Entries w image provider (done ++ [build.id]) (table.get provider [])) ?_
    ⟨rfl, nodup, fun provider => ?_⟩) ?_ fun _ _ _ h => h
  · rintro provider rest table _ w ⟨rfl, nodup, entries⟩
    have now := entries provider
    rw [if_pos List.mem_cons_self] at now
    refine wp_mono (addUploads_wp now new ready) ?_ fun _ _ _ h => h
    rintro table' _ w ⟨rfl, added, same⟩
    refine ⟨rfl, (List.nodup_cons.mp nodup).2, fun other => ?_⟩
    by_cases e : other = provider
    · subst e
      rw [if_neg (List.nodup_cons.mp nodup).1]
      exact added
    · have before := entries other
      simp only [List.mem_cons, e, false_or] at before
      rwa [same other e]
  · split
    · exact h provider
    · rename_i absent
      exact (h provider).skip fun path hpath e => absent (e ▸ cover path hpath)
  · rintro table' _ w ⟨rfl, -, entries⟩
    exact ⟨rfl, fun provider => by simpa using entries provider⟩

theorem filterMap_readyBuilds (ids : List String) :
    (ids.flatMap fun id =>
      if (some [BuildState.ready]).all fun states => (w.readBuild image id).any (·.state ∈ states)
        then [w.readBuild image id] else []).filterMap id =
      ids.filterMap fun id => (w.readBuild image id).filter (·.state = .ready) := by
  induction ids with
  | nil => rfl
  | cons id ids ih =>
      rw [List.flatMap_cons, List.filterMap_append, ih, List.filterMap_cons]
      cases read : w.readBuild image id with
      | none => simp
      | some build => by_cases ready : build.state = .ready <;> simp [Option.filter_some, ready]

theorem sublist_ids {f : String → Option BuildRecord} (hf : ∀ id build, f id = some build →
    build.id = id) (ids : List String) :
    List.Sublist ((ids.filterMap f).map fun build => build.id) ids := by
  induction ids with
  | nil => exact .refl _
  | cons id ids ih =>
      rw [List.filterMap_cons]
      cases read : f id with
      | none => exact ih.cons id
      | some build =>
          simp only [List.map_cons, hf id build read]
          exact ih.cons_cons id

/-- All READY builds of an image have been looked at. -/
def Complete (w : ImageStore) (image : String) (table : Dict String (List RecentUpload)) : Prop :=
  ∃ done, EntriesOf w image done table ∧
    ∀ id, (w.readBuild image id).any (·.state = .ready) = true → id ∈ done

theorem addImage_wp {table : RecencyTable} {s : Unit} :
    (addImage table image).wp (ctx config w₀)
      (fun table' _ w' => w' = w ∧ (∃ entries, table'.lookup image = some entries ∧
        Complete w image entries) ∧
        ∀ other, other ≠ image → table'.lookup other = table.lookup other)
      (fun _ _ w' => w' = w) s w := by
  refine wp_bind.mpr (wp_mono getBuilds_wp ?_ fun _ _ _ h => h)
  rintro _ _ w ⟨rfl, ids, perm, rfl⟩
  rw [filterMap_readyBuilds]
  set builds := ids.filterMap fun id =>
    (w.readBuild image id).filter (·.state = .ready) with hbuilds
  have nodup : (builds.map (·.id)).Nodup :=
    (perm.nodup_iff.mpr nodup_buildIds).sublist (sublist_ids
      (fun _ _ read => (readBuild_id (Option.filter_eq_some_iff.mp read).1).1) ids)
  refine wp_bind.mpr (wp_mono (wp_fold_rest
    (J := fun rest (table : Dict String (List RecentUpload)) _ w' => w' = w ∧ ∃ done,
      done ++ rest = builds ∧ EntriesOf w image (done.map (·.id)) table) ?_
    ⟨rfl, [], rfl, fun provider => ?_⟩) ?_ fun _ _ _ h => h)
  · rintro build rest table _ w ⟨rfl, done, e, entries⟩
    have mem : build ∈ builds := by
      rw [← e]
      exact List.mem_append_right _ List.mem_cons_self
    have new : build.id ∉ done.map (·.id) := by
      rw [← e, List.map_append, List.map_cons] at nodup
      have apart := List.disjoint_of_nodup_append nodup
      exact fun h => apart h List.mem_cons_self
    have ready : (w.readBuild image build.id).any (·.state = .ready) = true := by
      obtain ⟨id, -, read⟩ := List.mem_filterMap.mp mem
      obtain ⟨read, ready⟩ := Option.filter_eq_some_iff.mp read
      rw [(readBuild_id read).1, read]
      exact ready
    refine wp_mono (addBuild_wp entries new ready) ?_ fun _ _ _ h => h
    rintro table' _ w ⟨rfl, added⟩
    refine ⟨rfl, done ++ [build], by rw [← e, List.append_assoc]; rfl, ?_⟩
    rwa [List.map_append]
  · exact Entries.nil
  · rintro entries _ w ⟨rfl, done, e, complete⟩
    rw [List.append_nil] at e
    subst e
    refine ⟨rfl, ⟨entries, AList.lookup_insert _, _, complete, fun id ready => ?_⟩,
      fun other ne => AList.lookup_insert_ne ne⟩
    obtain ⟨build, read, state⟩ := (Option.any_eq_true _ _).mp ready
    obtain ⟨e, stored⟩ := readBuild_id read
    refine List.mem_map.mpr ⟨build, List.mem_filterMap.mpr ⟨id, ?_, ?_⟩, e⟩
    · exact perm.mem_iff.mpr (mem_buildIds.mpr stored)
    · rw [read]
      exact Option.filter_eq_some_iff.mpr ⟨rfl, state⟩

/-- The table has the upload. -/
def Recent (table : RecencyTable) (path : UploadPath) : Prop :=
  ∃ providers, table.lookup path.image = some providers ∧
    ((providers.get path.provider []).any fun recent =>
      recent.buildId = path.buildId ∧ recent.uploadId = path.number) = true

theorem Complete.recent {entries : Dict String (List RecentUpload)} {table : RecencyTable}
    {upload : UploadRecord} (h : Complete w upload.path.image entries)
    (found : table.lookup upload.path.image = some entries)
    (hu : AmongTwoMostRecent UploadRecord.stateTime
      (w.readyUploads upload.path.image upload.path.provider) upload) :
    Recent (table.mapVals fun _ providers => providers.mapVals fun _ uploads =>
      (mostRecentFirst RecentUpload.stateTime uploads).take 2) upload.path := by
  obtain ⟨done, entriesOf, complete⟩ := h
  have build := (mem_readyUploads hu.1).2.2.2.2
  have kept := (entriesOf upload.path.provider).kept hu (complete _ build)
  refine ⟨_, by rw [Dict.lookup_mapVals, found]; rfl, ?_⟩
  refine List.any_eq_true.mpr ⟨RecentUpload.of upload, ?_, decide_eq_true ⟨rfl, rfl⟩⟩
  unfold Dict.get at kept ⊢
  rw [Dict.lookup_mapVals]
  cases e : entries.lookup upload.path.provider with
  | none =>
      rw [e] at kept
      simp [mostRecentFirst] at kept
  | some uploads =>
      rw [e] at kept
      exact kept

theorem buildUploadRecencyTable_wp {s : Unit} :
    buildUploadRecencyTable.wp (ctx config w₀)
      (fun table _ w' => w' = w ∧ ∀ upload, RetainedUpload config w upload →
        Recent table upload.path)
      (fun _ _ w' => w' = w) s w := by
  refine wp_bind.mpr (read_wp (c := .getImageNames) trivial (fun images hs => ?_) fun _ => rfl)
  have cover : ∀ key ∈ w.builds.keys, key.1 ∈ images :=
    (List.mem_ite_nil_right.mp hs).1
  refine wp_bind.mpr (wp_mono (wp_fold_rest (J := fun rest (table : RecencyTable) _ w' =>
    w' = w ∧ ∀ image ∈ images, image ∈ rest ∨ ∃ entries, table.lookup image = some entries ∧
      Complete w image entries) ?_ ⟨rfl, fun _ h => Or.inl h⟩) ?_ fun _ _ _ h => h)
  · rintro image rest table _ w ⟨rfl, looked⟩
    refine wp_mono addImage_wp ?_ fun _ _ _ h => h
    rintro table' _ w ⟨rfl, found, same⟩
    refine ⟨rfl, fun other hother => ?_⟩
    by_cases e : other = image
    · subst e
      exact Or.inr found
    · rw [same other e]
      rcases looked other hother with later | now
      · exact Or.inl ((List.mem_cons.mp later).resolve_left e)
      · exact Or.inr now
  · rintro table _ w ⟨rfl, looked⟩
    refine ⟨rfl, fun upload hu => ?_⟩
    obtain ⟨build, read, -⟩ := (Option.any_eq_true _ _).mp (mem_readyUploads hu.2.1).2.2.2.2
    have image := cover _ (AList.mem_keys.mpr (readBuild_id read).2)
    obtain ⟨entries, found, complete⟩ := (looked _ image).resolve_left List.not_mem_nil
    exact complete.recent found hu.2

/-! ### Uploads -/

theorem harmless {c : Call} (hc : Harmless config w₀ c) :
    Within (Harmless config w₀) (fun s : Unit => s) (call (σ := Unit) c) :=
  .perform hc

/-- Not the path of an upload that is retained. -/
def Disposable (config : BuilderConfig) (w₀ : ImageStore) (path : UploadPath) : Prop :=
  ∀ upload, RetainedUpload config w₀ upload → path ≠ upload.path

theorem deleteUpload_within (h : Disposable config w₀ path) :
    Within (Harmless config w₀) (fun s : Unit => s) (ZooKeeper.deleteUpload (σ := Unit) path) :=
  .tryCatch (harmless h) fun _ => .ite .pure .throw

theorem removeUpload_within {upload : UploadRecord} (h : Disposable config w₀ upload.path) :
    Within (Harmless config w₀) (fun s : Unit => s) (removeUpload (σ := Unit) config upload) := by
  refine .bind (.ite .pure .throw) fun _ => .bind (.attempt (.ite (harmless trivial) .pure))
    fun deleted => ?_
  cases deleted with
  | error e => exact harmless trivial
  | ok _ =>
      exact exceptLock_within (withLock_within (harmless trivial) (harmless trivial)
        (deleteUpload_within h)) (harmless trivial)

theorem inProgressUpload_within {upload : UploadRecord} :
    Within (Harmless config w₀) (fun s : Unit => s) (inProgressUpload (σ := Unit) upload) := by
  unfold inProgressUpload
  exact .ite .pure (exceptLock_within (withLock_within (harmless trivial) (harmless trivial) .pure)
    .pure)

theorem deleteUploadAndImage_within {upload : UploadRecord} (h : Disposable config w₀ upload.path) :
    Within (Harmless config w₀) (fun s : Unit => s)
      (deleteUploadAndImage (σ := Unit) config upload) := by
  unfold deleteUploadAndImage
  refine .ite (removeUpload_within h) (.bind inProgressUpload_within fun inProgress =>
    .ite .pure (.bind (.attempt ?_) fun marked => ?_))
  · refine withLock_within (harmless trivial) (harmless trivial)
      (.bind (harmless trivial) fun now =>
      .bind (harmless trivial) fun exist => .bind (.ite .pure .throw) fun _ => harmless h)
  · split
    · exact harmless trivial
    · exact .throw
    · exact removeUpload_within h

theorem getUploadRecords_within {states : Option (List UploadState)} :
    Within (Harmless config w₀) (fun s : Unit => s)
      (ZooKeeper.getUploadRecords (σ := Unit) image buildId provider states) := by
  refine .bind (harmless trivial) fun numbers => .gather (fun number => ?_) numbers
  exact .bind (harmless (c := .getUploadRecord _) trivial) fun _ => .pure

theorem isRecentUpload_bind {table : RecencyTable} {m : Bool → LauncherM Unit Unit}
    (h : ∀ recent, (recent = false → ¬ Recent table path) →
      Within (Harmless config w₀) (fun s : Unit => s) (m recent)) :
    Within (Harmless config w₀) (fun s : Unit => s) (isRecentUpload table path >>= m) := by
  unfold isRecentUpload
  cases found : table.lookup path.image with
  | none => exact fun s => rfl
  | some providers =>
      refine fun s => h _ (fun absent => ?_) s
      rintro ⟨other, found', present⟩
      rw [found] at found'
      cases found'
      rw [absent] at present
      cases present

theorem cleanupProvider_within {table : RecencyTable} {p : BuilderProvider}
    (recent : ∀ upload, RetainedUpload config w₀ upload → Recent table upload.path) :
    Within (Harmless config w₀) (fun s : Unit => s)
      (cleanupProvider (σ := Unit) config table p image buildId) := by
  refine .bind getUploadRecords_within fun uploads => .forEach (fun upload => ?_) uploads
  refine isRecentUpload_bind fun found absent => ?_
  cases found with
  | true => exact .pure
  | false =>
      exact deleteUploadAndImage_within fun retained hr e => absent rfl (e ▸ recent retained hr)

theorem cleanupObsoleteProviderUploads_respects {p : BuilderProvider} (hp : p ∈ config.providers) :
    Respects config w₀ (cleanupObsoleteProviderUploads config p image buildId) := by
  intro s w hw
  unfold cleanupObsoleteProviderUploads when
  split
  · rename_i unused
    refine wp_bind.mpr (wp_mono getUploadRecords_wp ?_ fun _ _ _ e => e ▸ hw)
    rintro _ _ w ⟨rfl, numbers, -, rfl⟩
    refine (Keeps.forEach_mem fun upload hu => respects_of_within
      (deleteUploadAndImage_within ?_) : Respects config w₀ _) _ _ hw
    rintro retained ⟨⟨other, hother, name, -, used⟩, -⟩ e
    obtain ⟨number, -, path, -⟩ := mem_uploadRecords hu
    rw [← e, path] at name used
    have same : other = p := List.inj_on_of_nodup_map config.unique hother hp name
    subst same
    exact unused used
  · exact hw

theorem cleanupCurrentUpload_within {upload : UploadRecord}
    (h : Disposable config w₀ upload.path) :
    Within (Harmless config w₀) (fun s : Unit => s)
      (cleanupCurrentUpload (σ := Unit) config upload) := by
  unfold cleanupCurrentUpload
  split
  · refine .bind inProgressUpload_within fun inProgress => .ite .pure (.bind (harmless trivial)
      fun stored => ?_)
    split
    · exact harmless trivial
    · exact .ite (deleteUpload_within h) .pure
  · exact deleteUploadAndImage_within h
  · exact deleteUploadAndImage_within h
  · exact .pure

theorem cleanupCurrentProviderUploads_respects :
    Respects config w₀ (cleanupCurrentProviderUploads config provider image buildId) := by
  intro s w hw
  refine wp_bind.mpr (wp_mono getUploadRecords_wp ?_ fun _ _ _ e => e ▸ hw)
  rintro _ _ w ⟨rfl, numbers, -, rfl⟩
  refine (Keeps.forEach_mem fun upload hu => respects_of_within
    (cleanupCurrentUpload_within ?_) : Respects config w₀ _) _ _ hw
  intro retained hr e
  obtain ⟨number, -, -, read, cruft⟩ := mem_uploadRecords hu
  rw [e, hw.upload retained hr] at read
  cases read
  simp [(mem_readyUploads hr.2.1).2.1] at cruft

/-! ### Builds -/

/-- Not the id of a build that is retained. -/
def DisposableBuild (config : BuilderConfig) (w₀ : ImageStore) (image buildId : String) : Prop :=
  ∀ build, RetainedBuild config w₀ image build → buildId ≠ build.id

theorem hasUploads_wp {providers : List String} {s : Unit} :
    (ZooKeeper.hasUploads image buildId providers).wp (ctx config w₀)
      (fun found _ w' => w' = w ∧ (found = false → ∀ provider ∈ providers,
        w.uploadNumbers image buildId provider = []))
      (fun _ _ w' => w' = w) s w := by
  induction providers with
  | nil => exact ⟨rfl, fun _ _ h => absurd h List.not_mem_nil⟩
  | cons provider rest ih =>
      refine wp_bind.mpr (read_wp (c := .getUploadNumbers image buildId provider) trivial
        (fun numbers hs => ?_) fun _ => rfl)
      have perm : numbers.Perm (w.uploadNumbers image buildId provider) :=
        (List.mem_ite_nil_right.mp hs).1
      split
      · exact ⟨rfl, nofun⟩
      · rename_i empty
        rw [not_not.mp empty] at perm
        refine wp_mono ih ?_ fun _ _ _ h => h
        rintro found _ w ⟨rfl, none⟩
        refine ⟨rfl, fun absent other hother => ?_⟩
        rcases List.mem_cons.mp hother with rfl | hother
        · exact perm.symm.eq_nil
        · exact none absent other hother

theorem deleteBuild_respects (h : DisposableBuild config w₀ image buildId) :
    Respects config w₀ (ZooKeeper.deleteBuild image buildId) := by
  intro s w hw
  refine wp_bind.mpr (wp_mono getBuildProviders_wp ?_ fun _ _ _ e => e ▸ hw)
  rintro providers _ w ⟨rfl, -, cover⟩
  refine wp_bind.mpr (wp_mono hasUploads_wp ?_ fun _ _ _ e => e ▸ hw)
  rintro found _ w ⟨rfl, none⟩
  split
  · exact hw
  · rename_i absent
    have empty : w.uploadsOf image buildId = [] := by
      refine List.eq_nil_iff_forall_not_mem.mpr fun path hpath => ?_
      have numbers := none (Bool.eq_false_of_not_eq_true absent) _ (cover path hpath)
      obtain ⟨stored, e⟩ := List.mem_filter.mp hpath
      obtain ⟨rfl, rfl⟩ := of_decide_eq_true e
      have number : path.number ∈ w.uploadNumbers path.image path.buildId path.provider :=
        mem_uploadNumbers.mpr (AList.mem_keys.mp stored)
      rw [numbers] at number
      exact List.not_mem_nil number
    have kept : (call (σ := Unit) (.deleteBuildTree image buildId)).wp (ctx config w₀)
        (fun _ _ => Kept config w₀) (fun _ _ => Kept config w₀) () w := by
      refine wp_perform.mpr ?_
      rintro _ rfl -
      exact ⟨⟨empty, h⟩, fun _ _ _ hi => hi, fun _ _ _ hi => hi⟩
    refine wp_bind.mpr (wp_tryCatch.mpr (wp_mono kept (fun _ _ _ h => h) fun e _ _ h => ?_))
    split
    · exact h
    · exact h

theorem forEachManaged_respects {body : BuilderProvider → LauncherM Unit Unit}
    (h : ∀ p ∈ config.providers, Respects config w₀ (body p)) :
    Respects config w₀ (forEachManaged config body) :=
  Keeps.forEach_mem fun p hp =>
    .ite (.tryCatch (h p hp) fun _ => respects_of_within (harmless trivial)) .pure

theorem cleanupOldBuild_respects {table : RecencyTable} {build : BuildRecord}
    (recent : ∀ upload, RetainedUpload config w₀ upload → Recent table upload.path)
    (h : DisposableBuild config w₀ image build.id) :
    Respects config w₀ (cleanupOldBuild config table image build) := by
  refine .bind (forEachManaged_respects fun p _ => respects_of_within
    (cleanupProvider_within recent)) fun _ => ?_
  refine .bind (respects_of_within (harmless trivial)) fun providers => ?_
  have gathered : Respects config w₀ (gather providers fun provider =>
      ZooKeeper.getUploadRecords image build.id provider none) :=
    respects_of_within (.gather (fun _ => getUploadRecords_within) providers)
  refine .bind gathered fun uploads => .bind (.ite ?_ .pure) fun _ => .ite ?_ .pure
  · exact respects_of_within (withLock_within (harmless trivial) (harmless trivial)
      (.bind (harmless trivial) fun now => harmless (c := .setBuildRecord _ _) ⟨rfl, h⟩))
  · exact .bind (deleteBuild_respects h) fun deleted =>
      .ite (respects_of_within (harmless trivial)) .pure

theorem inProgressBuild_within {build : BuildRecord} :
    Within (Harmless config w₀) (fun s : Unit => s) (inProgressBuild (σ := Unit) image build) := by
  unfold inProgressBuild
  exact .ite .pure (exceptLock_within (withLock_within (harmless trivial) (harmless trivial)
    (.bind (harmless trivial) fun stored => .pure)) .pure)

theorem cleanupBuild_respects {table : RecencyTable} {keep : List String}
    {build : Option BuildRecord}
    (recent : ∀ upload, RetainedUpload config w₀ upload → Recent table upload.path)
    (kept : ∀ retained, RetainedBuild config w₀ image retained → retained.id ∈ keep)
    (read : ∀ b, build = some b → ∀ retained, RetainedBuild config w₀ image retained →
      b.id = retained.id → b.state = .ready) :
    Respects config w₀ (cleanupBuild config table keep image build) := by
  cases build with
  | none => exact .throw
  | some build =>
      refine .bind (forEachManaged_respects fun p hp => .bind
        (cleanupObsoleteProviderUploads_respects hp) fun _ =>
          .ite cleanupCurrentProviderUploads_respects .pure) fun _ => ?_
      by_cases deleting : build.state = .deleting
      · rw [if_pos deleting]
        refine cleanupOldBuild_respects recent fun retained hr e => ?_
        have ready := read build rfl retained hr e
        rw [deleting] at ready
        cases ready
      · rw [if_neg deleting]
        by_cases member : build.id ∈ keep
        · rw [if_pos member]
          exact .pure
        · rw [if_neg member]
          refine .bind (respects_of_within inProgressBuild_within) fun inProgress => .ite .pure ?_
          exact cleanupOldBuild_respects recent fun retained hr e => member (e ▸ kept retained hr)

/-- Of the builds that have been read, the retained ones are kept. -/
theorem mem_buildsToKeep {builds : List BuildRecord} {build : BuildRecord}
    (hb : AmongTwoMostRecent BuildRecord.stateTime (w₀.readyBuilds image) build)
    (mem : build ∈ builds) (nodup : builds.Nodup)
    (ready : ∀ b ∈ builds, b.state = .ready → b ∈ w₀.readyBuilds image) :
    build ∈ ((mostRecentFirst BuildRecord.stateTime builds).filter
      fun build => build.state = .ready).take 2 := by
  have state := (mem_readyBuilds hb.1).2
  refine (hb.of_subperm ?_ ?_).mem_take_of_pairwise (pairwise_mostRecentFirst.filter _)
  · refine List.subperm_of_subset ((perm_mostRecentFirst.nodup_iff.mpr nodup).filter _) ?_
    intro b hmem
    obtain ⟨hmem, hstate⟩ := List.mem_filter.mp hmem
    exact ready b (perm_mostRecentFirst.mem_iff.mp hmem) (of_decide_eq_true hstate)
  · exact List.mem_filter.mpr ⟨perm_mostRecentFirst.mem_iff.mpr mem, decide_eq_true state⟩

theorem cleanupImage_respects {table : RecencyTable}
    (recent : ∀ upload, RetainedUpload config w₀ upload → Recent table upload.path) :
    Respects config w₀ (cleanupImage config table image) := by
  intro s w hw
  refine wp_bind.mpr (wp_mono getBuilds_wp ?_ fun _ _ _ e => e ▸ hw)
  rintro _ _ w ⟨rfl, ids, perm, rfl⟩
  have all : (ids.flatMap fun id => if (none : Option (List BuildState)).all fun states =>
      (w.readBuild image id).any (·.state ∈ states) then [w.readBuild image id] else []) =
        ids.map (w.readBuild image) := by
    simp only [Option.all_none, if_true]
    exact List.map_eq_flatMap.symm
  rw [all]
  have read : ∀ b, some b ∈ ids.map (w.readBuild image) → w.readBuild image b.id = some b := by
    intro b hb
    obtain ⟨id, -, hread⟩ := List.mem_map.mp hb
    rwa [(readBuild_id hread).1]
  have loop : ∀ keep : List String, (∀ retained, RetainedBuild config w₀ image retained →
      retained.id ∈ keep) → Respects config w₀
        (forEach (ids.map (w.readBuild image)) (cleanupBuild config table keep image)) := by
    intro keep kept
    refine Keeps.forEach_mem fun build hb => cleanupBuild_respects recent kept ?_
    rintro b rfl retained hr e
    have same := read b hb
    rw [e, hw.build image retained hr] at same
    cases same
    exact (mem_readyBuilds hr.2.1).2
  refine wp_bind.mpr ?_
  unfold buildsToKeep
  split
  · rename_i unknown
    exact loop [] (fun _ hr => absurd hr.1 unknown) _ _ hw
  · split
    · exact hw
    · refine loop _ (fun retained hr => ?_) _ _ hw
      have stored := hw.build image retained hr
      have mem : retained ∈ (ids.map (w.readBuild image)).filterMap id :=
        List.mem_filterMap.mpr ⟨_, List.mem_map.mpr ⟨retained.id,
          perm.mem_iff.mpr (mem_buildIds.mpr (readBuild_id stored).2), stored⟩, rfl⟩
      have nodup : ((ids.map (w.readBuild image)).filterMap id).Nodup := by
        rw [List.filterMap_map]
        exact List.Nodup.of_map _ ((perm.nodup_iff.mpr nodup_buildIds).sublist
          (sublist_ids (fun _ _ read => (readBuild_id read).1) ids))
      refine List.mem_map_of_mem (mem_buildsToKeep hr.2 mem nodup fun b hb ready => ?_)
      obtain ⟨data, hdata, rfl⟩ := List.mem_filterMap.mp hb
      have before := hw.ready image b.id b (read b hdata) ready
      refine List.mem_filterMap.mpr ⟨b.id, mem_buildIds.mpr (readBuild_id before).2, ?_⟩
      rw [before]
      exact Option.filter_eq_some_iff.mpr ⟨rfl, decide_eq_true ready⟩

/-! ### The pass -/

theorem cleanupLocalBuild_within {localBuild : String × String} :
    Within (Harmless config w₀) (fun s : Unit => s)
      (cleanupLocalBuild (σ := Unit) config localBuild) := by
  refine .tryCatch (.bind (harmless trivial) fun build => .bind (.ite (harmless trivial) .pure)
    fun _ => .ite ?_ .pure) fun _ => harmless trivial
  unfold pruneLocalBuildFormats
  split
  · exact .throw
  · refine .ite (.bind (.gather (fun p => .ite (.bind (.bind getUploadRecords_within fun _ => .pure)
      fun uploads => .pure) .pure) config.providers) fun toKeep => ?_) .pure
    refine .bind (harmless trivial) fun files => .forEach (fun extension => ?_) files
    exact .ite (harmless (c := .removeLocalImage _ _ _) trivial) .pure

theorem cleanup_wp : (cleanup config).wp (ctx config w₀) (fun _ _ => Kept config w₀)
    (fun _ _ => Kept config w₀) () w₀ := by
  refine wp_bind.mpr (read_wp (c := .getImageNames) trivial (fun images _ => ?_) fun _ => .refl)
  refine wp_bind.mpr (wp_mono buildUploadRecencyTable_wp ?_ fun _ _ _ e => e ▸ .refl)
  rintro table _ w ⟨rfl, recent⟩
  have loop : Respects config w (forEach images fun image =>
      tryCatch (cleanupImage config table image) fun _ =>
        call (.log "Exception cleaning up image")) :=
    .forEach (fun image => .tryCatch (cleanupImage_respects recent) fun _ =>
      respects_of_within (harmless (c := .log _) trivial)) images
  have localBuilds : Within (Harmless config w) (fun s : Unit => s) (call .getLocalBuilds) :=
    harmless trivial
  have rest : Respects config w (call .getLocalBuilds >>= fun localBuilds =>
      forEach localBuilds (cleanupLocalBuild config)) :=
    respects_of_within (localBuilds.bind fun found =>
      .forEach (fun _ => cleanupLocalBuild_within) found)
  exact Keeps.bind loop (fun _ => rest) () w .refl

def outline (config : BuilderConfig) (w₀ : ImageStore) : Outline passSystem passSystem.always where
  inv := Kept config w₀
  rely _ := Eq
  req _ := Req config w₀
  linv _ _ _ := True
  rely_refl _ _ := rfl
  rely_trans _ _ _ _ h h' := h.trans h'
  linv_stable _ _ _ _ _ _ _ := trivial
  entry _ op := nomatch op
  call_inv _ _ _ _ _ h hreq _ hs := kept_step h hreq hs
  call_rely i j _ _ _ _ ne := absurd (Subsingleton.elim i j) ne
  env_inv _ h := h.elim
  env_rely _ _ _ _ h := h.elim

theorem start_safe : (outline config w₀).Safe (start config w₀) where
  inv := .refl
  wp _ := by
    change ((cleanup config).toBody (fun _ s => s) ()).wp (ctx config w₀) (fun _ _ => True) w₀
    exact wp_toBody.mpr (wp_mono cleanup_wp (fun _ _ _ _ => trivial) fun _ _ _ _ => trivial)

/-- At all times of the pass the two most recent READY uploads and builds are as they were at
its start, and a build is only deleted when it has no uploads. -/
theorem pass_retains {cfg : Config passSystem} (run : passSystem.Run passSystem.always
    (start config w₀) cfg) :
    (∀ upload, RetainedUpload config w₀ upload →
      cfg.world.readUpload upload.path = some upload) ∧
    (∀ image build, RetainedBuild config w₀ image build →
      cfg.world.readBuild image build.id = some build) ∧
    ∀ image buildId reply cfg',
      passSystem.Step cfg (.call () (.deleteBuildTree image buildId) reply) cfg' →
      cfg.world.uploadsOf image buildId = [] := by
  have safe : (outline config w₀).Safe cfg := Outline.sound start_safe run
  refine ⟨safe.inv.upload, safe.inv.build, fun image buildId reply cfg' step => ?_⟩
  cases step with
  | call _ _ next _ => exact (safe.req next).1

def exampleConfig : BuilderConfig where
  providers := [⟨"cloud", true, "qcow2", ["debian"]⟩]
  unique := by decide
  diskimages := (∅ : Dict _ _).insert "debian" ⟨false, []⟩
  managers := ["cloud"]

def exampleBuild (id : String) (time : Nat) : BuildRecord := ⟨⟨id, .ready, ["qcow2"]⟩, time⟩

def exampleUpload (buildId : String) (time : Nat) : UploadRecord where
  state := .ready
  externalId := some ("x-" ++ buildId)
  externalName := some ("debian-" ++ buildId)
  format := some "qcow2"
  path := ⟨"debian", buildId, "cloud", "0000000001"⟩
  stateTime := time

/-- Three builds, each with an upload. -/
def exampleStore : ImageStore where
  builds := Dict.ofPairs ([exampleBuild "b1" 10, exampleBuild "b2" 20, exampleBuild "b3" 30].map
    fun build => (("debian", build.id), some build))
  uploads := Dict.ofPairs ([exampleUpload "b1" 15, exampleUpload "b2" 25, exampleUpload "b3" 35].map
    fun upload => (upload.path, some upload))

/-- Answers of calls that succeed. -/
def exampleAnswer (w : ImageStore) : (c : Call) → LauncherSig.Reply c
  | .getImageNames => .ok ["debian"]
  | .getBuildIds image => .ok (w.buildIds image)
  | .getBuildProviders _ _ => .ok ["cloud"]
  | .getUploadNumbers image buildId provider => .ok (w.uploadNumbers image buildId provider)
  | .getBuildRecord image buildId => .ok (w.readBuild image buildId)
  | .getUploadRecord path => .ok (w.readUpload path)
  | .acquireNumberLock _ | .acquireBuildIdLock _ _ | .buildsExist _ => .ok true
  | .time => .ok 40
  | .setUploadRecord _ | .releaseNumberLock _ | .deleteExternalImage _ _ _ | .deleteUploadTree _
  | .setBuildRecord _ _ | .releaseBuildIdLock _ _ | .deleteBuildTree _ _ => .ok ()
  | _ => .error .other

/-- The worker is about to delete the first build. -/
def deletesOldest (cfg : Config passSystem) : Bool :=
  match cfg.thread () with
  | .call (.deleteBuildTree "debian" "b1") _ => true
  | _ => false

/-- The pass deletes the oldest upload, and then the oldest build, which has none left. -/
theorem pass_retains_example : ∃ cfg cfg',
    passSystem.Run passSystem.always (start exampleConfig exampleStore) cfg ∧
      passSystem.Step cfg (.call () (.deleteBuildTree "debian" "b1") (.ok ())) cfg' ∧
      cfg.world.uploadsOf "debian" "b1" = [] ∧
      (cfg'.world.readUpload (exampleUpload "b2" 25).path = some (exampleUpload "b2" 25) ∧
        cfg'.world.readUpload (exampleUpload "b3" 35).path = some (exampleUpload "b3" 35)) ∧
      cfg'.world.readBuild "debian" "b1" = none ∧
      cfg'.world.readBuild "debian" "b2" = some (exampleBuild "b2" 20) ∧
      cfg'.world.readBuild "debian" "b3" = some (exampleBuild "b3" 30) := by
  have replay : ((System.exec (fun _ _ => true) (start exampleConfig exampleStore)
      (List.replicate 42 (.respond () exampleAnswer 0))).any fun cfg =>
        deletesOldest cfg && (cfg.world.deleteBuild "debian" "b1").readBuild "debian" "b1" = none) =
      true := by
    decide +kernel
  obtain ⟨cfg, run, replay⟩ :=
    System.exists_run_of_exec passSystem.always (fun _ _ _ => trivial) replay
  obtain ⟨next, gone⟩ := Bool.and_eq_true_iff.mp replay
  unfold deletesOldest at next
  split at next
  case h_2 => cases next
  case h_1 k thread =>
  have step : passSystem.Step cfg (.call () (.deleteBuildTree "debian" "b1") (.ok ()))
      ⟨cfg.world.deleteBuild "debian" "b1", Function.update cfg.thread () (k (.ok ()))⟩ :=
    .call () (.ok ()) thread (List.mem_singleton_self _)
  have kept := pass_retains (run.tail trivial step)
  exact ⟨cfg, _, run, step, (pass_retains run).2.2 "debian" "b1" (.ok ()) _ step,
    ⟨kept.1 (exampleUpload "b2" 25) ⟨by decide, by decide⟩,
      kept.1 (exampleUpload "b3" 35) ⟨by decide, by decide⟩⟩,
    of_decide_eq_true gone,
    kept.2.1 "debian" (exampleBuild "b2" 20) ⟨by decide, by decide⟩,
    kept.2.1 "debian" (exampleBuild "b3" 30) ⟨by decide, by decide⟩⟩

end PassSystem

end Nodepool
