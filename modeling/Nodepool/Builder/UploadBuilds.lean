import Nodepool.Builder.CleanupFootprint
import Nodepool.Builder.UploadSystem

/-!
Every upload in ZooKeeper lies under a build with data.

The upload worker finds the build before it creates a record, and the cleanup worker lists
the uploads before it deletes the build; neither holds a lock that the other one takes. So
the result is about the runs in which no build is deleted between the two steps of an upload
worker, and no number lock is taken of an upload that is gone, which would make its znodes
again.
-/

namespace Nodepool

open Effect Method

namespace BuilderSystem

open BuilderWorld

variable {w w' : BuilderWorld} {i j : BuilderThread} {p : UploadPath} {key : String × String}

/-- No build is deleted that an upload worker has found, until the worker has created the
record, and the lock of an upload's number is only taken while the upload exists. -/
def Orderly (w : BuilderWorld) : Event builderSystem → Prop
  | .call _ (.deleteBuildTree image buildId) _ => ∀ i, w.checking i ≠ some (image, buildId)
  | .call _ (.acquireNumberLock p) _ => p ∈ w.uploads
  | _ => True

def HasBuild (w : BuilderWorld) (key : String × String) : Prop :=
  ∃ data, w.readBuild key = some data

structure BuildInvariant (w : BuilderWorld) : Prop where
  uploads : ∀ p ∈ w.uploads, HasBuild w p.build
  checking : ∀ i key, w.checking i = some key → HasBuild w key

/-- A record of an upload is created by a worker that has found the build. -/
def Found (i : BuilderThread) (w : BuilderWorld) : Call → Prop
  | .createImageUpload image buildId _ _ => w.checking i = some (image, buildId)
  | _ => True

/-! ### Builds -/

/-- What a step leaves that takes no build and no data away, and adds no upload. -/
structure Keeps (w w' : BuilderWorld) : Prop where
  builds : ∀ key, HasBuild w key → HasBuild w' key
  uploads : ∀ p ∈ w'.uploads, p ∈ w.uploads

/-- An empty znode has no data, like one that is not there. -/
theorem readBuild_touchBuild {other : String × String} :
    (w.touchBuild other).readBuild key = w.readBuild key := by
  unfold readBuild touchBuild Dict.setdefault
  split
  · rfl
  · rename_i absent
    by_cases e : key = other
    · subst e
      rw [AList.lookup_insert, AList.lookup_eq_none.mpr absent]
      rfl
    · rw [AList.lookup_insert_ne e]

theorem hasBuild_insert {data : ImageBuild} {other : String × String} (h : HasBuild w key) :
    HasBuild { w with builds := w.builds.insert other (some data) } key := by
  unfold HasBuild readBuild
  by_cases e : key = other
  · subst e
    exact ⟨data, by rw [AList.lookup_insert]; rfl⟩
  · simp only [AList.lookup_insert_ne e]
    exact h

theorem hasBuild_setBuild {data : ImageBuild} {other : String × String} (h : HasBuild w key) :
    HasBuild (w.setBuild other data) key := by
  unfold setBuild
  split
  · exact hasBuild_insert h
  · exact h

theorem hasBuild_deleteBuild {other : String × String} (h : HasBuild w key) (ne : key ≠ other) :
    HasBuild (w.deleteBuild other) key := by
  obtain ⟨data, hd⟩ := h
  refine ⟨data, ?_⟩
  unfold readBuild BuilderWorld.deleteBuild
  rw [AList.lookup_erase_ne ne]
  exact hd

theorem mem_uploads_setUpload {q : UploadPath} {data : ImageUpload} :
    p ∈ (w.setUpload q data).uploads ↔ p ∈ w.uploads := by
  unfold setUpload
  split
  · rename_i stored
    rw [AList.mem_insert]
    exact ⟨fun h => h.elim (fun e => e ▸ stored) id, Or.inr⟩
  · rfl

theorem mem_uploads_deleteUploads {paths : List UploadPath} :
    p ∈ (w.deleteUploads paths).uploads ↔ p ∉ paths ∧ p ∈ w.uploads := by
  unfold deleteUploads
  generalize w.uploads = uploads
  induction paths generalizing uploads with
  | nil => simp
  | cons q paths ih =>
      rw [List.foldl_cons, ih, AList.mem_erase, List.mem_cons]
      tauto

theorem mem_uploadsOf : p ∈ w.uploadsOf key ↔ p ∈ w.uploads ∧ p.build = key := by
  unfold uploadsOf
  rw [List.mem_filter, decide_eq_true_eq]
  rfl

theorem checking_setUpload {q : UploadPath} {data : ImageUpload} :
    (w.setUpload q data).checking = w.checking := by
  unfold setUpload
  split <;> rfl

theorem checking_setBuild {data : ImageBuild} : (w.setBuild key data).checking = w.checking := by
  unfold setBuild
  split <;> rfl

theorem touchUpload_of_mem (h : p ∈ w.uploads) : w.touchUpload p = w.touchBuild p.build := by
  unfold touchUpload Dict.setdefault
  rw [if_pos h]
  rfl

theorem keeps_touchBuild {other : String × String} : Keeps w (w.touchBuild other) :=
  ⟨fun _ ⟨data, h⟩ => ⟨data, by rw [readBuild_touchBuild]; exact h⟩, fun _ h => h⟩

/-- A worker may stop to remember the build that it has found. -/
theorem BuildInvariant.of_keeps (h : BuildInvariant w) (keeps : Keeps w w')
    (checking : ∀ i key, w'.checking i = some key → w.checking i = some key) :
    BuildInvariant w' where
  uploads p hp := keeps.builds _ (h.uploads p (keeps.uploads p hp))
  checking i key hc := keeps.builds _ (h.checking i key (checking i key hc))

theorem buildInvariant_check {image buildId : String} {build : Option ImageBuild}
    (h : BuildInvariant w) (read : build = w.readBuild (image, buildId)) :
    BuildInvariant
      (w.check i ((build.filter (·.state ≠ .deleting)).map fun _ => (image, buildId))) where
  uploads := h.uploads
  checking j key hc := by
    by_cases e : j = i
    · subst e
      simp only [check, Function.update_self] at hc
      obtain ⟨data, found, rfl⟩ := Option.map_eq_some_iff.mp hc
      exact ⟨data, read.symm.trans (Option.filter_eq_some_iff.mp found).1⟩
    · simp only [check, Function.update_of_ne e] at hc
      exact h.checking j key hc

theorem update_checking {i j : BuilderThread} {key : String × String}
    {checking : BuilderThread → Option (String × String)}
    (h : Function.update checking i none j = some key) : checking j = some key := by
  by_cases e : j = i
  · subst e
    rw [Function.update_self] at h
    cases h
  · rwa [Function.update_of_ne e] at h

theorem buildInvariant_release {lockKey : UploadLockKey} (h : BuildInvariant w) (released : Bool) :
    BuildInvariant (w.release i lockKey released) :=
  h.of_keeps ⟨fun _ h => h, fun _ h => h⟩ fun _ _ => update_checking

theorem buildInvariant_create {data : ImageUpload} {uploading : Option UploadPath}
    (h : BuildInvariant w) (found : w.checking i = some p.build) :
    BuildInvariant (w.create i p data uploading) where
  uploads q hq := by
    have build : HasBuild w q.build := by
      rcases (AList.mem_insert _).mp hq with rfl | hq
      · exact h.checking i _ found
      · exact h.uploads q hq
    exact keeps_touchBuild.builds _ build
  checking j key hc := keeps_touchBuild.builds _ (h.checking j key (update_checking hc))

theorem buildInvariant_deleteBuild (h : BuildInvariant w) (unused : ∀ i, w.checking i ≠ some key) :
    BuildInvariant (w.deleteBuild key) where
  uploads p hp := by
    obtain ⟨other, stored⟩ := mem_uploads_deleteUploads.mp hp
    have ne : p.build ≠ key := fun e => other (mem_uploadsOf.mpr ⟨stored, e⟩)
    exact hasBuild_deleteBuild (h.uploads p stored) ne
  checking i other hc := by
    have ne : other ≠ key := by
      rintro rfl
      exact unused i hc
    exact hasBuild_deleteBuild (h.checking i other hc) ne

/-! ### One step -/

theorem buildInvariant_stepped {c : Call} {r : LauncherSig.Reply c} (h : BuildInvariant w)
    (hreq : Found i w c) (hok : Orderly w (.call i c r)) (hs : Stepped i w c w') :
    BuildInvariant w' := by
  have kept : ∀ {w'}, Keeps w w' → w'.checking = w.checking → BuildInvariant w' :=
    fun keeps same => h.of_keeps keeps fun i key hc => by rwa [same] at hc
  cases hs with
  | same c => exact h
  | check image buildId build read => exact buildInvariant_check h read
  | touch image buildId provider => exact kept keeps_touchBuild rfl
  | acquire image buildId provider free => exact kept ⟨keeps_touchBuild.builds, fun _ h => h⟩ rfl
  | release image buildId provider released => exact buildInvariant_release h released
  | create image buildId provider data started => exact buildInvariant_create h hreq
  | addImage name filename metadata externalId => exact kept ⟨fun _ h => h, fun _ h => h⟩ rfl
  | finish p data =>
      exact kept ⟨fun _ h => by unfold finish setUpload; split <;> exact h,
        fun _ h => mem_uploads_setUpload.mp h⟩ checking_setUpload
  | touchNumber p =>
      rw [touchUpload_of_mem hok]
      exact kept keeps_touchBuild rfl
  | touchBuildId image buildId => exact kept keeps_touchBuild rfl
  | setUpload data =>
      exact kept ⟨fun _ h => by unfold setUpload; split <;> exact h,
        fun _ h => mem_uploads_setUpload.mp h⟩ checking_setUpload
  | setBuild image data =>
      exact kept
        ⟨fun _ => hasBuild_setBuild, fun _ h => by unfold setBuild at h; split at h <;> exact h⟩
        checking_setBuild
  | deleteImage provider name externalId => exact kept ⟨fun _ h => h, fun _ h => h⟩ rfl
  | deleteUpload p => exact kept ⟨fun _ h => h, fun _ h => ((AList.mem_erase).mp h).2⟩ rfl
  | deleteUploads image buildId paths below =>
      exact kept ⟨fun _ h => h, fun _ h => (mem_uploads_deleteUploads.mp h).2⟩ rfl
  | deleteBuild image buildId => exact buildInvariant_deleteBuild h hok

theorem checking_stepped {c : Call} (hij : j ≠ i) (hs : Stepped i w c w') :
    w'.checking j = w.checking j := by
  cases hs with
  | check image buildId build read => exact Function.update_of_ne hij _ _
  | create image buildId provider data started => exact Function.update_of_ne hij _ _
  | release image buildId provider released => exact Function.update_of_ne hij _ _
  | finish p data => exact congrFun checking_setUpload j
  | setUpload data => exact congrFun checking_setUpload j
  | setBuild image data => exact congrFun checking_setBuild j
  | _ => rfl

/-! ### The methods of a worker -/

abbrev buildContext (i : BuilderThread) : Context LauncherSig BuilderWorld :=
  builderSystem.context Orderly BuildInvariant (fun w w' => w'.checking i = w.checking i)
    (Found i) i

/-- The calls that create no record of an upload. -/
def Creating : Call → Prop
  | .createImageUpload _ _ _ _ => True
  | _ => False

/-- The calls that leave it open which build a worker has found. -/
def Plain : Call → Prop
  | .getBuild _ _ | .releaseUploadLock _ _ _ | .createImageUpload _ _ _ _ => False
  | _ => True

theorem found_of_not_creating {c : Call} (hc : ¬ Creating c) : Found i w c := by
  unfold Found
  split
  · exact absurd trivial hc
  · trivial

theorem stable_true : Stable (buildContext i) (fun c => ¬ Creating c) fun _ => True where
  rely _ _ _ := trivial
  req hc _ _ := found_of_not_creating hc
  step _ _ _ _ _ := trivial

theorem stable_checking : Stable (buildContext i) Plain fun w => w.checking i = some key where
  rely h hr _ := hr.trans h
  req {c w} hc _ _ := found_of_not_creating fun creating => by
    unfold Creating at creating
    split at creating
    · exact hc
    · exact creating
  step {c r w w'} hc h _ hs _ := by
    have step : Stepped i w c w' := next_stepped hs.1
    cases step with
    | check image buildId build read => exact hc.elim
    | create image buildId provider data started => exact hc.elim
    | release image buildId provider released => exact hc.elim
    | finish p data => exact (congrFun checking_setUpload i).trans h
    | setUpload data => exact (congrFun checking_setUpload i).trans h
    | setBuild image data => exact (congrFun checking_setBuild i).trans h
    | _ => exact h

variable {σ α : Type} {s : σ}

theorem respects_of_within {m : LauncherM σ α}
    (within : Within (fun c => ¬ Creating c) (fun s => s) m) :
    m.wp (buildContext i) (fun _ _ _ => True) (fun _ _ _ => True) s w :=
  wp_mono (within.wp stable_true trivial) (fun _ _ _ _ => trivial) fun _ _ _ _ => trivial

theorem createImageUpload_wp {image buildId provider : String} {data : ImageUpload}
    (h : w.checking i = some (image, buildId)) :
    (ZooKeeper.createImageUpload image buildId provider data : LauncherM σ String).wp
      (buildContext i) (fun _ _ _ => True) (fun _ _ _ => True) s w := by
  have exist : Within Plain (fun s : σ => s) (call (.buildsExist image)) := .perform trivial
  have raise : ∀ b, Within Plain (fun s : σ => s) (raiseUnless b (.other : Err)) :=
    fun _ => raiseUnless_within _ _
  refine wp_bind.mpr (wp_mono (exist.wp stable_checking h) (fun b s₁ w₁ h₁ => ?_)
    fun _ _ _ _ => trivial)
  refine wp_bind.mpr (wp_mono ((raise b).wp stable_checking h₁.2) (fun _ s₂ w₂ h₂ => ?_)
    fun _ _ _ _ => trivial)
  exact Method.wp_call (P := fun w => w.checking i = some (image, buildId))
    (fun h hr _ => hr.trans h) h₂.2 (fun w h _ => h) (fun _ _ _ _ _ _ _ => trivial)
    fun _ _ _ _ _ _ _ => trivial

theorem call_bind_wp {β : Type} {c : Call} {f : c.Val → LauncherM σ β} (hc : ¬ Creating c)
    (hf : ∀ v s w, (f v).wp (buildContext i) (fun _ _ _ => True) (fun _ _ _ => True) s w) :
    (call c >>= f).wp (buildContext i) (fun _ _ _ => True) (fun _ _ _ => True) s w :=
  wp_bind.mpr (wp_mono (respects_of_within (.perform hc)) (fun v s w _ => hf v s w)
    fun _ _ _ _ => trivial)

theorem uploadImage_within {provider : UploadProvider} {path : UploadPath} {images : List String} :
    Within (fun c => ¬ Creating c) (fun s : Unit => s)
      (UploadWorker.uploadImage .external provider path images) := by
  refine .bind (raiseUnless_within _ _) fun _ => .bind (.perform id) fun _ =>
    .bind (raiseUnless_within _ _) fun _ => .bind (.attempt (.perform id)) fun uploaded => ?_
  cases uploaded with
  | error e => exact .bind (.perform id) fun _ => .pure
  | ok externalId => exact UploadWorker.runPostUploadHook_within _ id id id

/-- What is found under the lock of the upload is still there when the record is created. -/
theorem uploadBuild_wp {provider : UploadProvider} {image : String} {build : ImageBuild}
    {images : List String} {s : Unit} :
    (UploadWorker.uploadBuild .external provider image build images : LauncherM Unit Bool).wp
      (buildContext i) (fun _ _ _ => True) (fun _ _ _ => True) s w := by
  refine call_bind_wp id fun uploads s w => ?_
  split
  · trivial
  · refine wp_bind.mpr (Method.wp_call (P := fun _ => True) (fun _ _ _ => trivial) trivial
      (fun _ _ _ => trivial) ?_ fun _ _ _ _ _ _ _ => trivial)
    intro stored w₁ w₂ _ _ hs _
    have mem : w₂ ∈ w₁.next i (.getBuild image build.id) (.ok stored) := hs.1
    obtain ⟨-, rfl⟩ := of_mem_ite mem
    split
    · trivial
    · rename_i alive
      have found : (w₁.check i ((stored.filter (·.state ≠ .deleting)).map
          fun _ => (image, build.id))).checking i = some (image, build.id) := by
        cases stored with
        | none => exact absurd rfl alive
        | some stored =>
            have alive : stored.state ≠ .deleting := fun e => alive (decide_eq_true e)
            simp [check, alive]
      refine wp_bind.mpr (wp_mono (createImageUpload_wp found) (fun number s w _ => ?_)
        fun _ _ _ _ => trivial)
      refine respects_of_within (.bind uploadImage_within fun data => .bind (.bind (.perform id)
        fun _ => .bind (.ite .pure .throw) fun _ => .perform id) fun _ => .pure)

theorem checkProviderImageUpload_wp {provider : UploadProvider} {image : String} {s : Unit} :
    (UploadWorker.checkProviderImageUpload .external provider image : LauncherM Unit Bool).wp
      (buildContext i) (fun _ _ _ => True) (fun _ _ _ => True) s w := by
  have locked : ∀ build images s w,
      (UploadWorker.withUploadLock provider image build.id
        (UploadWorker.uploadBuild .external provider image build images) : LauncherM Unit Bool).wp
        (buildContext i) (fun _ _ _ => True) (fun _ _ _ => True) s w := by
    intro build images s w
    refine call_bind_wp id fun acquired s w => wp_bind.mpr (wp_mono
      (respects_of_within (.ite .pure .throw)) (fun _ s w _ => ?_) fun _ _ _ _ => trivial)
    refine wp_bind.mpr (wp_attempt.mpr (wp_mono uploadBuild_wp (fun _ _ _ _ => ?_)
      fun _ _ _ _ => ?_))
    · exact call_bind_wp id fun _ _ _ => trivial
    · exact call_bind_wp id fun _ _ _ => trivial
  unfold UploadWorker.checkProviderImageUpload
  split
  · trivial
  · refine call_bind_wp id fun builds s w => ?_
    split
    · trivial
    · rename_i build rest
      refine call_bind_wp id fun images s w => ?_
      split
      · trivial
      · refine call_bind_wp id fun upload s w => ?_
        split
        · trivial
        · split
          · trivial
          · refine wp_tryCatch.mpr (wp_mono (locked build images s w) (fun _ _ _ _ => trivial)
              fun e _ _ _ => ?_)
            dsimp only
            split <;> trivial

theorem not_creating_of_cleaning {c : Call} (hc : BuilderCleanup.Cleaning c) : ¬ Creating c := by
  intro h
  unfold Creating at h
  split at h
  · exact hc
  · exact h

theorem method_wp (op : BuilderOp) :
    op.method.wp (buildContext i) (fun _ _ _ => True) (fun _ _ _ => True) () w := by
  cases op with
  | upload provider image =>
      exact wp_bind.mpr (wp_mono checkProviderImageUpload_wp (fun _ _ _ _ => trivial)
        fun _ _ _ _ => trivial)
  | cleanup config =>
      exact respects_of_within
        (BuilderCleanup.cleanup_cleans.mono fun _ => not_creating_of_cleaning)

def buildOutline : Outline builderSystem Orderly where
  inv := BuildInvariant
  rely i w w' := w'.checking i = w.checking i
  req := Found
  linv _ _ _ := True
  rely_refl _ _ := rfl
  rely_trans _ _ _ _ h h' := h'.trans h
  linv_stable _ _ _ _ _ _ _ := trivial
  entry i op s w _ _ _ _ := by
    change (op.method.toBody (fun _ s => s) s).wp (buildContext i) (fun _ _ => True) w
    exact wp_toBody_of_respects _ (method_wp op)
  call_inv _ _ _ _ _ h hreq hok hs := buildInvariant_stepped h hreq hok (next_stepped hs)
  call_rely _ _ _ _ _ _ hij _ _ _ hs := checking_stepped (Ne.symm hij) (next_stepped hs)
  env_inv h henv := by
    cases henv with
    | storeBuild key data =>
      exact h.of_keeps ⟨fun _ => hasBuild_insert, fun _ h => h⟩ fun _ _ h => h
  env_rely _ _ _ _ henv := by
    cases henv with
    | storeBuild key data => rfl

theorem init_safe (builds : Dict (String × String) (Option ImageBuild)) :
    buildOutline.Safe (init builds) :=
  .of_idle ⟨fun _ h => (AList.notMem_empty _ h).elim, fun _ _ h => nomatch h⟩
    fun _ => ⟨(), rfl, trivial⟩

/-- **Main result.** In every such run, each upload lies under a build with data, and a record
of an upload is only created under one. -/
theorem builds_of_uploads (builds : Dict (String × String) (Option ImageBuild))
    {cfg : Config builderSystem} (run : builderSystem.Run Orderly (init builds) cfg) :
    (∀ p ∈ cfg.world.uploads, ∃ data, cfg.world.readBuild p.build = some data) ∧
      ∀ (i : BuilderThread) (image buildId provider : String) (data : ImageUpload)
        (k : LauncherSig.Reply (.createImageUpload image buildId provider data) →
          Prog LauncherSig Unit),
        cfg.thread i = .call (.createImageUpload image buildId provider data) k →
        ∃ build, cfg.world.readBuild (image, buildId) = some build := by
  have safe := buildOutline.sound (init_safe builds) run
  refine ⟨safe.inv.uploads, fun i image buildId provider data k next => ?_⟩
  have found : Found i cfg.world (.createImageUpload image buildId provider data) := safe.req next
  exact safe.inv.checking i _ found

/-! ### Examples -/

def exampleProvider : UploadProvider where
  name := "azure"
  imageType := "vhd"
  imageNameFormat image number _ := image ++ "-" ++ number
  diskimages := (∅ : Dict _ _).insert "fedora" false
  postUploadHook := false

def exampleBuild : ImageBuild := ⟨"1", .ready, ["vhd"]⟩

/-- Answers of calls that succeed; the znodes of builds have no providers below them. -/
def exampleAnswer (w : BuilderWorld) : (c : Call) → LauncherSig.Reply c
  | .getImageNames => .ok ["fedora"]
  | .getBuildIds _ => .ok ["1"]
  | .getBuildRecord image buildId =>
      .ok ((w.readBuild (image, buildId)).map fun build => ⟨build, 0⟩)
  | .getBuildProviders _ _ | .getLocalBuilds => .ok []
  | .getMostRecentBuilds _ => .ok [exampleBuild]
  | .localImages _ _ => .ok ["vhd"]
  | .getMostRecentBuildImageUploads _ _ _ => .ok []
  | .acquireUploadLock _ _ _ | .acquireBuildIdLock _ _ | .buildsExist _ => .ok true
  | .getBuild image buildId => .ok (w.readBuild (image, buildId))
  | .createImageUpload _ _ _ _ => .ok (sequenceName w.counter)
  | .time => .ok 0
  | .uploadImage name _ _ => .ok name
  | .setImageUpload _ _ | .releaseUploadLock _ _ _ | .releaseBuildIdLock _ _
  | .setBuildRecord _ _ | .deleteBuildTree _ _ => .ok ()
  | _ => .error .other

def exampleBuilds : Dict (String × String) (Option ImageBuild) :=
  (∅ : Dict _ _).insert ("fedora", "1") (some exampleBuild)

def examplePath : UploadPath := ⟨"fedora", "1", "azure", sequenceName 0⟩

/-- Image debian, which has a build too, is not configured any more. -/
def exampleConfig : BuilderConfig where
  providers := [⟨"azure", true, "vhd", ["fedora"]⟩]
  unique := List.nodup_singleton _
  diskimages := (∅ : Dict _ _).insert "fedora" ⟨false, []⟩
  managers := ["azure"]

def deletingAnswer (w : BuilderWorld) : (c : Call) → LauncherSig.Reply c
  | .getImageNames => .ok ["fedora", "debian"]
  | .getUploadNumbers _ _ _ => .ok []
  | c => exampleAnswer w c

/-- A cleanup worker deletes the build of debian while an upload worker, which has found the build
of fedora, is about to create its record. -/
def deletingSchedule : List (System.Action builderSystem) :=
  .start (.upload 0) (.upload exampleProvider "fedora") ::
    List.replicate 7 (.respond (.upload 0) exampleAnswer 0) ++
    .start (.cleanup 0) (.cleanup exampleConfig) ::
    List.replicate 23 (.respond (.cleanup 0) deletingAnswer 0) ++
    List.replicate 6 (.respond (.upload 0) exampleAnswer 0)

/-- The steps of these two workers that are `Orderly`, as a test. -/
def orderly (w : BuilderWorld) : Event builderSystem → Bool
  | .start _ _ => true
  | .call i c _ => decide (i = .upload 0 ∨ i = .cleanup 0) && match c with
      | .deleteBuildTree image buildId => w.checking (.upload 0) ≠ some (image, buildId) &&
          w.checking (.cleanup 0) ≠ some (image, buildId)
      | .acquireNumberLock p => p ∈ w.uploads
      | _ => true
  | .env => false

/-- No other worker has found a build, so the test is enough. -/
theorem run_orderly {builds : Dict (String × String) (Option ImageBuild)}
    {cfg : Config builderSystem}
    (run : builderSystem.Run (fun w e => orderly w e = true) (init builds) cfg) :
    builderSystem.Run Orderly (init builds) cfg ∧
      ∀ i, i ≠ .upload 0 → i ≠ .cleanup 0 → cfg.world.checking i = none := by
  induction run with
  | refl => exact ⟨.refl, fun _ _ _ => rfl⟩
  | @tail c c' e prefix_ ok step ih =>
      obtain ⟨run, others⟩ := ih
      cases step with
      | start i op idle enabled =>
          exact ⟨.tail (e := .start i op) run trivial (.start i op idle enabled), others⟩
      | env h => cases ok
      | @call w w' th i c k r next mem =>
          obtain ⟨thread, allowed⟩ := Bool.and_eq_true_iff.mp ok
          have thread := of_decide_eq_true thread
          refine ⟨run.tail ?_ (.call i r next mem), fun j first second => ?_⟩
          · unfold Orderly
            split
            · rename_i same
              cases same
              obtain ⟨upload, cleanup⟩ := Bool.and_eq_true_iff.mp allowed
              intro j
              by_cases first : j = .upload 0
              · exact first ▸ of_decide_eq_true upload
              by_cases second : j = .cleanup 0
              · exact second ▸ of_decide_eq_true cleanup
              · rw [others j first second]
                exact nofun
            · rename_i same
              cases same
              exact of_decide_eq_true allowed
            · trivial
          · have apart : j ≠ i := by
              rintro rfl
              exact thread.elim first second
            exact (checking_stepped apart (next_stepped mem)).trans (others j first second)

theorem builds_of_uploads_deletingSchedule : ∃ cfg,
    builderSystem.Run Orderly
        (init (exampleBuilds.insert ("debian", "1") (some exampleBuild))) cfg ∧
      ("debian", "1") ∉ cfg.world.builds ∧ examplePath ∈ cfg.world.uploads ∧
      ∀ p ∈ cfg.world.uploads, ∃ data, cfg.world.readBuild p.build = some data := by
  have replay : ((System.exec orderly
      (init (exampleBuilds.insert ("debian", "1") (some exampleBuild))) deletingSchedule).any
      fun cfg => ("debian", "1") ∉ cfg.world.builds && examplePath ∈ cfg.world.uploads) = true := by
    decide +kernel
  obtain ⟨cfg, run, replay⟩ := System.exists_run_of_exec _ (fun _ _ h => h) replay
  obtain ⟨deleted, created⟩ := Bool.and_eq_true_iff.mp replay
  have run := (run_orderly run).1
  exact ⟨cfg, run, of_decide_eq_true deleted, of_decide_eq_true created,
    (builds_of_uploads _ run).1⟩

/-- The image is in no configuration of the cleanup worker any more. -/
def emptyConfig : BuilderConfig := ⟨[], List.nodup_nil, ∅, []⟩

/-- A cleanup worker deletes a build after an upload worker has found it, and before the
upload worker creates the record. -/
def deletedSchedule : List (System.Action builderSystem) :=
  .start (.upload 0) (.upload exampleProvider "fedora") ::
    List.replicate 7 (.respond (.upload 0) exampleAnswer 0) ++
    .start (.cleanup 0) (.cleanup emptyConfig) ::
    List.replicate 15 (.respond (.cleanup 0) exampleAnswer 0) ++
    [.respond (.upload 0) exampleAnswer 0]

/-- The record brings back the znode of the build, which is empty. -/
theorem not_forall_builds_of_uploads : ¬ ∀ (builds : Dict (String × String) (Option ImageBuild))
    (cfg : Config builderSystem), builderSystem.Run builderSystem.always (init builds) cfg →
    ∀ p ∈ cfg.world.uploads, ∃ data, cfg.world.readBuild p.build = some data := by
  intro all
  have hexec : ∃ cfg,
      System.exec (fun _ _ => true) (init exampleBuilds) deletedSchedule = some cfg ∧
      cfg.world.uploads.lookup examplePath = some (some ⟨.uploading, none, none, none⟩) ∧
      cfg.world.builds.lookup examplePath.build = some none :=
    ⟨_, rfl, rfl, rfl⟩
  obtain ⟨cfg, hcfg, record, build⟩ := hexec
  obtain ⟨data, found⟩ := all exampleBuilds cfg (System.exec_run _ (fun _ _ _ => trivial) hcfg)
    examplePath (AList.lookup_isSome.mp (by rw [record]; rfl))
  unfold readBuild at found
  rw [build] at found
  cases found

end BuilderSystem

end Nodepool
