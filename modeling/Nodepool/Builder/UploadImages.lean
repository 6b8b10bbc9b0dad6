import Nodepool.Builder.CleanupFootprint
import Nodepool.Builder.UploadSystem

/-!
The record of an upload is removed after its image, and keeps the external id until then.

An image exists while its upload is in progress or while the record in ZooKeeper has its
external id. An upload that a cleanup worker finds not in progress gets no more images, so
what the worker knows about them is not lost while it works on what it has read earlier.

The result is about the runs in which an upload worker does not give up an upload whose image
exists, a cleanup worker does not mark an upload that was completed after it was read, and a
build is deleted with no upload below it.
-/

namespace Nodepool

open Effect Method

namespace UploadImages

open BuilderWorld

abbrev Stepped := BuilderSystem.Stepped

variable {w w' : BuilderWorld} {i j : BuilderThread} {p q : UploadPath} {e externalId : String}
  {upload : UploadRecord} {data : ImageUpload}

/-- No image exists that was created for an upload. -/
def NoImage (w : BuilderWorld) (p : UploadPath) : Prop := ∀ image ∈ w.images, image.1 ≠ p

instance : Decidable (NoImage w p) := inferInstanceAs (Decidable (∀ image ∈ w.images, _))

/-- An upload worker stores a failure and leaves an upload that has no final state only when
there is no image, images have an external id, a cleanup worker that has read no external id
marks an upload that has none, and a build is deleted without uploads. -/
def Tidy (w : BuilderWorld) : Event builderSystem → Prop
  | .call _ (.setImageUpload p data) _ => data.state = .failed → NoImage w p
  | .call i (.releaseUploadLock _ _ _) _ => ∀ p ∈ w.uploading i, NoImage w p
  | .call _ (.uploadImage _ _ _) r => r ≠ .ok ""
  | .call _ (.setUploadRecord upload) _ =>
      upload.externalId = none → ∀ stored ∈ w.readUpload upload.path, stored.externalId = none
  | .call _ (.deleteBuildTree image buildId) _ => w.uploadsOf (image, buildId) = []
  | _ => True

/-- The number of the upload is taken. -/
def Known (w : BuilderWorld) (p : UploadPath) : Prop :=
  ∃ m < w.counter, p.number = sequenceName m

structure ImageInvariant (w : BuilderWorld) : Prop where
  known : ∀ p ∈ w.uploads, Known w p
  uploading : ∀ i p, w.uploading i = some p → w.lock p.lockKey = some i ∧ p ∈ w.uploads ∧
    ∀ data, w.readUpload p = some data → data.state = .uploading
  images : ∀ p e, (p, e) ∈ w.images → (∃ i, w.uploading i = some p) ∨
    e ≠ "" ∧ ∃ data, w.readUpload p = some data ∧ data.externalId = some e
  unfinished : ∀ p data, w.readUpload p = some data → data.state = .uploading →
    data.externalId = none

/-- The upload was made, and is not in progress. -/
def Finished (w : BuilderWorld) (p : UploadPath) : Prop :=
  Known w p ∧ ∀ i, w.uploading i ≠ some p

/-- The images of an upload have the external id that was read. -/
def Names (w : BuilderWorld) (upload : UploadRecord) : Prop :=
  ∀ e, (upload.path, e) ∈ w.images → e ≠ "" ∧ upload.externalId = some e

/-- The record is READY only with the external id that was read. -/
def Agrees (w : BuilderWorld) (upload : UploadRecord) : Prop :=
  ∀ data, w.readUpload upload.path = some data → data.state = .ready →
    data.externalId = upload.externalId

/-- What a cleanup worker knows about an upload that it has read. -/
structure Seen (w : BuilderWorld) (upload : UploadRecord) : Prop where
  known : Known w upload.path
  uploading : upload.state = .uploading → upload.externalId = none
  finished : upload.state ≠ .uploading →
    Finished w upload.path ∧ Names w upload ∧ Agrees w upload

/-- What a worker must respect at a call. -/
def Req (i : BuilderThread) (w : BuilderWorld) : Call → Prop
  | .createImageUpload image buildId provider data =>
      w.lock ⟨image, buildId, provider⟩ = some i ∧ w.uploading i = none ∧
        data.state = .uploading ∧ data.externalId = none
  | .setImageUpload p data =>
      w.uploading i = some p ∧ (data.state = .failed ∨ data.state = .ready ∧
        ∀ e, (p, e) ∈ w.images → e ≠ "" ∧ data.externalId = some e)
  | .acquireNumberLock p => Known w p
  | .setUploadRecord upload =>
      upload.state = .deleting ∧ Finished w upload.path ∧
        (upload.externalId = none ∨ Names w upload ∧ Agrees w upload)
  | .deleteUploadTree p => Finished w p ∧ NoImage w p
  | _ => True

/-- What no step takes away. -/
structure Lasts (w w' : BuilderWorld) : Prop where
  known : ∀ p, Known w p → Known w' p
  finished : ∀ p, Finished w p → Finished w' p
  images : ∀ p, Finished w p → ∀ e, (p, e) ∈ w'.images → (p, e) ∈ w.images
  ready : ∀ p, Finished w p → ∀ data, w'.readUpload p = some data → data.state = .ready →
    w.readUpload p = some data

/-- What the others leave to a worker. -/
structure Beside (i : BuilderThread) (w w' : BuilderWorld) : Prop extends Lasts w w' where
  uploading : w'.uploading i = w.uploading i
  lock : ∀ key, w.lock key = some i → w'.lock key = some i
  own : ∀ p, w.uploading i = some p → ∀ e, (p, e) ∈ w'.images → (p, e) ∈ w.images

/-! ### Records -/

theorem Lasts.refl (w : BuilderWorld) : Lasts w w :=
  ⟨fun _ h => h, fun _ h => h, fun _ _ _ h => h, fun _ _ _ h _ => h⟩

theorem Lasts.trans {w'' : BuilderWorld} (h : Lasts w w') (h' : Lasts w' w'') : Lasts w w'' where
  known p hp := h'.known p (h.known p hp)
  finished p hp := h'.finished p (h.finished p hp)
  images p hp e he := h.images p hp e (h'.images p (h.finished p hp) e he)
  ready p hp data hd ready := h.ready p hp data (h'.ready p (h.finished p hp) data hd ready) ready

theorem Beside.refl (i : BuilderThread) (w : BuilderWorld) : Beside i w w :=
  ⟨.refl w, rfl, fun _ h => h, fun _ _ _ h => h⟩

theorem Beside.trans {w'' : BuilderWorld} (h : Beside i w w') (h' : Beside i w' w'') :
    Beside i w w'' where
  toLasts := h.toLasts.trans h'.toLasts
  uploading := h'.uploading.trans h.uploading
  lock key hl := h'.lock key (h.lock key hl)
  own p hp e he := h.own p hp e (h'.own p (h.uploading.trans hp) e he)

theorem Lasts.seen (h : Lasts w w') (hs : Seen w upload) : Seen w' upload where
  known := h.known _ hs.known
  uploading := hs.uploading
  finished state := by
    obtain ⟨finished, names, agrees⟩ := hs.finished state
    exact ⟨h.finished _ finished, fun e he => names e (h.images _ finished e he),
      fun data hd ready => agrees data (h.ready _ finished data hd ready) ready⟩

theorem mem_of_readUpload (h : w.readUpload p = some data) : p ∈ w.uploads :=
  AList.lookup_isSome.mp (by rw [Option.join_eq_some_iff.mp h]; rfl)

theorem readUpload_insert_self {uploads : Dict UploadPath (Option ImageUpload)} :
    ({ w with uploads := uploads.insert p (some data) } : BuilderWorld).readUpload p =
      some data := by
  unfold readUpload
  rw [AList.lookup_insert]
  rfl

theorem readUpload_setUpload_self (h : p ∈ w.uploads) :
    (w.setUpload p data).readUpload p = some data := by
  unfold setUpload
  rw [if_pos h]
  exact readUpload_insert_self

theorem readUpload_setUpload_of_ne (ne : p ≠ q) :
    (w.setUpload q data).readUpload p = w.readUpload p := by
  unfold setUpload readUpload
  split
  · rw [AList.lookup_insert_ne ne]
  · rfl

theorem mem_uploads_setUpload : p ∈ (w.setUpload q data).uploads ↔ p ∈ w.uploads := by
  unfold setUpload
  split
  · rename_i stored
    rw [AList.mem_insert]
    exact ⟨fun h => h.elim (fun e => e ▸ stored) id, Or.inr⟩
  · rfl

theorem readUpload_touchUpload : (w.touchUpload q).readUpload p = w.readUpload p := by
  unfold readUpload touchUpload Dict.setdefault
  dsimp only
  split
  · rfl
  · rename_i absent
    by_cases e : p = q
    · subst e
      rw [AList.lookup_insert, AList.lookup_eq_none.mpr absent]
      rfl
    · rw [AList.lookup_insert_ne e]

theorem setUpload_images : (w.setUpload q data).images = w.images := by
  unfold setUpload
  split <;> rfl

theorem setUpload_uploading : (w.setUpload q data).uploading = w.uploading := by
  unfold setUpload
  split <;> rfl

theorem setUpload_lock : (w.setUpload q data).lock = w.lock := by
  unfold setUpload
  split <;> rfl

theorem setUpload_counter : (w.setUpload q data).counter = w.counter := by
  unfold setUpload
  split <;> rfl

theorem known_setUpload : Known (w.setUpload q data) p ↔ Known w p := by
  unfold Known
  rw [setUpload_counter]

theorem Known.ne_next {image buildId provider : String} (h : Known w p) :
    p ≠ ⟨image, buildId, provider, sequenceName w.counter⟩ := by
  rintro rfl
  obtain ⟨m, hm, number⟩ := h
  have : w.counter = m := sequenceName_injective number
  omega

theorem uploading_unique (h : ImageInvariant w) (hi : w.uploading i = some p)
    (hj : w.uploading j = some p) : i = j := by
  have held := (h.uploading i p hi).1
  rw [(h.uploading j p hj).1] at held
  exact (Option.some.inj held).symm

theorem known_of_image (h : ImageInvariant w) (he : (p, e) ∈ w.images) : Known w p := by
  rcases h.images p e he with ⟨i, hu⟩ | ⟨-, data, hd, -⟩
  · exact h.known p (h.uploading i p hu).2.1
  · exact h.known p (mem_of_readUpload hd)

/-- The worker reads the record as it is stored. -/
theorem seen_of_read (h : ImageInvariant w)
    (read : w.readUpload upload.path = some upload.toImageUpload) : Seen w upload where
  known := h.known _ (mem_of_readUpload read)
  uploading := h.unfinished _ _ read
  finished state := by
    have idle : ∀ i, w.uploading i ≠ some upload.path :=
      fun i hu => state ((h.uploading i _ hu).2.2 _ read)
    refine ⟨⟨h.known _ (mem_of_readUpload read), idle⟩, fun e he => ?_, fun data hd _ => ?_⟩
    · rcases h.images _ e he with ⟨i, hu⟩ | ⟨ne, data, hd, id⟩
      · exact absurd hu (idle i)
      · rw [read] at hd
        cases hd
        exact ⟨ne, id⟩
    · rw [read] at hd
      cases hd
      rfl

/-- A finished upload without an external id has no image. -/
theorem noImage_of_none (h : ImageInvariant w) (finished : Finished w p)
    (none : ∀ data, w.readUpload p = some data → data.externalId = none) : NoImage w p := by
  rintro ⟨q, e⟩ he rfl
  rcases h.images q e he with ⟨i, hu⟩ | ⟨-, data, hd, id⟩
  · exact finished.2 i hu
  · rw [none data hd] at id
    cases id

/-! ### One step -/

/-- A step that leaves uploads, images and the locks of uploads alone. -/
structure Apart (w w' : BuilderWorld) : Prop where
  uploads : w'.uploads = w.uploads
  images : w'.images = w.images
  uploading : w'.uploading = w.uploading
  lock : w'.lock = w.lock
  counter : w'.counter = w.counter

theorem Apart.known (h : Apart w w') : Known w' p ↔ Known w p := by
  unfold Known
  rw [h.counter]

theorem Apart.readUpload (h : Apart w w') (p : UploadPath) : w'.readUpload p = w.readUpload p := by
  unfold BuilderWorld.readUpload
  rw [h.uploads]

theorem Apart.invariant (h : Apart w w') (hi : ImageInvariant w) : ImageInvariant w' where
  known p hp := h.known.mpr (hi.known p (h.uploads ▸ hp))
  uploading i p hu := by
    rw [h.uploading] at hu
    rw [h.lock, h.uploads, h.readUpload]
    exact hi.uploading i p hu
  images p e he := by
    rw [h.images] at he
    rw [h.uploading, h.readUpload]
    exact hi.images p e he
  unfinished p data hd := by
    rw [h.readUpload] at hd
    exact hi.unfinished p data hd

theorem Apart.lasts (h : Apart w w') : Lasts w w' where
  known p hp := h.known.mpr hp
  finished p hp := ⟨h.known.mpr hp.1, by rw [h.uploading]; exact hp.2⟩
  images p _ e he := h.images ▸ he
  ready p _ data hd _ := (h.readUpload p).symm.trans hd

theorem apart_setBuild {key : String × String} {build : ImageBuild} :
    Apart w (w.setBuild key build) := by
  unfold setBuild
  split <;> exact ⟨rfl, rfl, rfl, rfl, rfl⟩

theorem invariant_acquire {image buildId provider : String} (h : ImageInvariant w)
    (free : w.lock ⟨image, buildId, provider⟩ = none) :
    ImageInvariant ((w.touchBuild (image, buildId)).acquire i ⟨image, buildId, provider⟩) where
  known := h.known
  uploading j p hu := by
    obtain ⟨held, rest⟩ := h.uploading j p hu
    refine ⟨?_, rest⟩
    have ne : p.lockKey ≠ ⟨image, buildId, provider⟩ := by
      intro e
      rw [e, free] at held
      cases held
    exact (Function.update_of_ne ne _ _).trans held
  images := h.images
  unfinished := h.unfinished

theorem uploading_of_update {uploading : BuilderThread → Option UploadPath}
    (h : Function.update uploading i none j = some p) : j ≠ i ∧ uploading j = some p := by
  by_cases e : j = i
  · subst e
    rw [Function.update_self] at h
    cases h
  · rw [Function.update_of_ne e] at h
    exact ⟨e, h⟩

theorem invariant_release {key : UploadLockKey} (h : ImageInvariant w) (released : Bool)
    (none : ∀ p ∈ w.uploading i, NoImage w p) : ImageInvariant (w.release i key released) where
  known := h.known
  uploading j p hu := by
    obtain ⟨ne, hu⟩ := uploading_of_update hu
    obtain ⟨held, rest⟩ := h.uploading j p hu
    refine ⟨?_, rest⟩
    unfold BuilderWorld.release
    dsimp only
    split
    · rename_i mine
      have other : p.lockKey ≠ key := by
        intro e
        rw [e, mine.2] at held
        exact ne (Option.some.inj held).symm
      rw [Function.update_of_ne other]
      exact held
    · exact held
  images p e he := by
    rcases h.images p e he with ⟨j, hu⟩ | stored
    · by_cases e' : j = i
      · subst e'
        exact absurd rfl (none p hu _ he)
      · exact Or.inl ⟨j, (Function.update_of_ne e' _ _).trans hu⟩
    · exact Or.inr stored
  unfinished := h.unfinished

theorem invariant_touchUpload (h : ImageInvariant w) (known : Known w q) :
    ImageInvariant (w.touchUpload q) where
  known p hp := by
    rcases Dict.mem_setdefault.mp hp with rfl | hp
    · exact known
    · exact h.known p hp
  uploading i p hu := by
    obtain ⟨held, stored, state⟩ := h.uploading i p hu
    exact ⟨held, Dict.mem_setdefault.mpr (Or.inr stored), by
      rw [readUpload_touchUpload]; exact state⟩
  images p e he := by
    rw [readUpload_touchUpload]
    exact h.images p e he
  unfinished p data hd := by
    rw [readUpload_touchUpload] at hd
    exact h.unfinished p data hd

theorem lasts_touchUpload : Lasts w (w.touchUpload q) where
  known _ hp := hp
  finished _ hp := hp
  images _ _ _ he := he
  ready _ _ _ hd _ := readUpload_touchUpload.symm.trans hd

theorem invariant_setUpload (h : ImageInvariant w) (finished : Finished w q)
    (state : data.state = .deleting)
    (keeps : ∀ e, (q, e) ∈ w.images → data.externalId = some e) :
    ImageInvariant (w.setUpload q data) where
  known p hp := known_setUpload.mpr (h.known p (mem_uploads_setUpload.mp hp))
  uploading i p hu := by
    rw [setUpload_uploading] at hu
    obtain ⟨held, stored, uploading⟩ := h.uploading i p hu
    have ne : p ≠ q := by
      rintro rfl
      exact finished.2 i hu
    rw [setUpload_lock, readUpload_setUpload_of_ne ne]
    exact ⟨held, mem_uploads_setUpload.mpr stored, uploading⟩
  images p e he := by
    rw [setUpload_images] at he
    rw [setUpload_uploading]
    refine (h.images p e he).imp_right fun ⟨ne, old, hd, id⟩ => ⟨ne, ?_⟩
    by_cases hp : p = q
    · subst hp
      exact ⟨data, readUpload_setUpload_self (mem_of_readUpload hd), keeps e he⟩
    · exact ⟨old, (readUpload_setUpload_of_ne hp).trans hd, id⟩
  unfinished p d hd uploading := by
    by_cases hp : p = q
    · subst hp
      unfold readUpload setUpload at hd
      split at hd
      · rw [AList.lookup_insert] at hd
        cases hd
        rw [state] at uploading
        cases uploading
      · exact h.unfinished p d hd uploading
    · rw [readUpload_setUpload_of_ne hp] at hd
      exact h.unfinished p d hd uploading

theorem lasts_setUpload (state : data.state = .deleting) : Lasts w (w.setUpload q data) where
  known p hp := known_setUpload.mpr hp
  finished p hp := ⟨known_setUpload.mpr hp.1, by rw [setUpload_uploading]; exact hp.2⟩
  images _ _ _ he := setUpload_images ▸ he
  ready p _ d hd ready := by
    by_cases hp : p = q
    · subst hp
      unfold readUpload setUpload at hd
      split at hd
      · rw [AList.lookup_insert] at hd
        cases hd
        rw [state] at ready
        cases ready
      · exact hd
    · exact (readUpload_setUpload_of_ne hp).symm.trans hd

theorem invariant_finish (h : ImageInvariant w) (mine : w.uploading i = some q)
    (state : data.state ≠ .uploading)
    (keeps : ∀ e, (q, e) ∈ w.images → e ≠ "" ∧ data.externalId = some e) :
    ImageInvariant ((w.setUpload q data).finish i) where
  known p hp := known_setUpload.mpr (h.known p (mem_uploads_setUpload.mp hp))
  uploading j p hu := by
    obtain ⟨ne, busy⟩ := uploading_of_update hu
    rw [setUpload_uploading] at busy
    obtain ⟨held, stored, uploading⟩ := h.uploading j p busy
    have other : p ≠ q := by
      rintro rfl
      exact ne (uploading_unique h busy mine)
    refine ⟨(congrFun setUpload_lock _).trans held, mem_uploads_setUpload.mpr stored, ?_⟩
    exact fun d hd => uploading d ((readUpload_setUpload_of_ne other).symm.trans hd)
  images p e he := by
    have stored : (p, e) ∈ w.images := by
      rw [← setUpload_images]
      exact he
    by_cases hp : p = q
    · subst hp
      exact Or.inr ⟨(keeps e stored).1, data, readUpload_setUpload_self (h.uploading i p mine).2.1,
        (keeps e stored).2⟩
    · refine (h.images p e stored).imp (fun ⟨j, hu⟩ => ⟨j, ?_⟩) fun ⟨ne, d, hd, id⟩ =>
        ⟨ne, d, (readUpload_setUpload_of_ne hp).trans hd, id⟩
      have other : j ≠ i := by
        rintro rfl
        rw [mine] at hu
        exact hp (Option.some.inj hu).symm
      exact (Function.update_of_ne other _ _).trans ((congrFun setUpload_uploading j).trans hu)
  unfinished p d hd uploading := by
    have hd : (w.setUpload q data).readUpload p = some d := hd
    by_cases hp : p = q
    · subst hp
      rw [readUpload_setUpload_self (h.uploading i p mine).2.1] at hd
      cases hd
      exact absurd uploading state
    · rw [readUpload_setUpload_of_ne hp] at hd
      exact h.unfinished p d hd uploading

theorem lasts_finish (mine : w.uploading i = some q) :
    Lasts w ((w.setUpload q data).finish i) where
  known p hp := known_setUpload.mpr hp
  finished p hp := by
    refine ⟨known_setUpload.mpr hp.1, fun j hu => ?_⟩
    obtain ⟨-, hu⟩ := uploading_of_update hu
    rw [setUpload_uploading] at hu
    exact hp.2 j hu
  images p _ e he := by
    rw [← setUpload_images]
    exact he
  ready p hp d hd _ := by
    have ne : p ≠ q := by
      rintro rfl
      exact hp.2 i mine
    exact (readUpload_setUpload_of_ne ne).symm.trans hd

theorem invariant_create {image buildId provider : String} (h : ImageInvariant w)
    (hreq : Req i w (.createImageUpload image buildId provider data)) (started : Bool) :
    ImageInvariant (w.create i ⟨image, buildId, provider, sequenceName w.counter⟩ data
      (if started then some ⟨image, buildId, provider, sequenceName w.counter⟩ else none)) := by
  obtain ⟨held, idle, state, id⟩ := hreq
  have known : ∀ {p}, Known w p → Known (w.create i
      ⟨image, buildId, provider, sequenceName w.counter⟩ data
      (if started then some ⟨image, buildId, provider, sequenceName w.counter⟩ else none)) p :=
    fun ⟨m, hm, number⟩ => ⟨m, Nat.lt_succ_of_lt hm, number⟩
  have self : ∀ {d}, (w.create i ⟨image, buildId, provider, sequenceName w.counter⟩ data
      (if started then some ⟨image, buildId, provider, sequenceName w.counter⟩
        else none)).readUpload
        ⟨image, buildId, provider, sequenceName w.counter⟩ = some d → data = d := by
    intro d hd
    unfold readUpload BuilderWorld.create at hd
    rw [AList.lookup_insert] at hd
    exact Option.some.inj hd
  have read : ∀ {p}, p ≠ ⟨image, buildId, provider, sequenceName w.counter⟩ →
      (w.create i ⟨image, buildId, provider, sequenceName w.counter⟩ data
        (if started then some ⟨image, buildId, provider, sequenceName w.counter⟩
          else none)).readUpload
          p = w.readUpload p := by
    intro p ne
    unfold readUpload BuilderWorld.create
    rw [AList.lookup_insert_ne ne]
  refine ⟨fun p hp => ?_, fun j p hu => ?_, fun p e he => ?_, fun p d hd uploading => ?_⟩
  · rcases (AList.mem_insert _).mp hp with rfl | hp
    · exact ⟨w.counter, Nat.lt_succ_self _, rfl⟩
    · exact known (h.known p hp)
  · by_cases e : j = i
    · subst e
      have hu : (if started then some (⟨image, buildId, provider, sequenceName w.counter⟩ :
          UploadPath) else none) = some p := (Function.update_self j _ w.uploading).symm.trans hu
      split at hu
      · cases hu
        exact ⟨held, (AList.mem_insert _).mpr (Or.inl rfl), fun d hd => self hd ▸ state⟩
      · cases hu
    · have hu : w.uploading j = some p := (Function.update_of_ne e _ _).symm.trans hu
      obtain ⟨heldj, stored, uploading⟩ := h.uploading j p hu
      refine ⟨heldj, (AList.mem_insert _).mpr (Or.inr stored), fun d hd => uploading d ?_⟩
      exact (read (h.known p stored).ne_next).symm.trans hd
  · have ne : p ≠ ⟨image, buildId, provider, sequenceName w.counter⟩ :=
      (known_of_image h he).ne_next
    rcases h.images p e he with ⟨j, hu⟩ | ⟨truthy, d, hd, id⟩
    · have other : j ≠ i := by
        rintro rfl
        rw [idle] at hu
        cases hu
      exact Or.inl ⟨j, (Function.update_of_ne other _ _).trans hu⟩
    · exact Or.inr ⟨truthy, d, (read ne).trans hd, id⟩
  · by_cases e : p = ⟨image, buildId, provider, sequenceName w.counter⟩
    · subst e
      exact self hd ▸ id
    · exact h.unfinished p d ((read e).symm.trans hd) uploading

theorem lasts_create {image buildId provider : String} {uploading : Option UploadPath}
    (next : ∀ p ∈ uploading, p = ⟨image, buildId, provider, sequenceName w.counter⟩) :
    Lasts w (w.create i ⟨image, buildId, provider, sequenceName w.counter⟩ data uploading) := by
  have known : ∀ {p}, Known w p → Known (w.create i
      ⟨image, buildId, provider, sequenceName w.counter⟩ data uploading) p :=
    fun ⟨m, hm, number⟩ => ⟨m, Nat.lt_succ_of_lt hm, number⟩
  refine ⟨fun p => known, fun p hp => ⟨known hp.1, fun j hu => ?_⟩, fun p _ e he => he,
    fun p hp d hd _ => ?_⟩
  · by_cases e : j = i
    · subst e
      exact hp.1.ne_next (next p ((Function.update_self j _ w.uploading).symm.trans hu))
    · exact hp.2 j ((Function.update_of_ne e _ _).symm.trans hu)
  · unfold readUpload BuilderWorld.create at hd
    rw [AList.lookup_insert_ne hp.1.ne_next] at hd
    exact hd

theorem invariant_addImage (h : ImageInvariant w) : ImageInvariant (w.addImage i externalId) where
  known := h.known
  uploading := h.uploading
  images p e he := by
    rcases List.mem_append.mp he with he | he
    · obtain ⟨q, hq, same⟩ := List.mem_map.mp he
      cases same
      exact Or.inl ⟨i, Option.mem_toList.mp hq⟩
    · exact h.images p e he
  unfinished := h.unfinished

theorem images_addImage (h : (p, e) ∈ (w.addImage i externalId).images) :
    w.uploading i = some p ∧ e = externalId ∨ (p, e) ∈ w.images := by
  refine (List.mem_append.mp h).imp_left fun he => ?_
  obtain ⟨q, hq, same⟩ := List.mem_map.mp he
  cases same
  exact ⟨Option.mem_toList.mp hq, rfl⟩

theorem lasts_addImage : Lasts w (w.addImage i externalId) where
  known _ hp := hp
  finished _ hp := hp
  images _ hp _ he := (images_addImage he).resolve_left fun new => hp.2 i new.1
  ready _ _ _ hd _ := hd

theorem mem_deleteImage {provider : String} {id : Option String} :
    (p, e) ∈ (w.deleteImage provider id).images ↔
      (p, e) ∈ w.images ∧ ¬ (p.provider = provider ∧ some e = id) := by
  unfold BuilderWorld.deleteImage
  rw [List.mem_filter, decide_eq_true_eq]

theorem invariant_deleteImage {provider : String} {id : Option String}
    (h : ImageInvariant w) : ImageInvariant (w.deleteImage provider id) where
  known := h.known
  uploading := h.uploading
  images p e he := h.images p e (mem_deleteImage.mp he).1
  unfinished := h.unfinished

theorem lasts_deleteImage {provider : String} {id : Option String} :
    Lasts w (w.deleteImage provider id) where
  known _ hp := hp
  finished _ hp := hp
  images _ _ _ he := (mem_deleteImage.mp he).1
  ready _ _ _ hd _ := hd

theorem readUpload_deleteUpload (h : (w.deleteUpload q).readUpload p = some data) :
    p ≠ q ∧ w.readUpload p = some data := by
  unfold readUpload BuilderWorld.deleteUpload at h
  by_cases e : p = q
  · subst e
    rw [AList.lookup_erase] at h
    cases h
  · rw [AList.lookup_erase_ne e] at h
    exact ⟨e, h⟩

theorem invariant_deleteUpload (h : ImageInvariant w) (finished : Finished w q)
    (gone : NoImage w q) : ImageInvariant (w.deleteUpload q) where
  known p hp := h.known p (AList.mem_erase.mp hp).2
  uploading i p hu := by
    obtain ⟨held, stored, state⟩ := h.uploading i p hu
    have ne : p ≠ q := by
      rintro rfl
      exact finished.2 i hu
    exact ⟨held, AList.mem_erase.mpr ⟨ne, stored⟩,
      fun data hd => state data (readUpload_deleteUpload hd).2⟩
  images p e he := by
    refine (h.images p e he).imp_right fun ⟨truthy, data, hd, id⟩ => ⟨truthy, data, ?_, id⟩
    have ne : p ≠ q := fun same => gone _ he same
    unfold readUpload BuilderWorld.deleteUpload
    rw [AList.lookup_erase_ne ne]
    exact hd
  unfinished p data hd := h.unfinished p data (readUpload_deleteUpload hd).2

theorem lasts_deleteUpload : Lasts w (w.deleteUpload q) where
  known _ hp := hp
  finished _ hp := hp
  images _ _ _ he := he
  ready _ _ _ hd _ := (readUpload_deleteUpload hd).2

/-- Marking an upload does not lose the external id of an image. -/
theorem keeps_of_req (h : ImageInvariant w) (hreq : Req i w (.setUploadRecord upload))
    (hok : upload.externalId = none → ∀ stored ∈ w.readUpload upload.path,
      stored.externalId = none) (he : (upload.path, e) ∈ w.images) :
    upload.externalId = some e := by
  obtain ⟨-, finished, none | ⟨names, -⟩⟩ := hreq
  · exact absurd rfl (noImage_of_none h finished (hok none) _ he)
  · exact (names e he).2

/-- An upload worker stores the external id of each image. -/
theorem names_of_req (hreq : Req i w (.setImageUpload p data))
    (hok : data.state = .failed → NoImage w p) (he : (p, e) ∈ w.images) :
    e ≠ "" ∧ data.externalId = some e := by
  obtain ⟨-, failed | ⟨-, names⟩⟩ := hreq
  · exact absurd rfl (hok failed _ he)
  · exact names e he

/-- A build is deleted without uploads. -/
theorem apart_deleteBuild {image buildId : String} (none : w.uploadsOf (image, buildId) = []) :
    Apart w (w.deleteBuild (image, buildId)) := by
  unfold BuilderWorld.deleteBuild
  rw [none]
  exact ⟨rfl, rfl, rfl, rfl, rfl⟩

theorem apart_deleteUploads {image buildId : String} {paths : List UploadPath}
    (none : w.uploadsOf (image, buildId) = [])
    (below : paths.Sublist (w.uploadsOf (image, buildId))) : Apart w (w.deleteUploads paths) := by
  rw [none] at below
  obtain rfl := List.sublist_nil.mp below
  exact ⟨rfl, rfl, rfl, rfl, rfl⟩

theorem invariant_stepped {c : Call} {r : LauncherSig.Reply c} (h : ImageInvariant w)
    (hreq : Req i w c) (hok : Tidy w (.call i c r)) (hs : Stepped i w c w') :
    ImageInvariant w' := by
  have apart : ∀ {w'}, Apart w w' → ImageInvariant w' := fun apart => apart.invariant h
  cases hs with
  | same c => exact h
  | check image buildId build read => exact apart ⟨rfl, rfl, rfl, rfl, rfl⟩
  | touch image buildId provider => exact apart ⟨rfl, rfl, rfl, rfl, rfl⟩
  | acquire image buildId provider free => exact invariant_acquire h free
  | release image buildId provider released => exact invariant_release h released hok
  | create image buildId provider data started => exact invariant_create h hreq started
  | addImage name filename metadata externalId => exact invariant_addImage h
  | finish p data =>
      have state : data.state ≠ .uploading := by
        rcases hreq.2 with failed | ⟨ready, -⟩ <;> simp [*]
      exact invariant_finish h hreq.1 state fun e he => names_of_req hreq hok he
  | touchNumber p => exact invariant_touchUpload h hreq
  | touchBuildId image buildId => exact apart ⟨rfl, rfl, rfl, rfl, rfl⟩
  | setUpload upload =>
      exact invariant_setUpload h hreq.2.1 hreq.1 fun e he => keeps_of_req h hreq hok he
  | setBuild image data => exact apart apart_setBuild
  | deleteImage provider name externalId => exact invariant_deleteImage h
  | deleteUpload p => exact invariant_deleteUpload h hreq.1 hreq.2
  | deleteUploads image buildId paths below => exact apart (apart_deleteUploads hok below)
  | deleteBuild image buildId => exact apart (apart_deleteBuild hok)

theorem lasts_stepped {c : Call} {r : LauncherSig.Reply c} (hreq : Req i w c)
    (hok : Tidy w (.call i c r)) (hs : Stepped i w c w') : Lasts w w' := by
  have apart : ∀ {w'}, Apart w w' → Lasts w w' := fun apart => apart.lasts
  cases hs with
  | same c => exact .refl w
  | check image buildId build read => exact apart ⟨rfl, rfl, rfl, rfl, rfl⟩
  | touch image buildId provider => exact apart ⟨rfl, rfl, rfl, rfl, rfl⟩
  | acquire image buildId provider free =>
      exact ⟨fun _ h => h, fun _ h => h, fun _ _ _ h => h, fun _ _ _ h _ => h⟩
  | release image buildId provider released =>
      exact ⟨fun _ h => h, fun p hp => ⟨hp.1, fun j hu => hp.2 j (uploading_of_update hu).2⟩,
        fun _ _ _ h => h, fun _ _ _ h _ => h⟩
  | create image buildId provider data started =>
      refine lasts_create fun p hp => ?_
      split at hp
      · exact (Option.mem_some.mp hp).symm
      · cases hp
  | addImage name filename metadata externalId => exact lasts_addImage
  | finish p data => exact lasts_finish hreq.1
  | touchNumber p => exact lasts_touchUpload
  | touchBuildId image buildId => exact apart ⟨rfl, rfl, rfl, rfl, rfl⟩
  | setUpload upload => exact lasts_setUpload hreq.1
  | setBuild image data => exact apart apart_setBuild
  | deleteImage provider name externalId => exact lasts_deleteImage
  | deleteUpload p => exact lasts_deleteUpload
  | deleteUploads image buildId paths below => exact apart (apart_deleteUploads hok below)
  | deleteBuild image buildId => exact apart (apart_deleteBuild hok)

theorem beside_stepped {c : Call} {r : LauncherSig.Reply c} (hij : j ≠ i) (h : ImageInvariant w)
    (hreq : Req i w c) (hok : Tidy w (.call i c r)) (hs : Stepped i w c w') : Beside j w w' := by
  refine ⟨lasts_stepped hreq hok hs, ?_, fun key hl => ?_, fun p hp e he => ?_⟩
  · cases hs with
    | release image buildId provider released => exact Function.update_of_ne hij _ _
    | create image buildId provider data started => exact Function.update_of_ne hij _ _
    | finish p data =>
        exact (Function.update_of_ne hij _ _).trans (congrFun setUpload_uploading j)
    | setUpload upload => exact congrFun setUpload_uploading j
    | setBuild image data => exact congrFun apart_setBuild.uploading j
    | _ => rfl
  · cases hs with
    | acquire image buildId provider free =>
        have ne : key ≠ ⟨image, buildId, provider⟩ := by
          rintro rfl
          rw [free] at hl
          cases hl
        exact (Function.update_of_ne ne _ _).trans hl
    | release image buildId provider released =>
        unfold BuilderWorld.release
        dsimp only
        split
        · rename_i mine
          have ne : key ≠ ⟨image, buildId, provider⟩ := by
            rintro rfl
            rw [mine.2] at hl
            exact hij (Option.some.inj hl).symm
          exact (Function.update_of_ne ne _ _).trans hl
        · exact hl
    | finish p data => exact (congrFun setUpload_lock key).trans hl
    | setUpload upload => exact (congrFun setUpload_lock key).trans hl
    | setBuild image data => exact (congrFun apart_setBuild.lock key).trans hl
    | _ => exact hl
  · cases hs with
    | addImage name filename metadata externalId =>
        exact (images_addImage he).resolve_left fun new => hij (uploading_unique h hp new.1)
    | deleteImage provider name externalId => exact (mem_deleteImage.mp he).1
    | finish p data =>
        rw [← setUpload_images]
        exact he
    | setUpload upload =>
        rw [← setUpload_images]
        exact he
    | setBuild image data => exact apart_setBuild.images ▸ he
    | _ => exact he

/-! ### The cleanup worker -/

abbrev context (i : BuilderThread) : Context LauncherSig BuilderWorld :=
  builderSystem.context Tidy ImageInvariant (Beside i) (Req i) i

theorem lasting {B : BuilderWorld → Prop} (h : ∀ {w w'}, B w → Lasts w w' → B w') :
    Lasting (context i) B where
  rely hB hr _ := h hB hr.toLasts
  step hB _ hreq hs _ := h hB (lasts_stepped hreq hs.2 (BuilderSystem.next_stepped hs.1))

theorem lasting_seen : Lasting (context i) fun w => Seen w upload :=
  lasting fun h hl => hl.seen h

theorem lasting_finished : Lasting (context i) fun w => Finished w p :=
  lasting fun h hl => hl.finished _ h

theorem lasting_names :
    Lasting (context i) fun w => Finished w upload.path ∧ Names w upload :=
  lasting fun h hl => ⟨hl.finished _ h.1, fun e he => h.2 e (hl.images _ h.1 e he)⟩

theorem lasting_noImage : Lasting (context i) fun w => Finished w p ∧ NoImage w p :=
  lasting fun h hl => ⟨hl.finished _ h.1, fun ⟨q, e⟩ he same => by
    have same : q = p := same
    subst same
    exact h.2 _ (hl.images q h.1 e he) rfl⟩

variable {σ α : Type} {s : σ}

/-- The method respects what the others rely on. -/
def Safe (i : BuilderThread) (m : LauncherM σ α) : Prop := Keeps (context i) (fun _ _ => True) m

theorem req_of_sparing {c : Call} (hc : BuilderCleanup.Sparing c) : Req i w c := by
  unfold Req
  split
  · exact hc.elim
  · exact hc.elim
  · exact hc.elim
  · exact hc.elim
  · exact hc.elim
  · trivial

theorem Safe.of_spares {m : LauncherM σ α} (h : BuilderCleanup.Spares m) : Safe i m := by
  intro s w _
  have stable : Stable (context i) BuilderCleanup.Sparing fun _ => True :=
    ⟨fun _ _ _ => trivial, fun hc _ _ => req_of_sparing hc, fun _ _ _ _ _ => trivial⟩
  exact wp_mono (h.wp stable trivial) (fun _ _ _ _ => trivial) fun _ _ _ _ => trivial

/-- A method, and what lasts meanwhile. -/
theorem Safe.wp {m : LauncherM σ α} (h : Safe i m) {B : BuilderWorld → Prop}
    (lasting : Lasting (context i) B) (hB : B w) :
    m.wp (context i) (fun _ _ => B) (fun _ _ => B) s w :=
  wp_mono (lasting.wp (h s w trivial) hB) (fun _ _ _ h => h.2) fun _ _ _ h => h.2

theorem safe_call {c : Call} (hc : BuilderCleanup.Sparing c) : Safe i (call (σ := σ) c) :=
  .of_spares (.perform hc)

/-- The records that are read, as they are stored at the time. -/
theorem getUploadRecords_wp {image buildId provider : String}
    {states : Option (List UploadState)} :
    (ZooKeeper.getUploadRecords image buildId provider states : LauncherM σ _).wp (context i)
      (fun uploads _ w => ∀ upload ∈ uploads, Seen w upload) (fun _ _ _ => True) s w := by
  refine wp_bind.mpr (wp_mono (safe_call (c := .getUploadNumbers image buildId provider) trivial s w
    trivial) (fun numbers s w _ => ?_) fun _ _ _ _ => trivial)
  refine Lasting.wp_gather (C := fun upload w => Seen w upload) (fun _ => lasting_seen)
    fun number s w => ?_
  refine wp_bind.mpr (Method.wp_call (P := fun _ => True) (fun _ _ _ => trivial) trivial
    (fun _ _ _ => trivial) ?_ fun _ _ _ _ _ _ _ => trivial)
  intro data w₁ w₂ _ hi hs _ upload hu
  have mem : w₂ ∈ w₁.next i (.getUploadRecord ⟨image, buildId, provider, number⟩) (.ok data) := hs.1
  rw [BuilderWorld.next_getUploadRecord_ok] at mem
  split at mem
  · rename_i read
    obtain rfl := List.mem_singleton.mp mem
    have found : data = some upload := Option.mem_toList.mp (List.mem_of_mem_filter hu)
    rw [found] at read
    refine seen_of_read hi ?_
    rw [read.2 upload rfl]
    exact read.1.symm
  · cases mem

/-- An upload whose lock is free is not in progress. -/
theorem inProgressUpload_wp (h : Seen w upload) :
    (BuilderCleanup.inProgressUpload upload : LauncherM σ Bool).wp (context i)
      (fun b _ w => Seen w upload ∧ (b = false → Finished w upload.path)) (fun _ _ _ => True)
      s w := by
  have test : (BuilderCleanup.inProgressUpload upload : LauncherM σ Bool).wp (context i)
      (fun b _ w => b = false → Finished w upload.path) (fun _ _ _ => True) s w := by
    unfold BuilderCleanup.inProgressUpload
    split
    · rename_i state
      exact fun _ => (h.finished state).1
    · refine wp_tryCatch.mpr (wp_bind.mpr (Method.wp_call (P := fun w => Seen w upload)
        lasting_seen.rely h (fun _ _ _ => trivial) ?_ fun e _ _ _ _ _ _ => ?_))
      · intro acquired w₁ w₂ h₁ hi hs _
        have mem : w₂ ∈ w₁.next i
          (.acquireUploadLock upload.path.image upload.path.buildId upload.path.provider)
          (.ok acquired) := hs.1
        cases acquired with
        | false => exact fun hb => absurd hb (by decide)
        | true =>
            rw [BuilderWorld.next_acquireUploadLock_true] at mem
            split at mem
            · rename_i free
              obtain rfl := List.mem_singleton.mp mem
              refine wp_bind.mpr (wp_pure.mpr (wp_bind.mpr (wp_attempt.mpr (wp_pure.mpr ?_))))
              have finished : Finished w₁ upload.path := by
                refine ⟨h₁.known, fun j hu => ?_⟩
                have held := (hi.uploading j _ hu).1
                change w₁.lock ⟨upload.path.image, upload.path.buildId, upload.path.provider⟩ = _
                  at held
                rw [free] at held
                cases held
              refine wp_bind.mpr (wp_mono ((safe_call (c := .releaseUploadLock upload.path.image
                upload.path.buildId upload.path.provider) trivial).wp lasting_finished finished)
                (fun _ _ _ h _ => h) fun e _ _ _ => ?_)
              dsimp only
              split
              · exact fun hb => absurd hb (by decide)
              · trivial
            · cases mem
      · dsimp only
        split
        · exact fun hb => absurd hb (by decide)
        · trivial
  exact wp_mono (lasting_seen.wp test h) (fun _ _ _ h => h.symm) fun _ _ _ _ => trivial

theorem deleteUpload_wp (h : Finished w p ∧ NoImage w p) :
    (ZooKeeper.deleteUpload p : LauncherM σ Unit).wp (context i) (fun _ _ _ => True)
      (fun _ _ _ => True) s w := by
  refine wp_tryCatch.mpr (Method.wp_call (P := fun w => Finished w p ∧ NoImage w p)
    lasting_noImage.rely h (fun _ h _ => h) (fun _ _ _ _ _ _ _ => trivial)
    fun e _ _ _ _ _ _ => ?_)
  dsimp only
  split <;> trivial

/-- What is done under the lock of the number of an upload that is known. -/
theorem imageUploadNumberLock_wp {body : LauncherM σ α} {B : BuilderWorld → Prop}
    {Q : α → BuilderWorld → Prop} (hB : Lasting (context i) B)
    (hQ : ∀ a, Lasting (context i) (Q a)) (known : ∀ {w}, B w → Known w p)
    (hbody : ∀ s w, B w →
      body.wp (context i) (fun a _ => Q a) (fun _ _ _ => True) s w) (h : B w) :
    (imageUploadNumberLock p body).wp (context i) (fun a _ => Q a) (fun _ _ _ => True) s w := by
  refine wp_bind.mpr (Method.wp_call (P := B) hB.rely h (fun _ h _ => known h) ?_
    fun _ _ _ _ _ _ _ => trivial)
  intro acquired w₁ w₂ h₁ hi hs hi'
  have h₂ : B w₂ := hB.step (c := .acquireNumberLock p) h₁ hi (known h₁) hs hi'
  refine wp_bind.mpr ?_
  cases acquired with
  | false => trivial
  | true =>
      refine wp_pure.mpr (wp_bind.mpr (wp_attempt.mpr (wp_mono (hbody _ _ h₂)
        (fun a s w h => ?_) fun e s w _ => ?_)))
      · exact wp_bind.mpr (wp_mono ((safe_call (c := .releaseNumberLock p) trivial).wp (hQ a) h)
          (fun _ _ _ h => h) fun _ _ _ _ => trivial)
      · exact wp_bind.mpr (wp_mono (safe_call (c := .releaseNumberLock p) trivial s w trivial)
          (fun _ _ _ _ => trivial) fun _ _ _ _ => trivial)

/-- The record is removed after the image that it names. -/
theorem removeUpload_wp {config : BuilderConfig} (h : Finished w upload.path ∧ Names w upload) :
    (BuilderCleanup.removeUpload config upload : LauncherM σ Unit).wp (context i)
      (fun _ _ _ => True) (fun _ _ _ => True) s w := by
  have image : ∀ s w, Finished w upload.path ∧ Names w upload →
      (when (truthy upload.externalId) (call (.deleteExternalImage upload.path.provider
        upload.externalName upload.externalId)) : LauncherM σ Unit).wp (context i)
        (fun _ _ w => Finished w upload.path ∧ NoImage w upload.path) (fun _ _ _ => True) s w := by
    intro s w h
    unfold when
    split
    · refine Method.wp_call (P := fun w => Finished w upload.path ∧ Names w upload)
        lasting_names.rely h (fun _ _ _ => trivial) ?_ fun _ _ _ _ _ _ _ => trivial
      intro _ w₁ w₂ h₁ _ hs _
      obtain rfl := List.mem_singleton.mp hs.1
      refine ⟨h₁.1, fun image he same => ?_⟩
      obtain ⟨stored, kept⟩ := mem_deleteImage.mp he
      exact kept ⟨congrArg UploadPath.provider same, (h₁.2 image.2 (same ▸ stored)).2.symm⟩
    · rename_i empty
      refine ⟨h.1, fun image he same => ?_⟩
      obtain ⟨ne, id⟩ := h.2 image.2 (same ▸ he)
      rw [id] at empty
      exact empty (decide_eq_true ne)
  refine wp_bind.mpr ?_
  unfold raiseUnless
  split
  · refine wp_pure.mpr (wp_bind.mpr (wp_attempt.mpr (wp_mono (image s w h) (fun _ s w h => ?_)
      fun _ s w _ => ?_)))
    · refine wp_tryCatch.mpr (wp_mono (imageUploadNumberLock_wp lasting_noImage
        (Q := fun _ _ => True) (fun _ => ⟨fun _ _ _ => trivial, fun _ _ _ _ _ => trivial⟩)
        (fun h => h.1.1) (fun s w h => deleteUpload_wp h) h) (fun _ _ _ _ => trivial)
        fun e s w _ => ?_)
      dsimp only
      split
      · exact safe_call (c := .log "Unable to get lock on image upload") trivial s w trivial
      · trivial
    · exact safe_call (c := .log "Unable to delete image") trivial s w trivial
  · trivial

/-- An upload is marked with what was read, if it was not completed in the meantime. -/
theorem markUpload_wp (h : Seen w upload) (finished : Finished w upload.path) :
    (BuilderCleanup.markUpload upload : LauncherM σ Unit).wp (context i)
      (fun _ _ w => Finished w upload.path ∧ Names w upload) (fun _ _ _ => True) s w := by
  have both : Lasting (context i) fun w => Seen w upload ∧ Finished w upload.path :=
    lasting fun h hl => ⟨hl.seen h.1, hl.finished _ h.2⟩
  refine imageUploadNumberLock_wp both (fun _ => lasting_names) (fun h => h.1.known)
    (fun s w h => ?_) ⟨h, finished⟩
  refine wp_bind.mpr (wp_mono ((safe_call (c := .time) trivial).wp both h) (fun now s w h => ?_)
    fun _ _ _ _ => trivial)
  refine wp_bind.mpr (wp_mono ((safe_call (c := .buildsExist upload.path.image) trivial).wp both h)
    (fun exist s w h => ?_) fun _ _ _ _ => trivial)
  have raise : ∀ b, BuilderCleanup.Spares (raiseUnless (σ := σ) b .other) :=
    fun _ => raiseUnless_within _ _
  refine wp_bind.mpr (wp_mono ((Safe.of_spares (raise exist)).wp both h) (fun _ s w h => ?_)
    fun _ _ _ _ => trivial)
  refine Method.wp_call (P := fun w => Seen w upload ∧ Finished w upload.path) both.rely h
    (fun w h _ => ?_) ?_ fun _ _ _ _ _ _ _ => trivial
  · refine ⟨rfl, h.2, ?_⟩
    by_cases state : upload.state = .uploading
    · exact Or.inl (h.1.uploading state)
    · exact Or.inr (h.1.finished state).2
  · intro _ w₁ w₂ h₁ _ hs hi
    have mem : w₂ ∈ w₁.next i
      (.setUploadRecord { upload with state := .deleting, stateTime := now }) (.ok ()) := hs.1
    rw [BuilderWorld.next_setUploadRecord_ok] at mem
    split at mem
    · rename_i stored
      obtain rfl := List.mem_singleton.mp mem
      have lasts : Lasts w₁ (w₁.setUpload upload.path
          { upload.toImageUpload with state := .deleting }) := lasts_setUpload rfl
      refine ⟨lasts.finished _ h₁.2, fun e he => ?_⟩
      by_cases state : upload.state = .uploading
      · have none := noImage_of_none hi (lasts.finished _ h₁.2) fun data hd => by
          rw [readUpload_setUpload_self stored] at hd
          cases hd
          exact h₁.1.uploading state
        exact absurd rfl (none _ he)
      · exact (h₁.1.finished state).2.1 e (setUpload_images ▸ he)
    · cases mem

theorem deleteUploadAndImage_wp {config : BuilderConfig} (h : Seen w upload) :
    (BuilderCleanup.deleteUploadAndImage config upload : LauncherM σ Unit).wp (context i)
      (fun _ _ _ => True) (fun _ _ _ => True) s w := by
  unfold BuilderCleanup.deleteUploadAndImage
  split
  · rename_i deleting
    obtain ⟨finished, names, -⟩ := h.finished (by simp [deleting])
    exact removeUpload_wp ⟨finished, names⟩
  · refine wp_bind.mpr (wp_mono (inProgressUpload_wp h) (fun inProgress s w h => ?_)
      fun _ _ _ _ => trivial)
    cases inProgress with
    | true => trivial
    | false =>
        refine wp_bind.mpr (wp_attempt.mpr (wp_mono (markUpload_wp h.1 (h.2 rfl))
          (fun _ s w h => ?_) fun e s w _ => ?_))
        · change Finished w { upload with state := UploadState.deleting }.path ∧
            Names w { upload with state := .deleting } at h
          exact removeUpload_wp h
        · split
          · exact safe_call (c := .log "Unable to get lock on image upload") trivial s w trivial
          · trivial
          · contradiction

/-- An upload that is still UPLOADING, and not in progress, has no image. -/
theorem removeFailedUpload_wp (h : Seen w upload ∧ Finished w upload.path)
    (state : upload.state = .uploading) :
    (BuilderCleanup.removeFailedUpload upload : LauncherM σ Unit).wp (context i)
      (fun _ _ _ => True) (fun _ _ _ => True) s w := by
  refine wp_bind.mpr (Method.wp_call (P := fun w => Finished w upload.path) lasting_finished.rely
    h.2 (fun _ _ _ => trivial) ?_ fun _ _ _ _ _ _ _ => trivial)
  intro stored w₁ w₂ h₁ hi hs _
  have mem : w₂ ∈ w₁.next i (.getUploadRecord upload.path) (.ok stored) := hs.1
  rw [BuilderWorld.next_getUploadRecord_ok] at mem
  split at mem
  · rename_i read
    obtain rfl := List.mem_singleton.mp mem
    cases stored with
    | none =>
      exact safe_call (c := .log "Ignoring invalid or empty image upload") trivial _ _ trivial
    | some stored =>
        dsimp only
        unfold when
        split
        · rename_i same
          refine deleteUpload_wp ⟨h₁, noImage_of_none hi h₁ fun data hd => ?_⟩
          have found : w₂.readUpload upload.path = some stored.toImageUpload := read.1.symm
          have id := hi.unfinished _ _ found (same.trans state)
          rw [found] at hd
          cases hd
          exact id
        · trivial
  · cases mem

theorem cleanupCurrentUpload_wp {config : BuilderConfig} (h : Seen w upload) :
    (BuilderCleanup.cleanupCurrentUpload config upload : LauncherM σ Unit).wp (context i)
      (fun _ _ _ => True) (fun _ _ _ => True) s w := by
  unfold BuilderCleanup.cleanupCurrentUpload
  split
  · rename_i state
    refine wp_bind.mpr (wp_mono (inProgressUpload_wp h) (fun inProgress s w h => ?_)
      fun _ _ _ _ => trivial)
    cases inProgress with
    | true => trivial
    | false => exact removeFailedUpload_wp ⟨h.1, h.2 rfl⟩ state
  · exact deleteUploadAndImage_wp h
  · exact deleteUploadAndImage_wp h
  · trivial

/-- A loop over the uploads of a build that a provider has. -/
theorem safe_uploads {image buildId provider : String} {states : Option (List UploadState)}
    {f : UploadRecord → LauncherM σ Unit} (hf : ∀ upload s w, Seen w upload →
      (f upload).wp (context i) (fun _ _ _ => True) (fun _ _ _ => True) s w) :
    Safe i (ZooKeeper.getUploadRecords image buildId provider states >>= fun uploads =>
      forEach uploads f) := fun _ _ _ =>
  wp_bind.mpr (wp_mono getUploadRecords_wp
    (fun _ _ _ h => Lasting.wp_forEach (fun _ => lasting_seen) hf h) fun _ _ _ _ => trivial)

theorem safe_forEachManaged {config : BuilderConfig} {body : BuilderProvider → LauncherM σ Unit}
    (h : ∀ provider, Safe i (body provider)) :
    Safe i (BuilderCleanup.forEachManaged config body) :=
  .forEach (fun provider => .ite (.tryCatch (h provider) fun _ =>
    safe_call (c := .log "Exception cleaning up uploads of build") trivial) .pure) config.providers

theorem safe_cleanupOldBuild {config : BuilderConfig} {table : RecencyTable} {image : String}
    {build : BuildRecord} :
    Safe (σ := σ) i (BuilderCleanup.cleanupOldBuild config table image build) := by
  have uploads : ∀ provider : BuilderProvider, Safe (σ := σ) i
      (BuilderCleanup.cleanupProvider config table provider image build.id) := fun provider =>
    safe_uploads fun upload s w h => wp_bind.mpr (wp_mono
      ((Safe.of_spares BuilderCleanup.isRecentUpload_spares).wp lasting_seen h)
      (fun recent s w h => by
        split
        · trivial
        · exact deleteUploadAndImage_wp h) fun _ _ _ _ => trivial)
  exact .bind (safe_forEachManaged uploads) fun _ =>
    Safe.of_spares BuilderCleanup.deleteOldBuild_spares

theorem safe_cleanupBuild {config : BuilderConfig} {table : RecencyTable} {keep : List String}
    {image : String} {build : Option BuildRecord} :
    Safe (σ := σ) i (BuilderCleanup.cleanupBuild config table keep image build) := by
  cases build with
  | none => exact .throw
  | some build =>
      refine .bind (safe_forEachManaged fun provider => .bind (.ite (safe_uploads
        fun _ _ _ => deleteUploadAndImage_wp) .pure) fun _ => .ite (safe_uploads
          fun _ _ _ => cleanupCurrentUpload_wp) .pure) fun _ => ?_
      exact .ite safe_cleanupOldBuild (.ite .pure (.bind
        (Safe.of_spares BuilderCleanup.inProgressBuild_spares) fun _ =>
          .ite .pure safe_cleanupOldBuild))

theorem safe_cleanup {config : BuilderConfig} :
    Safe (σ := σ) i (BuilderCleanup.cleanup config) := by
  have image : ∀ table image, Safe (σ := σ) i (BuilderCleanup.cleanupImage config table image) :=
    fun table image => .bind (Safe.of_spares BuilderCleanup.getBuilds_spares) fun builds =>
      .bind (.ite .pure (.ite .throw .pure)) fun keep =>
        .forEach (fun _ => safe_cleanupBuild) builds
  exact .bind (safe_call (c := .getImageNames) trivial) fun images =>
    .bind (Safe.of_spares BuilderCleanup.buildUploadRecencyTable_spares) fun table =>
      .bind (.forEach (fun name => .tryCatch (image table name) fun _ =>
        safe_call (c := .log "Exception cleaning up image") trivial) images) fun _ =>
        .bind (safe_call (c := .getLocalBuilds) trivial) fun localBuilds =>
          .forEach (fun _ => Safe.of_spares BuilderCleanup.cleanupLocalBuild_spares) localBuilds

/-! ### The upload worker -/

/-- The calls of an upload worker that change nothing that matters here. -/
def Plain : Call → Prop
  | .getMostRecentBuilds _ | .localImages _ _ | .getMostRecentBuildImageUploads _ _ _
  | .getBuild _ _ | .buildsExist _ | .time | .log _ | .postUploadHook _ | .deleteImage _ => True
  | _ => False

theorem req_of_plain {c : Call} (hc : Plain c) : Req i w c := by
  unfold Req
  split
  · exact hc.elim
  · exact hc.elim
  · exact hc.elim
  · exact hc.elim
  · exact hc.elim
  · trivial

theorem beside_of_plain {c : Call} (hc : Plain c) (hs : Stepped i w c w') : Beside i w w' := by
  cases hs with
  | same c => exact .refl i w
  | check image buildId build read =>
      refine ⟨Apart.lasts ?_, rfl, fun _ h => h, fun _ _ _ h => h⟩
      exact ⟨rfl, rfl, rfl, rfl, rfl⟩
  | _ => exact hc.elim

theorem stable_plain {B : BuilderWorld → Prop} (h : ∀ {w w'}, B w → Beside i w w' → B w') :
    Stable (context i) Plain B where
  rely hB hr _ := h hB hr
  req hc _ _ := req_of_plain hc
  step hc hB _ hs _ := h hB (beside_of_plain hc (BuilderSystem.next_stepped hs.1))

/-- The worker is not busy with an upload. -/
def Idle (i : BuilderThread) (w : BuilderWorld) : Prop := w.uploading i = none

/-- The worker holds the lock, and has created no record. -/
def Held (i : BuilderThread) (key : UploadLockKey) (w : BuilderWorld) : Prop :=
  w.lock key = some i ∧ w.uploading i = none

/-- The worker is busy with an upload, all images of which satisfy `R`. -/
def Busy (i : BuilderThread) (p : UploadPath) (R : String → Prop) (w : BuilderWorld) : Prop :=
  w.uploading i = some p ∧ ∀ e, (p, e) ∈ w.images → R e

theorem Idle.beside (h : Idle i w) (hb : Beside i w w') : Idle i w' := hb.uploading.trans h

theorem Held.beside {key : UploadLockKey} (h : Held i key w) (hb : Beside i w w') :
    Held i key w' :=
  ⟨hb.lock key h.1, hb.uploading.trans h.2⟩

theorem Busy.beside {R : String → Prop} (h : Busy i p R w) (hb : Beside i w w') : Busy i p R w' :=
  ⟨hb.uploading.trans h.1, fun e he => h.2 e (hb.own p h.1 e he)⟩

/-- Plain calls before the rest of a method. -/
theorem plain_bind_wp {β : Type} {m : LauncherM σ α} (within : Within Plain (fun s => s) m)
    {f : α → LauncherM σ β} {B : BuilderWorld → Prop}
    (stable : ∀ {w w'}, B w → Beside i w w' → B w') {Q : β → σ → BuilderWorld → Prop}
    {E : Err → σ → BuilderWorld → Prop} (raised : ∀ e s w, B w → E e s w)
    (hf : ∀ v s w, B w → (f v).wp (context i) Q E s w) (h : B w) :
    (m >>= f).wp (context i) Q E s w :=
  wp_bind.mpr (wp_mono (within.wp (stable_plain stable) h) (fun v s w h => hf v s w h.2)
    fun e s w h => raised e s w h.2)

theorem createImageUpload_wp {image buildId provider : String} (state : data.state = .uploading)
    (id : data.externalId = none) (h : Held i ⟨image, buildId, provider⟩ w) :
    (ZooKeeper.createImageUpload image buildId provider data : LauncherM σ String).wp (context i)
      (fun number _ w => Busy i ⟨image, buildId, provider, number⟩ (fun _ => False) w)
      (fun _ _ _ => True) s w := by
  have exist : Within Plain (fun s : σ => s) (call (.buildsExist image)) := .perform trivial
  refine plain_bind_wp exist Held.beside (fun _ _ _ _ => trivial) (fun exist s w h => ?_) h
  refine plain_bind_wp (raiseUnless_within _ _) Held.beside (fun _ _ _ _ => trivial)
    (fun _ s w h => ?_) h
  refine Method.wp_call (P := Held i ⟨image, buildId, provider⟩) (fun h hr _ => h.beside hr) h
    (fun w h _ => ⟨h.1, h.2, state, id⟩) ?_ fun _ _ _ _ _ _ _ => trivial
  intro number w₁ w₂ h₁ hi hs _
  have mem : w₂ ∈ w₁.next i (.createImageUpload image buildId provider data) (.ok number) := hs.1
  rw [BuilderWorld.next_createImageUpload_ok] at mem
  split at mem
  · rename_i next
    obtain rfl := List.mem_singleton.mp mem
    subst next
    exact ⟨Function.update_self _ _ _, fun e he => (known_of_image hi he).ne_next rfl⟩
  · cases mem

/-- What an upload worker is about to store about the images of its upload. -/
def Outcome (data : ImageUpload) (e : String) : Prop :=
  data.state = .failed ∨ data.state = .ready ∧ e ≠ "" ∧ data.externalId = some e

theorem Busy.mono {R R' : String → Prop} (h : Busy i p R w) (imp : ∀ e, R e → R' e) :
    Busy i p R' w :=
  ⟨h.1, fun e he => imp e (h.2 e he)⟩

theorem runPostUploadHook_wp {provider : UploadProvider} {name externalId format : String}
    (h : Busy i p (fun e => e ≠ "" ∧ e = externalId) w) :
    (UploadWorker.runPostUploadHook provider name externalId format : LauncherM σ _).wp (context i)
      (fun data _ w => (data.state = .failed ∨ data.state = .ready) ∧ Busy i p (Outcome data) w)
      (fun _ _ _ => True) s w := by
  have hook : Within Plain (fun s : σ => s)
      (attempt (when provider.postUploadHook (call (.postUploadHook externalId)))) :=
    .attempt (.ite (.perform trivial) .pure)
  refine plain_bind_wp hook Busy.beside (fun _ _ _ _ => trivial) (fun hook s w h => ?_) h
  cases hook with
  | ok v =>
      refine ⟨Or.inr rfl, h.mono fun e he => Or.inr ⟨rfl, he.1, ?_⟩⟩
      rw [he.2]
  | error e =>
      have undo : Within Plain (fun s : σ => s) (tryCatch (call (.deleteImage name))
          fun _ => call (.log "Unable to delete image")) :=
        .tryCatch (.perform trivial) fun _ => .perform trivial
      exact plain_bind_wp undo Busy.beside (fun _ _ _ _ => trivial)
        (fun _ s w h => ⟨Or.inl rfl, h.mono fun _ _ => Or.inl rfl⟩) h

/-- The result of `_uploadImage` has the external id of the image, or there may be an image
that is lost. -/
theorem uploadImage_wp {provider : UploadProvider} {images : List String} {s : Unit}
    (h : Busy i p (fun _ => False) w) :
    (UploadWorker.uploadImage .external provider p images).wp (context i)
      (fun data _ w => (data.state = .failed ∨ data.state = .ready) ∧ Busy i p (Outcome data) w)
      (fun _ _ _ => True) s w := by
  have time : Within Plain (fun s : Unit => s) (call .time) := .perform trivial
  have log : Within Plain (fun s : Unit => s)
    (call (.log "Failed to upload build of image to provider")) := .perform trivial
  refine plain_bind_wp (raiseUnless_within _ _) Busy.beside (fun _ _ _ _ => trivial)
    (fun _ s w h => ?_) h
  refine plain_bind_wp time Busy.beside (fun _ _ _ _ => trivial) (fun timestamp s w h => ?_) h
  refine plain_bind_wp (raiseUnless_within _ _) Busy.beside (fun _ _ _ _ => trivial)
    (fun _ s w h => ?_) h
  refine wp_bind.mpr (wp_attempt.mpr (Method.wp_call (P := Busy i p fun _ => False)
    (fun h hr _ => h.beside hr) h (fun _ _ _ => trivial) ?_ ?_))
  · intro externalId w₁ w₂ h₁ _ hs _
    obtain rfl := List.mem_singleton.mp hs.1
    refine runPostUploadHook_wp ⟨h₁.1, fun e he => ?_⟩
    rcases images_addImage he with ⟨-, rfl⟩ | old
    · refine ⟨fun empty => hs.2 ?_, rfl⟩
      rw [empty]
    · exact (h₁.2 e old).elim
  · intro e w₁ w₂ h₁ _ hs _
    have busy : Busy i p (fun _ => True) w₂ := by
      rcases List.mem_pair.mp hs.1 with rfl | rfl
      · exact h₁.mono fun _ _ => trivial
      · exact ⟨h₁.1, fun _ _ => trivial⟩
    exact plain_bind_wp log Busy.beside (fun _ _ _ _ => trivial)
      (fun _ s w h => ⟨Or.inl rfl, h.mono fun _ _ => Or.inl rfl⟩) busy

theorem storeImageUpload_wp (state : data.state = .failed ∨ data.state = .ready)
    (h : Busy i p (Outcome data) w) :
    (ZooKeeper.storeImageUpload p data : LauncherM σ Unit).wp (context i) (fun _ _ _ => True)
      (fun _ _ _ => True) s w := by
  have exist : Within Plain (fun s : σ => s) (call (.buildsExist p.image)) := .perform trivial
  refine plain_bind_wp exist Busy.beside (fun _ _ _ _ => trivial) (fun exist s w h => ?_) h
  refine plain_bind_wp (raiseUnless_within _ _) Busy.beside (fun _ _ _ _ => trivial)
    (fun _ s w h => ?_) h
  refine Method.wp_call (P := Busy i p (Outcome data)) (fun h hr _ => h.beside hr) h
    (fun w h _ => ⟨h.1, state.imp_right fun ready => ⟨ready, fun e he => ?_⟩⟩)
    (fun _ _ _ _ _ _ _ => trivial) fun _ _ _ _ _ _ _ => trivial
  rcases h.2 e he with failed | ⟨-, id⟩
  · rw [ready] at failed
    cases failed
  · exact id

theorem uploadBuild_wp {provider : UploadProvider} {image : String} {build : ImageBuild}
    {images : List String} {s : Unit} (h : Held i ⟨image, build.id, provider.name⟩ w) :
    (UploadWorker.uploadBuild .external provider image build images).wp (context i)
      (fun _ _ _ => True) (fun _ _ _ => True) s w := by
  have uploads : Within Plain (fun s : Unit => s)
    (call (.getMostRecentBuildImageUploads image build.id provider.name)) := .perform trivial
  have getBuild : Within Plain (fun s : Unit => s) (call (.getBuild image build.id)) :=
    .perform trivial
  refine plain_bind_wp uploads Held.beside (fun _ _ _ _ => trivial) (fun uploads s w h => ?_) h
  split
  · trivial
  · refine plain_bind_wp getBuild Held.beside (fun _ _ _ _ => trivial) (fun stored s w h => ?_) h
    split
    · trivial
    · refine wp_bind.mpr (wp_mono (createImageUpload_wp rfl rfl h) (fun number s w h => ?_)
        fun _ _ _ _ => trivial)
      refine wp_bind.mpr (wp_mono (uploadImage_wp h) (fun data s w h => ?_) fun _ _ _ _ => trivial)
      exact wp_bind.mpr (wp_mono (storeImageUpload_wp h.1 h.2) (fun _ _ _ _ => trivial)
        fun _ _ _ _ => trivial)

/-- However the upload ends, the worker is not busy with it any more. -/
theorem withUploadLock_wp {provider : UploadProvider} {image buildId : String}
    {body : LauncherM Unit Bool} {s : Unit}
    (hbody : ∀ s w, Held i ⟨image, buildId, provider.name⟩ w →
      body.wp (context i) (fun _ _ _ => True) (fun _ _ _ => True) s w) (h : Idle i w) :
    (UploadWorker.withUploadLock provider image buildId body).wp (context i)
      (fun _ _ => Idle i) (fun _ _ => Idle i) s w := by
  have release : ∀ {f : Unit → LauncherM Unit Bool} {s : Unit} {w : BuilderWorld},
      (∀ v s w, Idle i w → (f v).wp (context i) (fun _ _ => Idle i) (fun _ _ => Idle i) s w) →
      (call (.releaseUploadLock image buildId provider.name) >>= f).wp (context i)
        (fun _ _ => Idle i) (fun _ _ => Idle i) s w := by
    intro f s w hf
    refine wp_bind.mpr (Method.wp_call (P := fun _ => True) (fun _ _ _ => trivial) trivial
      (fun _ _ _ => trivial) (fun v w₁ w₂ _ _ hs _ => ?_) fun e w₁ w₂ _ _ hs _ => ?_)
    · obtain rfl := List.mem_singleton.mp hs.1
      exact hf v s _ (Function.update_self _ _ _)
    · rcases List.mem_pair.mp hs.1 with rfl | rfl <;> exact Function.update_self _ _ _
  refine wp_bind.mpr (Method.wp_call (P := Idle i) (fun h hr _ => h.beside hr) h
    (fun _ _ _ => trivial) ?_ ?_)
  · intro acquired w₁ w₂ h₁ _ hs _
    have mem : w₂ ∈ w₁.next i (.acquireUploadLock image buildId provider.name) (.ok acquired) :=
      hs.1
    cases acquired with
    | false =>
        obtain rfl := List.mem_singleton.mp mem
        exact h₁
    | true =>
        rw [BuilderWorld.next_acquireUploadLock_true] at mem
        split at mem
        · obtain rfl := List.mem_singleton.mp mem
          refine wp_bind.mpr (wp_pure.mpr (wp_bind.mpr (wp_attempt.mpr (wp_mono
            (hbody s _ ⟨Function.update_self _ _ _, h₁⟩)
            (fun _ _ _ _ => release fun _ _ _ h => h) fun _ _ _ _ => release fun _ _ _ h => h))))
        · cases mem
  · intro e w₁ w₂ h₁ _ hs _
    have mem : w₂ ∈ w₁.next i (.acquireUploadLock image buildId provider.name) (.error e) := hs.1
    rw [BuilderWorld.next_acquireUploadLock_error] at mem
    split at mem
    · rcases List.mem_cons.mp mem with rfl | mem
      · exact h₁
      · rcases List.mem_pair.mp mem with rfl | rfl <;> exact h₁
    · rcases List.mem_pair.mp mem with rfl | rfl <;> exact h₁

theorem checkProviderImageUpload_wp {provider : UploadProvider} {image : String} {s : Unit}
    (h : Idle i w) :
    (UploadWorker.checkProviderImageUpload .external provider image).wp (context i)
      (fun _ _ => Idle i) (fun _ _ => Idle i) s w := by
  have first : ∀ {β : Type} {c : Call} {f : c.Val → LauncherM Unit β} {s : Unit}
      {w : BuilderWorld}, Plain c →
      (∀ v s w, Idle i w → (f v).wp (context i) (fun _ _ => Idle i) (fun _ _ => Idle i) s w) →
      Idle i w → (call c >>= f).wp (context i) (fun _ _ => Idle i) (fun _ _ => Idle i) s w :=
    fun hc hf h => plain_bind_wp (.perform hc) Idle.beside (fun _ _ _ h => h) hf h
  unfold UploadWorker.checkProviderImageUpload
  split
  · exact h
  · refine first trivial (fun builds s w h => ?_) h
    split
    · exact h
    · rename_i build rest
      refine first trivial (fun images s w h => ?_) h
      split
      · exact h
      · refine first trivial (fun upload s w h => ?_) h
        split
        · exact h
        · split
          · exact h
          · refine wp_tryCatch.mpr (wp_mono (withUploadLock_wp (fun s w h => uploadBuild_wp h) h)
              (fun _ _ _ h => h) fun e s w h => ?_)
            dsimp only
            split <;> exact h

/-! ### Runs -/

/-- An idle upload worker is not busy with an upload. -/
def LocalInvariant (w : BuilderWorld) : BuilderThread → Prop
  | .upload n => Idle (.upload n) w
  | .cleanup _ => True

def outline : Outline builderSystem Tidy where
  inv := ImageInvariant
  rely := Beside
  req := Req
  linv i _ w := LocalInvariant w i
  rely_refl := .refl
  rely_trans _ _ _ _ h h' := h.trans h'
  linv_stable i _ _ _ h hr _ := by
    cases i with
    | upload n => exact Idle.beside h hr
    | cleanup n => trivial
  entry i op s w _ henabled _ h := by
    change (op.method.toBody (fun _ s => s) s).wp (context i) (fun _ w => LocalInvariant w i) w
    refine wp_toBody.mpr ?_
    cases i with
    | upload n =>
        cases op with
        | upload provider image =>
            exact wp_bind.mpr (wp_mono (checkProviderImageUpload_wp h) (fun _ _ _ h => h)
              fun _ _ _ h => h)
        | cleanup config => cases henabled
    | cleanup n =>
        cases op with
        | upload provider image => cases henabled
        | cleanup config => exact safe_cleanup s w trivial
  call_inv _ _ _ _ _ h hreq hok hs := invariant_stepped h hreq hok (BuilderSystem.next_stepped hs)
  call_rely _ _ _ _ _ _ hij h hreq hok hs :=
    beside_stepped (Ne.symm hij) h hreq hok (BuilderSystem.next_stepped hs)
  env_inv h henv := by
    cases henv with
    | storeBuild key data =>
        refine Apart.invariant ?_ h
        exact ⟨rfl, rfl, rfl, rfl, rfl⟩
  env_rely _ _ _ _ henv := by
    cases henv with
    | storeBuild key data =>
        refine ⟨Apart.lasts ?_, rfl, fun _ h => h, fun _ _ _ h => h⟩
        exact ⟨rfl, rfl, rfl, rfl, rfl⟩

theorem init_safe (builds : Dict (String × String) (Option ImageBuild)) :
    outline.Safe (BuilderSystem.init builds) := by
  have empty : ∀ {p data}, (BuilderWorld.init builds).readUpload p ≠ some data :=
    fun h => AList.notMem_empty _ (mem_of_readUpload h)
  refine .of_idle ⟨fun p hp => (AList.notMem_empty p hp).elim, fun _ _ h => (nomatch h),
    fun _ _ h => (List.not_mem_nil h).elim, fun p data hd => absurd hd empty⟩
    fun i => ⟨(), rfl, ?_⟩
  cases i with
  | upload n => exact rfl
  | cleanup n => trivial

/-- **Main result.** In every such run an image exists only while its upload is in progress or
the record has its external id; no image exists of an upload whose record is removed; and a
READY record is marked with the external id that it has. -/
theorem records_outlive_images (builds : Dict (String × String) (Option ImageBuild))
    {cfg : Config builderSystem}
    (run : builderSystem.Run Tidy (BuilderSystem.init builds) cfg) :
    (∀ p e, (p, e) ∈ cfg.world.images → (∃ i, cfg.world.uploading i = some p) ∨
      ∃ data, cfg.world.readUpload p = some data ∧ data.externalId = some e) ∧
    (∀ (i : BuilderThread) (p : UploadPath)
      (k : LauncherSig.Reply (.deleteUploadTree p) → Prog LauncherSig Unit),
      cfg.thread i = .call (.deleteUploadTree p) k → NoImage cfg.world p) ∧
    ∀ (i : BuilderThread) (upload : UploadRecord)
      (k : LauncherSig.Reply (.setUploadRecord upload) → Prog LauncherSig Unit),
      cfg.thread i = .call (.setUploadRecord upload) k →
      (∀ r, Tidy cfg.world (.call i (.setUploadRecord upload) r)) →
      ∀ data, cfg.world.readUpload upload.path = some data → data.state = .ready →
        data.externalId = upload.externalId := by
  have safe := outline.sound (init_safe builds) run
  refine ⟨fun p e he => ?_, fun i p k next => ?_, fun i upload k next ok data hd ready => ?_⟩
  · exact (safe.inv.images p e he).imp_right And.right
  · have hreq : Req i cfg.world (.deleteUploadTree p) := safe.req next
    exact hreq.2
  · have hreq : Req i cfg.world (.setUploadRecord upload) := safe.req next
    obtain ⟨-, -, none | ⟨-, agrees⟩⟩ := hreq
    · rw [none]
      exact ok (.ok ()) none data hd
    · exact agrees data hd ready

/-! ### Examples -/

/-- `Tidy`, as a test. -/
def tidy (w : BuilderWorld) : Event builderSystem → Bool
  | .call _ (.setImageUpload p data) _ => decide (data.state = .failed → NoImage w p)
  | .call i (.releaseUploadLock _ _ _) _ => decide (∀ p ∈ w.uploading i, NoImage w p)
  | .call _ (.uploadImage _ _ _) (.ok id) => decide (id ≠ "")
  | .call _ (.setUploadRecord upload) _ => decide (upload.externalId = none →
      ∀ stored ∈ w.readUpload upload.path, stored.externalId = none)
  | .call _ (.deleteBuildTree image buildId) _ => decide (w.uploadsOf (image, buildId) = [])
  | _ => true

theorem tidy_of_tidy {ev : Event builderSystem} (h : tidy w ev = true) : Tidy w ev := by
  unfold Tidy
  split
  · exact of_decide_eq_true h
  · exact of_decide_eq_true h
  · rintro rfl
    exact of_decide_eq_true (p := ("" : String) ≠ "") h rfl
  · exact of_decide_eq_true h
  · exact of_decide_eq_true h
  · trivial

def exampleProvider : UploadProvider where
  name := "azure"
  imageType := "vhd"
  imageNameFormat image number _ := image ++ "-" ++ number
  diskimages := (∅ : Dict _ _).insert "fedora" false
  postUploadHook := false

def exampleBuild : ImageBuild := ⟨"1", .ready, ["vhd"]⟩

def exampleBuilds : Dict (String × String) (Option ImageBuild) :=
  (∅ : Dict _ _).insert ("fedora", "1") (some exampleBuild)

def examplePath : UploadPath := ⟨"fedora", "1", "azure", sequenceName 0⟩

/-- Answers of calls that succeed. -/
def exampleAnswer (w : BuilderWorld) : (c : Call) → LauncherSig.Reply c
  | .getImageNames => .ok ["fedora"]
  | .getBuildIds _ => .ok ["1"]
  | .getBuildRecord image buildId =>
      .ok ((w.readBuild (image, buildId)).map fun build => ⟨build, 0⟩)
  | .getBuildProviders _ _ => .ok []
  | .getUploadNumbers _ _ _ => .ok [sequenceName 0]
  | .getUploadRecord p => .ok ((w.readUpload p).map fun upload => ⟨upload, p, 0⟩)
  | .getMostRecentBuilds _ => .ok [exampleBuild]
  | .localImages _ _ => .ok ["vhd"]
  | .getMostRecentBuildImageUploads _ _ _ => .ok []
  | .acquireUploadLock _ _ _ | .acquireNumberLock _ | .buildsExist _ => .ok true
  | .getBuild image buildId => .ok (w.readBuild (image, buildId))
  | .createImageUpload _ _ _ _ => .ok (sequenceName w.counter)
  | .time => .ok 0
  | .uploadImage name _ _ => .ok name
  | .setImageUpload _ _ | .releaseUploadLock _ _ _ | .releaseNumberLock _
  | .setUploadRecord _ => .ok ()
  | _ => .error .other

/-- One worker uploads a build. -/
def uploadSchedule : List (System.Action builderSystem) :=
  .start (.upload 0) (.upload exampleProvider "fedora") ::
    List.replicate 13 (.respond (.upload 0) exampleAnswer 0)

/-- The provider does not have the image any more. -/
def exampleConfig : BuilderConfig where
  providers := [⟨"azure", true, "vhd", []⟩]
  unique := List.nodup_singleton _
  diskimages := ∅
  managers := ["azure"]

def cleanupAnswer (w : BuilderWorld) : (c : Call) → LauncherSig.Reply c
  | .getBuildProviders _ _ => .ok ["azure"]
  | .deleteExternalImage _ _ _ => .ok ()
  | c => exampleAnswer w c

/-- The cleanup worker comes to mark the upload, -/
def markSchedule : List (System.Action builderSystem) :=
  .start (.cleanup 0) (.cleanup exampleConfig) ::
    List.replicate 14 (.respond (.cleanup 0) cleanupAnswer 0)

/-- and, once the image is deleted, to remove the record. -/
def dropSchedule : List (System.Action builderSystem) :=
  List.replicate 4 (.respond (.cleanup 0) cleanupAnswer 0)

/-- The cleanup worker is about to mark the upload, which is READY. -/
def marks (cfg : Config builderSystem) : Bool :=
  match cfg.thread (.cleanup 0) with
  | .call (.setUploadRecord upload) _ => upload.path = examplePath && upload.externalId.isSome &&
      (cfg.world.readUpload examplePath).any fun data => data.state = .ready
  | _ => false

/-- The cleanup worker is about to remove the record. -/
def drops (cfg : Config builderSystem) : Bool :=
  match cfg.thread (.cleanup 0) with
  | .call (.deleteUploadTree p) _ => p = examplePath
  | _ => false

/-- One worker uploads a build, and another one deletes the upload: the image is recorded, the
record is marked with its external id, and the image is gone when the record is removed. -/
theorem records_outlive_images_cleanupSchedule : ∃ uploaded marked dropped,
    builderSystem.Run Tidy (BuilderSystem.init exampleBuilds) uploaded ∧
      (examplePath, "fedora-" ++ sequenceName 0) ∈ uploaded.world.images ∧
      ((∃ i, uploaded.world.uploading i = some examplePath) ∨
        ∃ data, uploaded.world.readUpload examplePath = some data ∧
          data.externalId = some ("fedora-" ++ sequenceName 0)) ∧
      builderSystem.Run Tidy uploaded marked ∧
      (∃ upload k data, marked.thread (.cleanup 0) = .call (.setUploadRecord upload) k ∧
        marked.world.readUpload examplePath = some data ∧ data.state = .ready ∧
          data.externalId = upload.externalId) ∧
      builderSystem.Run Tidy marked dropped ∧
      (∃ k, dropped.thread (.cleanup 0) = .call (.deleteUploadTree examplePath) k) ∧
        NoImage dropped.world examplePath := by
  have replay : ((System.exec tidy (BuilderSystem.init exampleBuilds) uploadSchedule).any
      fun uploaded => (examplePath, "fedora-" ++ sequenceName 0) ∈ uploaded.world.images &&
        (System.exec tidy uploaded markSchedule).any fun marked =>
          marks marked && (System.exec tidy marked dropSchedule).any drops) = true := by
    decide +kernel
  have allowed : ∀ w ev, tidy w ev = true → Tidy w ev := fun _ _ => tidy_of_tidy
  obtain ⟨uploaded, run, replay⟩ := System.exists_run_of_exec Tidy allowed replay
  obtain ⟨stored, replay⟩ := Bool.and_eq_true_iff.mp replay
  obtain ⟨marked, toMark, replay⟩ := System.exists_run_of_exec Tidy allowed replay
  obtain ⟨marks, replay⟩ := Bool.and_eq_true_iff.mp replay
  obtain ⟨dropped, toDrop, drops⟩ := System.exists_run_of_exec Tidy allowed replay
  have stored := of_decide_eq_true stored
  refine ⟨uploaded, marked, dropped, run, stored,
    (records_outlive_images exampleBuilds run).1 _ _ stored, toMark, ?_, toDrop, ?_⟩
  · unfold UploadImages.marks at marks
    split at marks
    · rename_i upload k next
      obtain ⟨marks, ready⟩ := Bool.and_eq_true_iff.mp marks
      obtain ⟨path, external⟩ := Bool.and_eq_true_iff.mp marks
      obtain ⟨data, hdata, ready⟩ := Option.any_eq_true _ _ |>.mp ready
      have path := of_decide_eq_true path
      have ready := of_decide_eq_true ready
      refine ⟨upload, k, data, next, hdata, ready, ?_⟩
      refine (records_outlive_images exampleBuilds (run.trans toMark)).2.2
        (.cleanup 0) upload k next
        (fun _ none => ?_) data (path ▸ hdata) ready
      rw [none] at external
      cases external
    · cases marks
  · unfold UploadImages.drops at drops
    split at drops
    · rename_i p k next
      obtain rfl := of_decide_eq_true drops
      exact ⟨⟨k, next⟩, (records_outlive_images exampleBuilds
        ((run.trans toMark).trans toDrop)).2.1 (.cleanup 0) _ k next⟩
    · cases drops

/-- The cleanup worker reads an upload as UPLOADING, the upload is completed, and then the
cleanup worker gets the lock. -/
def staleSchedule : List (System.Action builderSystem) :=
  .start (.upload 0) (.upload exampleProvider "fedora") ::
    List.replicate 8 (.respond (.upload 0) exampleAnswer 0) ++
    .start (.cleanup 0) (.cleanup exampleConfig) ::
    List.replicate 9 (.respond (.cleanup 0) exampleAnswer 0) ++
    List.replicate 5 (.respond (.upload 0) exampleAnswer 0) ++
    List.replicate 8 (.respond (.cleanup 0) exampleAnswer 0)

/-- The external id is lost, and the record is removed while the image exists. -/
theorem not_forall_records_outlive_images :
    ¬ ∀ (builds : Dict (String × String) (Option ImageBuild)) (cfg : Config builderSystem),
      builderSystem.Run builderSystem.always (BuilderSystem.init builds) cfg →
      (∀ (i : BuilderThread) (p : UploadPath)
        (k : LauncherSig.Reply (.deleteUploadTree p) → Prog LauncherSig Unit),
        cfg.thread i = .call (.deleteUploadTree p) k → NoImage cfg.world p) ∧
      ∀ (i : BuilderThread) (upload : UploadRecord)
        (k : LauncherSig.Reply (.setUploadRecord upload) → Prog LauncherSig Unit),
        cfg.thread i = .call (.setUploadRecord upload) k →
        ∀ data, cfg.world.readUpload upload.path = some data → data.state = .ready →
          data.externalId = upload.externalId := by
  intro all
  have hexec : ∃ cfg,
      System.exec (fun _ _ => true) (BuilderSystem.init exampleBuilds) staleSchedule = some cfg ∧
      (∃ k, cfg.thread (.cleanup 0) = .call (.deleteUploadTree examplePath) k) ∧
      cfg.world.images = [(examplePath, "fedora-" ++ sequenceName 0)] :=
    ⟨_, rfl, ⟨_, rfl⟩, rfl⟩
  obtain ⟨cfg, hcfg, ⟨k, next⟩, images⟩ := hexec
  have run := System.exec_run builderSystem.always (fun _ _ _ => trivial) hcfg
  refine (all exampleBuilds cfg run).1 (.cleanup 0) examplePath k next
    (examplePath, "fedora-" ++ sequenceName 0) ?_ rfl
  rw [images]
  exact List.mem_singleton_self _

end UploadImages

end Nodepool
