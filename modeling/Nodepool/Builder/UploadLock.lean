import Nodepool.Builder.Upload
import Nodepool.Effect.Footprint
import Nodepool.StateMachine.CloudSystem

/-!
The upload workers of all builders, with the records of uploads in ZooKeeper and the locks
of uploads.

A lock excludes every other worker, and everything else may fail: a call that fails may
still have taken effect. Cleanup workers remove records and mark them for deletion at any
time. A worker only makes a record READY under the lock, after it has read under the same
lock that there is none.
-/

namespace Nodepool

open Effect Method

/-- What a lock is for: an image, one of its builds, and a provider. -/
structure UploadLockKey where
  image : String
  buildId : String
  provider : String
deriving DecidableEq, Repr

def UploadPath.lockKey (p : UploadPath) : UploadLockKey := ⟨p.image, p.buildId, p.provider⟩

/-- What is given to the cloud is the build, and the cloud is that of the provider. -/
structure UploadLockKey.Gives (key : UploadLockKey) (filename : String) (metadata : Metadata) :
    Prop where
  filename : filename = key.image ++ "-" ++ key.buildId
  buildId : metadata.buildId = some key.buildId
  provider : metadata.providerName = some key.provider

structure UploadLockWorld where
  records : Dict UploadPath ImageUpload
  lock : UploadLockKey → Option Nat
  /-- the number of the next sequential znode -/
  counter : Nat
  /-- the worker that has created a record and not released the lock since -/
  uploading : UploadLockKey → Option Nat

namespace UploadLockWorld

def IsReady (w : UploadLockWorld) (p : UploadPath) : Prop :=
  ∃ data, w.records.lookup p = some data ∧ data.state = .ready

instance (w : UploadLockWorld) (p : UploadPath) : Decidable (w.IsReady p) :=
  decidable_of_iff (((w.records.lookup p).any fun data => data.state = .ready) = true) (by
    simp [IsReady, Option.any_eq_true])

/-- The READY uploads. -/
def readyUploads (w : UploadLockWorld) (key : UploadLockKey) : List ImageUpload :=
  (w.records.keys.filter fun p => p.lockKey = key ∧ w.IsReady p).filterMap w.records.lookup

def acquire (w : UploadLockWorld) (key : UploadLockKey) (n : Nat) : UploadLockWorld :=
  { w with lock := Function.update w.lock key (some n) }

/-- A worker releases a lock, or has tried to. -/
def release (w : UploadLockWorld) (key : UploadLockKey) (n : Nat) (released : Bool) :
    UploadLockWorld :=
  if w.lock key = some n then
    { w with
      lock := if released then Function.update w.lock key none else w.lock
      uploading := Function.update w.uploading key none }
  else w

def create (w : UploadLockWorld) (key : UploadLockKey) (data : ImageUpload) : UploadLockWorld :=
  { w with
    records := w.records.insert ⟨key.image, key.buildId, key.provider, sequenceName w.counter⟩ data
    counter := w.counter + 1 }

def start (w : UploadLockWorld) (key : UploadLockKey) (n : Nat) : UploadLockWorld :=
  { w with uploading := Function.update w.uploading key (some n) }

def set (w : UploadLockWorld) (p : UploadPath) (data : ImageUpload) : UploadLockWorld :=
  if p ∈ w.records then { w with records := w.records.insert p data } else w

/-- The worlds that a call can lead to if it gets the given reply. -/
def next (n : Nat) (w : UploadLockWorld) :
    (c : Call) → LauncherSig.Reply c → List UploadLockWorld
  | .getMostRecentBuildImageUploads image buildId provider, .ok uploads =>
      if (∀ upload ∈ uploads, upload ∈ w.readyUploads ⟨image, buildId, provider⟩) ∧
          (uploads = [] → w.readyUploads ⟨image, buildId, provider⟩ = []) then [w]
      else []
  | .acquireUploadLock image buildId provider, .ok true =>
      if w.lock ⟨image, buildId, provider⟩ = none then [w.acquire ⟨image, buildId, provider⟩ n]
      else []
  | .acquireUploadLock image buildId provider, .error _ =>
      if w.lock ⟨image, buildId, provider⟩ = none then
        [w, w.acquire ⟨image, buildId, provider⟩ n]
      else [w]
  | .releaseUploadLock image buildId provider, .ok _ =>
      [w.release ⟨image, buildId, provider⟩ n true]
  | .releaseUploadLock image buildId provider, .error _ =>
      [w.release ⟨image, buildId, provider⟩ n false, w.release ⟨image, buildId, provider⟩ n true]
  | .createImageUpload image buildId provider data, .ok number =>
      if number = sequenceName w.counter then
        [(w.create ⟨image, buildId, provider⟩ data).start ⟨image, buildId, provider⟩ n]
      else []
  | .createImageUpload image buildId provider data, .error _ =>
      [w, w.create ⟨image, buildId, provider⟩ data]
  | .setImageUpload p data, .ok _ => if p ∈ w.records then [w.set p data] else []
  | .setImageUpload p data, .error _ => [w, w.set p data]
  | _, _ => [w]

/-- What the cleanup workers do to records. -/
inductive Env (w : UploadLockWorld) : UploadLockWorld → Prop where
  | remove (p : UploadPath) : Env w { w with records := w.records.erase p }
  | set (p : UploadPath) (data : ImageUpload) (state : data.state ≠ .ready) : Env w (w.set p data)

def init : UploadLockWorld := ⟨∅, fun _ => none, 0, fun _ => none⟩

end UploadLockWorld

/-- An upload worker, of any builder. -/
structure UploadThread where
  n : Nat
deriving DecidableEq

abbrev uploadLockSystem : System LauncherSig UploadLockWorld UploadThread where
  State _ := Unit
  Op _ := UploadProvider × String
  body _ op := (UploadWorker.checkProviderImageUpload .external op.1 op.2).toBody fun _ s => s
  enabled _ _ _ _ := true
  next i := UploadLockWorld.next i.n
  env := UploadLockWorld.Env

namespace UploadLockSystem

open UploadLockWorld

def init : Config uploadLockSystem where
  world := UploadLockWorld.init
  thread _ := .pure ()

variable {w w' : UploadLockWorld} {i j : UploadThread} {n : Nat} {key : UploadLockKey}
  {p q : UploadPath} {data : ImageUpload}

def NoReady (w : UploadLockWorld) (key : UploadLockKey) : Prop :=
  ∀ p, p.lockKey = key → ¬ w.IsReady p

structure Invariant (w : UploadLockWorld) : Prop where
  unique : ∀ p q, p.lockKey = q.lockKey → w.IsReady p → w.IsReady q → p = q
  uploading : ∀ key n, w.uploading key = some n → w.lock key = some n

/-- What the others leave to the holder of a lock. -/
def Beside (n : Nat) (w w' : UploadLockWorld) : Prop :=
  ∀ key, w.lock key = some n → w'.lock key = some n ∧ w'.uploading key = w.uploading key ∧
    ∀ p, p.lockKey = key → w'.IsReady p → w.IsReady p

/-- The worker holds the lock, and there is no READY upload. -/
def Clear (n : Nat) (key : UploadLockKey) (w : UploadLockWorld) : Prop :=
  w.lock key = some n ∧ NoReady w key

/-- The worker has also created the record of an upload. -/
def Started (n : Nat) (key : UploadLockKey) (w : UploadLockWorld) : Prop :=
  Clear n key w ∧ w.uploading key = some n

/-- A record is created, or made READY, by the holder of its lock, if there is no READY one, and
the holder gives the image to the cloud after it has created the record. -/
def Req (n : Nat) (w : UploadLockWorld) : Call → Prop
  | .createImageUpload image buildId provider data =>
      data.state ≠ .ready ∧ Clear n ⟨image, buildId, provider⟩ w
  | .uploadImage _ filename metadata =>
      ∃ key : UploadLockKey, key.Gives filename metadata ∧ Started n key w
  | .setImageUpload p data => data.state = .ready → Clear n p.lockKey w
  | _ => True

/-! ### Records and locks -/

theorem noReady_of_readyUploads (h : w.readyUploads key = []) : NoReady w key := by
  rintro p hp ⟨data, hl, ready⟩
  have mem : p ∈ w.records.keys.filter fun p => p.lockKey = key ∧ w.IsReady p := by
    refine List.mem_filter.mpr ⟨?_, decide_eq_true ⟨hp, data, hl, ready⟩⟩
    exact AList.mem_keys.mpr (AList.lookup_isSome.mp (by rw [hl]; rfl))
  have found : data ∈ w.readyUploads key := List.mem_filterMap.mpr ⟨p, mem, hl⟩
  rw [h] at found
  exact List.not_mem_nil found

theorem isReady_create (state : data.state ≠ .ready) (h : (w.create key data).IsReady p) :
    w.IsReady p := by
  obtain ⟨d, hl, ready⟩ := h
  simp only [UploadLockWorld.create] at hl
  by_cases hp : p = ⟨key.image, key.buildId, key.provider, sequenceName w.counter⟩
  · subst hp
    rw [AList.lookup_insert] at hl
    cases hl
    exact absurd ready state
  · rw [AList.lookup_insert_ne hp] at hl
    exact ⟨d, hl, ready⟩

theorem isReady_set (h : (w.set q data).IsReady p) :
    p = q ∧ data.state = .ready ∨ w.IsReady p := by
  unfold UploadLockWorld.set at h
  split at h
  · obtain ⟨d, hl, ready⟩ := h
    by_cases hp : p = q
    · subst hp
      simp only [AList.lookup_insert] at hl
      cases hl
      exact Or.inl ⟨rfl, ready⟩
    · simp only [AList.lookup_insert_ne hp] at hl
      exact Or.inr ⟨d, hl, ready⟩
  · exact Or.inr h

theorem isReady_remove (h : ({ w with records := w.records.erase q } : UploadLockWorld).IsReady p) :
    w.IsReady p := by
  obtain ⟨d, hl, ready⟩ := h
  by_cases hp : p = q
  · subst hp
    simp only [AList.lookup_erase] at hl
    cases hl
  · simp only [AList.lookup_erase_ne hp] at hl
    exact ⟨d, hl, ready⟩

theorem lock_set : (w.set q data).lock = w.lock := by
  unfold UploadLockWorld.set
  split <;> rfl

theorem uploading_set : (w.set q data).uploading = w.uploading := by
  unfold UploadLockWorld.set
  split <;> rfl

/-- What a step leaves that makes no record READY and takes no lock away. -/
structure Calm (w w' : UploadLockWorld) : Prop where
  ready : ∀ p, w'.IsReady p → w.IsReady p
  lock : w'.lock = w.lock
  uploading : w'.uploading = w.uploading

theorem Calm.invariant (h : Calm w w') (hi : Invariant w) : Invariant w' where
  unique p q hk hp hq := hi.unique p q hk (h.ready p hp) (h.ready q hq)
  uploading key n hu := by
    rw [h.uploading] at hu
    rw [h.lock]
    exact hi.uploading key n hu

theorem Calm.beside (h : Calm w w') : Beside n w w' :=
  fun key hl => ⟨by rw [h.lock]; exact hl, by rw [h.uploading], fun p _ hp => h.ready p hp⟩

theorem Calm.refl (w : UploadLockWorld) : Calm w w := ⟨fun _ h => h, rfl, rfl⟩

/-! ### One step -/

/-- What a call of a worker can do. -/
inductive Stepped (n : Nat) (w : UploadLockWorld) : Call → UploadLockWorld → Prop where
  | same (c : Call) : Stepped n w c w
  | acquire (image buildId provider : String) (free : w.lock ⟨image, buildId, provider⟩ = none) :
      Stepped n w (.acquireUploadLock image buildId provider)
        (w.acquire ⟨image, buildId, provider⟩ n)
  | release (image buildId provider : String) (released : Bool) :
      Stepped n w (.releaseUploadLock image buildId provider)
        (w.release ⟨image, buildId, provider⟩ n released)
  | create (image buildId provider : String) (data : ImageUpload) :
      Stepped n w (.createImageUpload image buildId provider data)
        (w.create ⟨image, buildId, provider⟩ data)
  | start (image buildId provider : String) (data : ImageUpload) :
      Stepped n w (.createImageUpload image buildId provider data)
        ((w.create ⟨image, buildId, provider⟩ data).start ⟨image, buildId, provider⟩ n)
  | set (p : UploadPath) (data : ImageUpload) : Stepped n w (.setImageUpload p data) (w.set p data)

theorem next_stepped {c : Call} {r : LauncherSig.Reply c} (h : w' ∈ w.next n c r) :
    Stepped n w c w' := by
  unfold UploadLockWorld.next at h
  split at h
  case h_1 =>
    split at h
    · obtain rfl := List.mem_singleton.mp h
      exact .same _
    · cases h
  case h_2 =>
    split at h
    · rename_i free
      obtain rfl := List.mem_singleton.mp h
      exact .acquire _ _ _ free
    · cases h
  case h_3 =>
    split at h
    · rename_i free
      rcases List.mem_pair.mp h with rfl | rfl
      · exact .same _
      · exact .acquire _ _ _ free
    · obtain rfl := List.mem_singleton.mp h
      exact .same _
  case h_6 =>
    split at h
    · obtain rfl := List.mem_singleton.mp h
      exact .start _ _ _ _
    · cases h
  case h_8 =>
    split at h
    · obtain rfl := List.mem_singleton.mp h
      exact .set _ _
    · cases h
  case h_5 | h_7 | h_9 =>
    rcases List.mem_pair.mp h with rfl | rfl <;> constructor
  case h_4 | h_10 =>
    obtain rfl := List.mem_singleton.mp h
    constructor

theorem calm_create (state : data.state ≠ .ready) : Calm w (w.create key data) :=
  ⟨fun _ => isReady_create state, rfl, rfl⟩

theorem invariant_start (h : Invariant w) (held : w.lock key = some n) :
    Invariant (w.start key n) where
  unique := h.unique
  uploading k m hu := by
    by_cases hk : k = key
    · subst hk
      simp only [UploadLockWorld.start, Function.update_self] at hu
      cases hu
      exact held
    · simp only [UploadLockWorld.start, Function.update_of_ne hk] at hu
      exact h.uploading k m hu

theorem invariant_set (h : Invariant w) (only : data.state = .ready → NoReady w p.lockKey) :
    Invariant (w.set p data) where
  unique q r hk hq hr := by
    rcases isReady_set hq with ⟨rfl, ready⟩ | hq'
    · rcases isReady_set hr with ⟨rfl, -⟩ | hr'
      · rfl
      · exact absurd hr' (only ready r hk.symm)
    · rcases isReady_set hr with ⟨rfl, ready⟩ | hr'
      · exact absurd hq' (only ready q hk)
      · exact h.unique q r hk hq' hr'
  uploading k m hu := by
    rw [uploading_set] at hu
    rw [lock_set]
    exact h.uploading k m hu

theorem invariant_acquire (h : Invariant w) (free : w.lock key = none) :
    Invariant (w.acquire key n) where
  unique := h.unique
  uploading k m hu := by
    have held := h.uploading k m hu
    have hk : k ≠ key := by
      rintro rfl
      rw [free] at held
      cases held
    simp only [UploadLockWorld.acquire, Function.update_of_ne hk]
    exact held

theorem invariant_release (h : Invariant w) (released : Bool) :
    Invariant (w.release key n released) := by
  unfold UploadLockWorld.release
  split
  · refine ⟨h.unique, fun k m hu => ?_⟩
    have hk : k ≠ key := by
      rintro rfl
      simp only [Function.update_self] at hu
      cases hu
    simp only [Function.update_of_ne hk] at hu
    have held := h.uploading k m hu
    cases released with
    | false => exact held
    | true =>
        simp only [if_true, Function.update_of_ne hk]
        exact held
  · exact h

theorem invariant_stepped {c : Call} (h : Invariant w) (hreq : Req n w c)
    (hs : Stepped n w c w') : Invariant w' := by
  cases hs with
  | same c => exact h
  | acquire image buildId provider free => exact invariant_acquire h free
  | release image buildId provider released => exact invariant_release h released
  | create image buildId provider data => exact (calm_create hreq.1).invariant h
  | start image buildId provider data =>
      exact invariant_start ((calm_create hreq.1).invariant h) hreq.2.1
  | set p data => exact invariant_set h fun ready => (hreq ready).2

theorem beside_stepped {m : Nat} {c : Call} (hnm : n ≠ m) (hreq : Req n w c)
    (hs : Stepped n w c w') : Beside m w w' := by
  cases hs with
  | same c => exact (Calm.refl w).beside
  | acquire image buildId provider free =>
      intro key held
      have hk : key ≠ ⟨image, buildId, provider⟩ := by
        rintro rfl
        rw [free] at held
        cases held
      exact ⟨(Function.update_of_ne hk _ _).trans held, rfl, fun p _ hp => hp⟩
  | release image buildId provider released =>
      intro key held
      unfold UploadLockWorld.release
      split
      · rename_i mine
        have hk : key ≠ ⟨image, buildId, provider⟩ := by
          rintro rfl
          rw [mine] at held
          exact hnm (Option.some.inj held)
        refine ⟨?_, Function.update_of_ne hk _ _, fun p _ hp => hp⟩
        cases released with
        | false => exact held
        | true =>
            simp only [if_true, Function.update_of_ne hk]
            exact held
      · exact ⟨held, rfl, fun p _ hp => hp⟩
  | create image buildId provider data => exact (calm_create hreq.1).beside
  | start image buildId provider data =>
      intro key held
      have hk : key ≠ ⟨image, buildId, provider⟩ := by
        rintro rfl
        exact hnm (Option.some.inj (hreq.2.1.symm.trans held))
      exact ⟨held, Function.update_of_ne hk _ _, fun p _ hp => isReady_create hreq.1 hp⟩
  | set p data =>
      intro key held
      refine ⟨by rw [lock_set]; exact held, by rw [uploading_set], fun q hq hr => ?_⟩
      rcases isReady_set hr with ⟨rfl, ready⟩ | hr
      · rw [← hq, (hreq ready).1] at held
        exact absurd (Option.some.inj held) hnm
      · exact hr

theorem calm_env (h : Env w w') : Calm w w' := by
  cases h with
  | remove p => exact ⟨fun _ => isReady_remove, rfl, rfl⟩
  | set p data state =>
      exact ⟨fun _ hr => (isReady_set hr).resolve_left fun h => state h.2, lock_set, uploading_set⟩

/-! ### The methods of a worker -/

abbrev context (i : UploadThread) : Context LauncherSig UploadLockWorld :=
  uploadLockSystem.context (System.always _) Invariant (Beside i.n) (Req i.n) i

theorem Clear.beside (h : Clear n key w) (hb : Beside n w w') : Clear n key w' :=
  ⟨(hb key h.1).1, fun p hp hr => h.2 p hp ((hb key h.1).2.2 p hp hr)⟩

theorem Started.beside (h : Started n key w) (hb : Beside n w w') : Started n key w' :=
  ⟨h.1.beside hb, (hb key h.1.1).2.1.trans h.2⟩

/-- The calls that leave records and locks alone, and uploads. -/
def Plain : Call → Prop
  | .acquireUploadLock _ _ _ | .releaseUploadLock _ _ _ | .createImageUpload _ _ _ _
  | .uploadImage _ _ _ | .setImageUpload _ _ => False
  | _ => True

theorem plain_stepped {c : Call} (hc : Plain c) (h : Stepped n w c w') : w' = w := by
  cases h with
  | same c => rfl
  | _ => cases hc

theorem plain_stable {B : UploadLockWorld → Prop}
    (rely : ∀ {w w'}, B w → Beside i.n w w' → B w') : Stable (context i) Plain B where
  rely h hr _ := rely h hr
  req {c w} hc _ _ := by
    change Req i.n w c
    unfold Req
    split
    case h_4 => trivial
    all_goals cases hc
  step {c r w w'} hc h _ hs _ := by
    have mem : w' ∈ w.next i.n c r := hs.1
    rw [plain_stepped hc (next_stepped mem)]
    exact h

variable {σ α : Type} {s : σ}

theorem plain_wp {m : LauncherM σ α} (within : Within Plain (fun s => s) m)
    {B : UploadLockWorld → Prop} (rely : ∀ {w w'}, B w → Beside i.n w w' → B w') (h : B w) :
    m.wp (context i) (fun _ _ => B) (fun _ _ => B) s w :=
  wp_mono (within.wp (plain_stable rely) h) (fun _ _ _ h => h.2) fun _ _ _ h => h.2

/-- A method that only makes plain calls does nothing that matters here. -/
theorem plain_true {m : LauncherM σ α} (within : Within Plain (fun s => s) m) :
    m.wp (context i) (fun _ _ _ => True) (fun _ _ _ => True) s w :=
  plain_wp within (fun _ _ => trivial) trivial

/-- Bind after a method that only makes plain calls. -/
theorem plain_bind {β : Type} {m : LauncherM σ α} {f : α → LauncherM σ β}
    {Q : β → σ → UploadLockWorld → Prop} (within : Within Plain (fun s => s) m)
    {B : UploadLockWorld → Prop} (rely : ∀ {w w'}, B w → Beside i.n w w' → B w') (h : B w)
    (next : ∀ v s w, B w → (f v).wp (context i) Q (fun _ _ _ => True) s w) :
    (m >>= f).wp (context i) Q (fun _ _ _ => True) s w :=
  wp_bind.mpr (wp_mono (plain_wp within rely h) next fun _ _ _ _ => trivial)

theorem uploadImage_wp {provider : UploadProvider} {images : List String} {s : Unit}
    (same : p.provider = provider.name) (h : Started i.n p.lockKey w) :
    (UploadWorker.uploadImage .external provider p images).wp (context i)
      (fun _ _ => Clear i.n p.lockKey) (fun _ _ _ => True) s w := by
  refine plain_bind (raiseUnless_within _ _) Started.beside h fun _ s w h => ?_
  refine plain_bind (.perform trivial) Started.beside h fun timestamp s w h => ?_
  refine plain_bind (raiseUnless_within _ _) Started.beside h fun _ s w h => ?_
  refine wp_bind.mpr (wp_attempt.mpr (Method.wp_call (P := Started i.n p.lockKey)
    (fun h hr _ => h.beside hr) h
    (fun w h _ => ⟨p.lockKey, ⟨rfl, rfl, congrArg some same.symm⟩, h⟩) ?_ ?_))
  · intro externalId w₁ w₂ h₁ _ hs _
    obtain rfl := List.mem_singleton.mp hs.1
    exact wp_mono (plain_wp (UploadWorker.runPostUploadHook_within _ trivial trivial trivial)
      Clear.beside h₁.1) (fun _ _ _ h => h) fun _ _ _ _ => trivial
  · intro e w₁ w₂ h₁ _ hs _
    obtain rfl := List.mem_singleton.mp hs.1
    exact plain_bind (.perform trivial) Clear.beside h₁.1 fun _ _ _ h => h

theorem createImageUpload_wp {image buildId provider : String} (state : data.state ≠ .ready)
    (h : Clear i.n ⟨image, buildId, provider⟩ w) :
    (ZooKeeper.createImageUpload image buildId provider data : LauncherM σ String).wp (context i)
      (fun _ _ => Started i.n ⟨image, buildId, provider⟩) (fun _ _ _ => True) s w := by
  refine plain_bind (.perform trivial) Clear.beside h fun _ s₁ w₁ h₁ => ?_
  refine plain_bind (raiseUnless_within _ _) Clear.beside h₁ fun _ s₂ w₂ h₂ => ?_
  refine Method.wp_call (P := Clear i.n ⟨image, buildId, provider⟩) (fun h hr _ => h.beside hr) h₂
    (fun w h _ => ⟨state, h⟩) ?_ fun _ _ _ _ _ _ _ => trivial
  intro number w₃ w₄ h₃ _ hs _
  have mem : w₄ ∈ w₃.next i.n (.createImageUpload image buildId provider data) (.ok number) := hs.1
  obtain ⟨-, rfl⟩ := of_mem_ite mem
  exact ⟨⟨h₃.1, fun p hp hr => h₃.2 p hp (isReady_create state hr)⟩, Function.update_self _ _ _⟩

theorem storeImageUpload_wp (h : Clear i.n p.lockKey w) :
    (ZooKeeper.storeImageUpload p data : LauncherM σ Unit).wp (context i) (fun _ _ _ => True)
      (fun _ _ _ => True) s w := by
  refine plain_bind (.perform trivial) Clear.beside h fun _ s₁ w₁ h₁ => ?_
  refine plain_bind (raiseUnless_within _ _) Clear.beside h₁ fun _ s₂ w₂ h₂ => ?_
  exact Method.wp_call (P := Clear i.n p.lockKey) (fun h hr _ => h.beside hr) h₂
    (fun w h _ _ => h) (fun _ _ _ _ _ _ _ => trivial) fun _ _ _ _ _ _ _ => trivial

/-- What is read under the lock stays true until the record is stored. -/
theorem uploadBuild_wp {provider : UploadProvider} {image : String} {build : ImageBuild}
    {images : List String} {s : Unit} (held : w.lock ⟨image, build.id, provider.name⟩ = some i.n) :
    (UploadWorker.uploadBuild .external provider image build images).wp (context i)
      (fun _ _ _ => True) (fun _ _ _ => True) s w := by
  refine wp_bind.mpr (Method.wp_call
    (P := fun w => w.lock ⟨image, build.id, provider.name⟩ = some i.n)
    (fun h hr _ => (hr _ h).1) held (fun _ _ _ => trivial) ?_ fun _ _ _ _ _ _ _ => trivial)
  intro uploads w₁ w₂ held₁ _ hs _
  have mem : w₂ ∈ w₁.next i.n
    (.getMostRecentBuildImageUploads image build.id provider.name) (.ok uploads) := hs.1
  obtain ⟨known, rfl⟩ := of_mem_ite mem
  split
  · trivial
  · rename_i none
    have clear : Clear i.n ⟨image, build.id, provider.name⟩ w₂ :=
      ⟨held₁, noReady_of_readyUploads (known.2 (not_not.mp none))⟩
    refine plain_bind (.perform trivial) Clear.beside clear fun stored s₃ w₃ h₃ => ?_
    split
    · trivial
    · refine wp_bind.mpr (wp_mono (createImageUpload_wp (fun h => nomatch h) h₃)
        (fun number s₄ w₄ h₄ => ?_) fun _ _ _ _ => trivial)
      refine wp_bind.mpr (wp_mono (uploadImage_wp rfl h₄) (fun data s₅ w₅ h₅ => ?_)
        fun _ _ _ h => h)
      exact wp_bind.mpr (wp_mono (storeImageUpload_wp h₅) (fun _ _ _ _ => trivial)
        fun _ _ _ _ => trivial)

theorem withUploadLock_wp {provider : UploadProvider} {image buildId : String}
    {body : LauncherM Unit Bool} {s : Unit}
    (hbody : ∀ s w, w.lock ⟨image, buildId, provider.name⟩ = some i.n →
      body.wp (context i) (fun _ _ _ => True) (fun _ _ _ => True) s w) :
    (UploadWorker.withUploadLock provider image buildId body).wp (context i) (fun _ _ _ => True)
      (fun _ _ _ => True) s w := by
  refine wp_bind.mpr (Method.wp_call (P := fun _ => True) (fun _ _ _ => trivial) trivial
    (fun _ _ _ => trivial) ?_ fun _ _ _ _ _ _ _ => trivial)
  intro acquired w₁ w₂ _ _ hs _
  have mem : w₂ ∈ w₁.next i.n (.acquireUploadLock image buildId provider.name) (.ok acquired) :=
    hs.1
  cases acquired with
  | false => trivial
  | true =>
      obtain ⟨-, rfl⟩ := of_mem_ite mem
      have release : ∀ {f : Unit → LauncherM Unit Bool} {s : Unit} {w : UploadLockWorld},
          (∀ v s w, (f v).wp (context i) (fun _ _ _ => True) (fun _ _ _ => True) s w) →
          (call (.releaseUploadLock image buildId provider.name) >>= f).wp (context i)
            (fun _ _ _ => True) (fun _ _ _ => True) s w :=
        fun hf => wp_bind.mpr (Method.wp_call (P := fun _ => True) (fun _ _ _ => trivial) trivial
          (fun _ _ _ => trivial) (fun v _ w' _ _ _ _ => hf v _ w') fun _ _ _ _ _ _ _ => trivial)
      have held : (w₁.acquire ⟨image, buildId, provider.name⟩ i.n).lock
          ⟨image, buildId, provider.name⟩ = some i.n := by
        simp [UploadLockWorld.acquire]
      refine wp_bind.mpr (wp_pure.mpr ?_)
      exact wp_bind.mpr (wp_attempt.mpr (wp_mono (hbody s _ held)
        (fun _ _ _ _ => release fun _ _ _ => trivial)
        fun _ _ _ _ => release fun _ _ _ => trivial))

theorem checkProviderImageUpload_wp {provider : UploadProvider} {image : String} {s : Unit} :
    (UploadWorker.checkProviderImageUpload .external provider image).wp (context i)
      (fun _ _ _ => True) (fun _ _ _ => True) s w := by
  have first : ∀ {β : Type} {c : Call} {f : c.Val → LauncherM Unit β} {s : Unit}
      {w : UploadLockWorld}, Plain c →
      (∀ v s w, (f v).wp (context i) (fun _ _ _ => True) (fun _ _ _ => True) s w) →
      (call c >>= f).wp (context i) (fun _ _ _ => True) (fun _ _ _ => True) s w :=
    fun hc hf => wp_bind.mpr (wp_mono (plain_true (.perform hc)) (fun v s w _ => hf v s w)
      fun _ _ _ _ => trivial)
  unfold UploadWorker.checkProviderImageUpload
  split
  · trivial
  · refine first trivial fun builds s w => ?_
    split
    · trivial
    · rename_i build rest
      refine first trivial fun images s w => ?_
      split
      · trivial
      · refine first trivial fun upload s w => ?_
        split
        · trivial
        · split
          · trivial
          · refine wp_tryCatch.mpr (wp_mono (withUploadLock_wp fun s w held => uploadBuild_wp held)
              (fun _ _ _ _ => trivial) fun e _ _ _ => ?_)
            dsimp only
            split <;> trivial

def outline : Outline uploadLockSystem (System.always _) where
  inv := Invariant
  rely i := Beside i.n
  req i := Req i.n
  linv _ _ _ := True
  rely_refl _ w := (Calm.refl w).beside
  rely_trans _ _ _ _ h h' := fun key held => by
    obtain ⟨lock, uploading, ready⟩ := h key held
    obtain ⟨lock', uploading', ready'⟩ := h' key lock
    exact ⟨lock', uploading'.trans uploading, fun p hp hr => ready p hp (ready' p hp hr)⟩
  linv_stable _ _ _ _ _ _ _ := trivial
  entry i op s w _ _ _ _ := by
    change ((UploadWorker.checkProviderImageUpload .external op.1 op.2).toBody (fun _ s => s) s).wp
      (context i) (fun _ _ => True) w
    exact wp_toBody_of_respects _ checkProviderImageUpload_wp
  call_inv _ _ _ _ _ h hreq _ hs := invariant_stepped h hreq (next_stepped hs)
  call_rely i j _ _ _ _ hij _ hreq _ hs :=
    beside_stepped (fun h => hij (congrArg UploadThread.mk h)) hreq (next_stepped hs)
  env_inv h henv := (calm_env henv).invariant h
  env_rely _ _ _ _ henv := (calm_env henv).beside

theorem init_safe : outline.Safe init := by
  refine Outline.Safe.of_idle ⟨?_, fun _ _ h => nomatch h⟩ fun i => ⟨(), rfl, trivial⟩
  rintro p q - ⟨data, h, -⟩
  cases h

/-- **Main result.** In every run, a build has at most one READY upload to a provider, and a
worker that is about to start an upload finds neither a READY one nor another worker that
is uploading; nor does a worker that is about to give an image to a cloud. -/
theorem one_ready {cfg : Config uploadLockSystem}
    (run : uploadLockSystem.Run (System.always _) init cfg) :
    (∀ p q : UploadPath, p.lockKey = q.lockKey → cfg.world.IsReady p → cfg.world.IsReady q →
      p = q) ∧
    (∀ (i : UploadThread) (image buildId provider : String) (data : ImageUpload)
      (k : LauncherSig.Reply (.createImageUpload image buildId provider data) →
        Prog LauncherSig Unit),
      cfg.thread i = .call (.createImageUpload image buildId provider data) k →
      (∀ p : UploadPath, p.lockKey = ⟨image, buildId, provider⟩ → ¬ cfg.world.IsReady p) ∧
        ∀ j, j ≠ i → cfg.world.uploading ⟨image, buildId, provider⟩ ≠ some j.n) ∧
    ∀ (i : UploadThread) (name filename : String) (metadata : Metadata)
      (k : LauncherSig.Reply (.uploadImage name filename metadata) → Prog LauncherSig Unit),
      cfg.thread i = .call (.uploadImage name filename metadata) k →
      ∃ key : UploadLockKey, key.Gives filename metadata ∧
        (∀ p : UploadPath, p.lockKey = key → ¬ cfg.world.IsReady p) ∧
        cfg.world.uploading key = some i.n := by
  have safe := outline.sound init_safe run
  refine ⟨safe.inv.unique, fun i image buildId provider data k next => ?_,
    fun i name filename metadata k next => ?_⟩
  · obtain ⟨-, held, clear⟩ :
        Req i.n cfg.world (.createImageUpload image buildId provider data) := safe.req next
    refine ⟨clear, fun j hji busy => ?_⟩
    have held' := safe.inv.uploading _ _ busy
    rw [held] at held'
    exact hji (congrArg UploadThread.mk (Option.some.inj held').symm)
  · obtain ⟨key, gives, ⟨-, clear⟩, uploading⟩ :
        Req i.n cfg.world (.uploadImage name filename metadata) := safe.req next
    exact ⟨key, gives, clear, uploading⟩

/-! ### Examples -/

def exampleProvider : UploadProvider where
  name := "azure"
  imageType := "vhd"
  imageNameFormat image number _ := image ++ "-" ++ number
  diskimages := (∅ : Dict _ _).insert "fedora" false
  postUploadHook := false

def exampleBuild : ImageBuild := ⟨"1", .ready, ["vhd"]⟩

/-- Answers of calls that succeed. -/
def exampleAnswer (w : UploadLockWorld) : (c : Call) → LauncherSig.Reply c
  | .getMostRecentBuilds _ => .ok [exampleBuild]
  | .localImages _ _ => .ok ["vhd"]
  | .getMostRecentBuildImageUploads image buildId provider =>
      .ok (w.readyUploads ⟨image, buildId, provider⟩)
  | .acquireUploadLock _ _ _ | .buildsExist _ => .ok true
  | .getBuild _ _ => .ok (some exampleBuild)
  | .createImageUpload _ _ _ _ => .ok (sequenceName w.counter)
  | .time => .ok 0
  | .uploadImage name _ _ => .ok name
  | .setImageUpload _ _ | .releaseUploadLock _ _ _ => .ok ()
  | _ => .error .other

/-- One worker uploads a build, and another one comes to the same build. -/
def uploadSchedule : List (System.Action uploadLockSystem) :=
  .start ⟨0⟩ (exampleProvider, "fedora") :: List.replicate 13 (.respond ⟨0⟩ exampleAnswer 0) ++
    .start ⟨1⟩ (exampleProvider, "fedora") :: List.replicate 3 (.respond ⟨1⟩ exampleAnswer 0)

/-- The second worker finds the READY upload of the first one. -/
theorem one_ready_uploadSchedule : ∃ cfg,
    System.exec (fun _ _ => true) init uploadSchedule = some cfg ∧
      cfg.world.IsReady ⟨"fedora", "1", "azure", sequenceName 0⟩ ∧
      ∀ p q : UploadPath, p.lockKey = q.lockKey → cfg.world.IsReady p → cfg.world.IsReady q →
        p = q := by
  have hexec : ∃ cfg, System.exec (fun _ _ => true) init uploadSchedule = some cfg ∧
      cfg.world.records.lookup ⟨"fedora", "1", "azure", sequenceName 0⟩ =
        some ⟨.ready, some ("fedora-" ++ sequenceName 0), some ("fedora-" ++ sequenceName 0),
          some "vhd"⟩ := ⟨_, rfl, rfl⟩
  obtain ⟨cfg, hcfg, record⟩ := hexec
  exact ⟨cfg, hcfg, ⟨_, record, rfl⟩, (one_ready (System.exec_run _ (fun _ _ _ => trivial) hcfg)).1⟩

end UploadLockSystem

end Nodepool
