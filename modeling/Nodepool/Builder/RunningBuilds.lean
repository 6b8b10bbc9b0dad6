import Nodepool.Builder.BuildCleanup
import Nodepool.Builder.Retention

/-!
Builds that are running are not cleaned up, and builds are not made twice.

A build worker that finds an image due looks once more when it has the lock of the image. If the
most recent READY build is still the one it saw before, then none has become READY since, as the
state time of a build that becomes READY under the lock is later than those before it. A build
request is removed under the lock by the worker whose build it has led to.
-/

namespace Nodepool

open Effect Method

namespace BuildSystem

open BuildWorld BuildWorker ZooKeeper

variable {clocked : Prop} {old : List ReadyBuild} {w w' : BuildWorld} {i : BuildThread}
  {key : String × String} {σ α : Type} {s : σ} {image id : String}

/-! ### Calls that leave the builds as they are -/

def Still : BuilderCall → Prop
  | .shared .time | .shared .isRunning | .shared (.log _) | .hasBuildRequest _ | .getImagePaused _
  | .suspended | .lost | .checkConfigRecent | .assignLostConnection _ | .lostConnection
  | .pruneBuildLogs _ | .awaitConnection | .reportBuild _ => True
  | _ => False

theorem eq_of_still {c : BuilderCall} (hc : Still c) {r : BuilderSig.Reply c}
    (h : w' ∈ w.next i c r) : w' = w := by
  unfold Still at hc
  split at hc
  case h_4 =>
    cases r with
    | ok b => exact (of_mem_ite h).2
    | error e => exact List.mem_singleton.mp h
  case h_14 => exact hc.elim
  all_goals cases r <;> exact List.mem_singleton.mp h

theorem req_of_still {c : BuilderCall} (hc : Still c) : Req clocked i w c := by
  unfold Still at hc
  split at hc
  case h_14 => exact hc.elim
  all_goals trivial

theorem stable_still {B : BuildWorld → Prop} (rely : ∀ {w w'}, B w → Rely i w w' → B w') :
    Stable (context clocked old i) Still B where
  rely h hr _ := rely h hr
  req hc _ _ := req_of_still hc
  step hc h _ hs _ := eq_of_still hc hs.1 ▸ h

/-- Bind after a call that leaves the builds as they are. -/
theorem still_bind {c : BuilderCall} (hc : Still c) {B : BuildWorld → Prop}
    (rely : ∀ {w w'}, B w → Rely i w w' → B w') (h : B w) {f : c.Val → BuilderM σ α}
    {Q : α → σ → BuildWorld → Prop} {E : Err → σ → BuildWorld → Prop}
    (next : ∀ v w, B w → (f v).wp (context clocked old i) Q E s w) (error : ∀ e w, B w → E e s w) :
    (builderCall c >>= f).wp (context clocked old i) Q E s w :=
  wp_bind.mpr ((stable_still rely).wp_perform hc h next error)

/-! ### What a worker knows while it holds the lock -/

/-- What makes a worker build an image. -/
def Reason (clocked : Prop) (i : BuildThread) (image : String) (w : BuildWorld) : Prop :=
  w.requests image = true ∨ (clocked → NoneSince i image w)

/-- The worker is about to build the image. -/
structure Ready (clocked asking : Prop) (i : BuildThread) (image : String) (w : BuildWorld) :
    Prop where
  held : w.lock image = some i
  reason : Reason clocked i image w
  asked : asking → w.requests image = true

/-- The worker has made up the id of the build. -/
structure Begun (clocked asking : Prop) (i : BuildThread) (key : String × String)
    (w : BuildWorld) : Prop where
  held : w.lock key.1 = some i
  building : w.building i = some key
  reason : Reason clocked i key.1 w
  asked : asking → w.asked i = some key

/-- The worker is building. -/
structure Running (asking : Prop) (i : BuildThread) (key : String × String) (w : BuildWorld) :
    Prop where
  held : w.lock key.1 = some i
  building : w.building i = some key
  stored : ∃ data, w.read key = some data
  asked : asking → w.asked i = some key

/-- The worker has built the image. -/
structure Made (asking : Prop) (i : BuildThread) (image : String) (w : BuildWorld) : Prop where
  held : w.lock image = some i
  made : ∃ id, (asking → w.asked i = some (image, id)) ∧ w.made i = some (image, id)

theorem IsReady.of_rely (hr : Rely i w w') (held : w.lock key.1 = some i) (h : IsReady w' key) :
    IsReady w key := by
  obtain ⟨data, read, ready⟩ := h
  exact ⟨data, hr.ready key.1 held key.2 data read ready, ready⟩

variable {asking : Prop}

theorem Reason.rely (h : Reason clocked i image w) (held : w.lock image = some i)
    (hr : Rely i w w') : Reason clocked i image w' := by
  refine h.imp (hr.requests image held) fun none clock entry mem unseen same ready => ?_
  refine none clock entry (hr.sameLog image held entry mem same) (hr.seen ▸ unseen) same ?_
  subst same
  exact ready.of_rely hr held

theorem Begun.rely (h : Begun clocked asking i key w) (hr : Rely i w w') :
    Begun clocked asking i key w' :=
  ⟨hr.locked _ h.held, hr.building.trans h.building, h.reason.rely h.held hr,
    fun ask => hr.asked.trans (h.asked ask)⟩

theorem Running.rely (h : Running asking i key w) (hr : Rely i w w') : Running asking i key w' :=
  ⟨hr.locked _ h.held, hr.building.trans h.building, by
    rw [hr.mine key h.building]
    exact h.stored, fun ask => hr.asked.trans (h.asked ask)⟩

theorem Made.rely (h : Made asking i image w) (hr : Rely i w w') : Made asking i image w' :=
  ⟨hr.locked _ h.held, hr.asked ▸ hr.made ▸ h.made⟩

theorem Latest.rely {time : Nat} (h : Latest image time w) (held : w.lock image = some i)
    (hr : Rely i w w') : Latest image time w' :=
  fun entry mem same => h entry (hr.sameLog image held entry mem same) same

/-! ### Building -/

/-- What a worker may store of its build. -/
structure Outcome (clocked asking : Prop) (i : BuildThread) (key : String × String)
    (data : BuildData) (w : BuildWorld) : Prop extends Running asking i key w where
  ended : data.state ≠ .building
  latest : clocked → data.state = .ready → Latest key.1 data.stateTime w

theorem Outcome.rely {data : BuildData} (h : Outcome clocked asking i key data w)
    (hr : Rely i w w') : Outcome clocked asking i key data w' :=
  ⟨h.toRunning.rely hr, h.ended, fun clock ready => (h.latest clock ready).rely h.held hr⟩

theorem createBuild_wp {B : BuildWorld → Prop} (rely : ∀ {w w'}, B w → Rely i w w' → B w')
    (imp : ∀ w, Inv clocked old w → B w → Ready clocked asking i image w) (h : B w)
    {data : BuildData} (state : data.state = .building) :
    (createBuild image data : BuilderM σ String).wp (context clocked old i)
      (fun id _ w => Running asking i (image, id) w) (fun _ _ _ => True) s w := by
  refine wp_bind.mpr (Method.wp_call (P := B) (fun h hr _ => rely h hr) h
    (fun w h inv => (imp w inv h).held) ?_ fun _ _ _ _ _ _ _ => trivial)
  intro id w₁ w₂ h₁ inv hs _
  obtain ⟨new, rfl⟩ := of_mem_ite hs.1
  have ready := imp w₁ inv h₁
  have begun : Begun clocked asking i (image, id) (w₁.reserve i image id) :=
    ⟨ready.held, Function.update_self _ _ _, ready.reason,
      fun ask => (Function.update_self _ _ _).trans (if_pos (ready.asked ask))⟩
  refine wp_bind.mpr (Method.wp_call (P := Begun clocked asking i (image, id))
    (fun h hr _ => h.rely hr) begun (fun w h _ => ⟨h.building, state, h.reason⟩) ?_
    fun _ _ _ _ _ _ _ => trivial)
  intro _ w₁ w₂ begun _ hs _
  obtain ⟨new, rfl⟩ := of_mem_ite hs.1
  have created : w₁.create (image, id) data =
      { w₁ with builds := w₁.builds.insert (image, id) (some data) } := if_neg new
  rw [created]
  exact ⟨begun.held, begun.building, ⟨data, by rw [read_insert, if_pos rfl]⟩, begun.asked⟩

variable {n : Nat} {image : BuildDiskImage}

/-- The time that a worker reads is later than the state times of the READY builds. -/
theorem time_bind {B : BuildWorld → Prop}
    (rely : ∀ {w w'}, B w → Rely (.build n) w w' → B w') (h : B w)
    {f : Nat → BuilderM σ α} {Q : α → σ → BuildWorld → Prop} {E : Err → σ → BuildWorld → Prop}
    (next : ∀ now w, B w → (clocked → ∀ entry ∈ w.log, entry.time < now) →
      (f now).wp (context clocked old (.build n)) Q E s w)
    (error : ∀ e w, B w → E e s w) :
    (builderCall (.shared .time) >>= f).wp (context clocked old (.build n)) Q E s w := by
  refine wp_bind.mpr (Method.wp_call (P := B) (fun h hr _ => rely h hr) h
    (fun _ _ _ => trivial) ?_ ?_)
  · rintro now w₁ w₂ h₁ _ ⟨hs, allowed⟩ _
    obtain rfl := List.mem_singleton.mp hs
    exact next now w₂ h₁ fun clock => allowed clock
  · rintro e w₁ w₂ h₁ _ ⟨hs, -⟩ _
    obtain rfl := List.mem_singleton.mp hs
    exact error e w₂ h₁

theorem buildImage_wp (h : Running asking (.build n) (image.name, id) w) :
    (buildImage id image : BuilderM σ BuildData).wp (context clocked old (.build n))
      (fun data _ w => Outcome clocked asking (.build n) (image.name, id) data w)
      (fun _ _ w => Running asking (.build n) (image.name, id) w) s w := by
  refine still_bind (c := .pruneBuildLogs _) trivial Running.rely h (fun _ w h => ?_)
    fun _ _ h => h
  refine wp_bind.mpr (Method.wp_call (P := Running asking (.build n) (image.name, id))
    (fun h hr _ => h.rely hr) h (fun _ h _ => ⟨h.building, h.stored⟩) ?_ ?_)
  · intro result w₁ w₂ h₁ _ hs _
    obtain rfl := List.mem_singleton.mp hs.1
    have h : Running asking (.build n) (image.name, id) (w₁.addFiles (image.name, id)) :=
      ⟨h₁.held, h₁.building, h₁.stored, h₁.asked⟩
    refine still_bind (c := .awaitConnection) trivial Running.rely h (fun _ w h => ?_)
      fun _ _ h => h
    refine still_bind (c := .lostConnection) trivial Running.rely h (fun lost w h => ?_)
      fun _ _ h => h
    refine time_bind Running.rely h (fun now w h late => ?_) fun _ _ h => h
    have outcome : Outcome clocked asking (.build n) (image.name, id)
        ⟨.ready, image.imageTypes, now⟩ w :=
      ⟨h, by simp, fun clock _ entry mem _ => late clock entry mem⟩
    refine still_bind (c := .reportBuild _) trivial Outcome.rely outcome (fun _ w h => ?_)
      fun _ _ h => h.toRunning
    rw [wp_pure]
    split
    · exact ⟨h.toRunning, by simp, fun _ ready => by simp at ready⟩
    · exact h
  · intro e w₁ w₂ h₁ _ hs _
    obtain rfl := List.mem_singleton.mp hs.1
    exact ⟨h₁.held, h₁.building, h₁.stored, h₁.asked⟩

theorem buildOrFail_wp {data : BuildData} (h : Running asking (.build n) (image.name, id) w) :
    (buildOrFail id image data : BuilderM σ BuildData).wp (context clocked old (.build n))
      (fun data _ w => Outcome clocked asking (.build n) (image.name, id) data w)
      (fun _ _ _ => True) s w := by
  refine wp_bind.mpr (wp_attempt.mpr (wp_mono (buildImage_wp h) (fun _ _ _ h => h)
    fun e s w h => ?_))
  refine still_bind (c := .shared .time) trivial Running.rely h (fun now w h => ?_)
    fun _ _ _ => trivial
  exact ⟨h, by simp, fun _ ready => by simp at ready⟩

/-- A worker has stored how its build has ended. -/
structure Stored (asking : Prop) (i : BuildThread) (key : String × String) (w : BuildWorld) :
    Prop where
  held : w.lock key.1 = some i
  asked : asking → w.asked i = some key
  made : IsReady w key → w.made i = some key

theorem Stored.rely {i : BuildThread} (h : Stored asking i key w) (hr : Rely i w w') :
    Stored asking i key w' :=
  ⟨hr.locked _ h.held, fun ask => hr.asked.trans (h.asked ask), fun ready =>
    hr.made.trans (h.made (ready.of_rely hr h.held))⟩

theorem stored_store {i : BuildThread} {data : BuildData} (h : Running asking i key w) :
    Stored asking i key (w.store i key data) := by
  obtain ⟨stored, read⟩ := h.stored
  unfold BuildWorld.store
  rw [if_pos (mem_of_read read), finish_of_own h.building]
  refine ⟨h.held, h.asked, ?_⟩
  rintro ⟨data', read', ready⟩
  rw [show BuildWorld.read _ key = _ from read_of_insert rfl, if_pos rfl] at read'
  obtain rfl := Option.some.inj read'
  simp [ready]

/-- The record of the build, as it is read again. -/
theorem readBuild_wp {i : BuildThread} (h : Stored asking i (image.name, id) w) :
    (builderCall (.shared (.getBuildRecord image.name id)) : BuilderM σ _).wp
      (context clocked old i)
      (fun read _ w => ∀ build ∈ read, build.state = .ready → Made asking i image.name w)
      (fun _ _ _ => True) s w := by
  refine Method.wp_call (P := Stored asking i (image.name, id)) (fun h hr _ => h.rely hr) h
    (fun _ _ _ => trivial) ?_ fun _ _ _ _ _ _ _ => trivial
  rintro read w₁ w₂ h₁ _ ⟨hs, -⟩ _ build found ready
  obtain ⟨rfl, rfl⟩ := of_mem_ite hs
  obtain ⟨data, read, rfl⟩ := Option.map_eq_some_iff.mp found
  have same : w₁.look i image.name = w₁ := if_pos h₁.held
  rw [same]
  exact ⟨h₁.held, id, h₁.asked, h₁.made ⟨data, read, ready⟩⟩

/-- A worker that holds the lock and has a reason to build. If it is told that the build is READY,
then it has stored it so. -/
theorem buildWrapper_wp {B : BuildWorld → Prop}
    (rely : ∀ {w w'}, B w → Rely (.build n) w w' → B w')
    (imp : ∀ w, Inv clocked old w → B w → Ready clocked asking (.build n) image.name w) (h : B w) :
    (buildWrapper image : BuilderM σ (Option BuildRecord)).wp (context clocked old (.build n))
      (fun read _ w => ∀ build ∈ read, build.state = .ready →
        Made asking (.build n) image.name w)
      (fun _ _ _ => True) s w := by
  refine still_bind (c := .assignLostConnection false) trivial rely h (fun _ w h => ?_)
    fun _ _ _ => trivial
  refine still_bind (c := .shared .time) trivial rely h (fun now w h => ?_) fun _ _ _ => trivial
  refine wp_bind.mpr (wp_mono (createBuild_wp rely imp h rfl) (fun bnum s w h => ?_)
    fun _ _ _ h => h)
  refine wp_bind.mpr (wp_mono (buildOrFail_wp h) (fun data s w h => ?_) fun _ _ _ h => h)
  refine wp_bind.mpr (wp_attempt.mpr (Method.wp_call
    (P := Outcome clocked asking (.build n) (image.name, bnum) data) (fun h hr _ => h.rely hr) h
    (fun _ h _ => .inr ⟨h.building, h.ended, h.latest⟩) ?_ ?_))
  · intro _ w₁ w₂ h₁ _ hs _
    obtain ⟨-, rfl⟩ := of_mem_ite hs.1
    exact readBuild_wp (stored_store h₁.toRunning)
  · intro e w₁ w₂ h₁ inv hs _
    have spared : Spared (.build n) (image.name, bnum) w₁ :=
      ⟨inv.usedBuilding _ _ h₁.building, fun j ne found => ne (inv.only h₁.building found)⟩
    have mem : w₂ ∈ w₁.next (.build n) (.shared (.setBuildRecord image.name (data.record bnum)))
        (.error e) := hs.1
    have spared : Spared (.build n) (image.name, bnum) w₂ := spared.stepped (next_stepped mem)
    refine wp_bind.mpr (Method.wp_call (P := Spared (.build n) (image.name, bnum))
      (fun h hr _ => h.rely hr) spared (fun _ h _ => h) ?_ fun _ _ _ _ _ _ _ => trivial)
    intro _ w₁ w₂ _ _ _ _
    refine still_bind (c := .shared .time) trivial (B := fun _ => True) (fun h _ => h) trivial
      (fun now w h => ?_) fun _ _ _ => trivial
    rintro build ⟨⟩ ready
    cases ready

/-! ### Looking at builds -/

section Looking

variable {i : BuildThread} {image : String}

/-- The calls that look at the builds of an image. -/
def Looking (image : String) : Call → Prop
  | .getBuildIds other | .getBuildRecord other _ => other = image
  | _ => False

theorem eq_look {c : Call} (hc : Looking image c) {r : LauncherSig.Reply c}
    (h : w' ∈ w.sharedNext i c r) : w' = w ∨ w' = w.look i image := by
  unfold Looking at hc
  split at hc
  · subst hc
    cases r with
    | ok ids => exact .inr (of_mem_ite h).2
    | error e => exact .inl (List.mem_singleton.mp h)
  · subst hc
    cases r with
    | ok build => exact .inr (of_mem_ite h).2
    | error e => exact .inl (List.mem_singleton.mp h)
  · exact hc.elim

theorem req_of_looking {c : Call} (hc : Looking image c) : Req clocked i w (.shared c) := by
  unfold Looking at hc
  split at hc
  · trivial
  · trivial
  · exact hc.elim

theorem stable_looking {B : BuildWorld → Prop} (rely : ∀ {w w'}, B w → Rely i w w' → B w')
    (look : ∀ {w}, Inv clocked old w → B w → B (w.look i image)) :
    Stable (sharedContext clocked old i) (Looking image) B where
  rely h hr _ := rely h hr
  req hc _ _ := req_of_looking hc
  step hc h hi hs _ := by
    rcases eq_look hc (mem_sharedNext hs) with rfl | rfl
    · exact h
    · exact look hi h

theorem looking_call {c : Call} (hc : Looking image c) :
    Within (Looking image) (fun s : σ => s) (call (σ := σ) c) := .perform hc

theorem look_of_held (held : w.lock image = some i) : w.look i image = w := if_pos held

/-- The build was READY when the thread looked, unless the thread has the lock. -/
def SawReady (i : BuildThread) (image : String) (build : BuildRecord) (w : BuildWorld) : Prop :=
  w.lock image = some i ∨ ∃ entry ∈ w.seen i, entry.key = (image, build.id)

theorem SawReady.rely {build : BuildRecord} (h : SawReady i image build w) (hr : Rely i w w') :
    SawReady i image build w' :=
  h.imp (hr.locked image) fun seen => by rwa [hr.seen]

theorem SawReady.look {build : BuildRecord} (inv : Inv clocked old w)
    (h : SawReady i image build w) : SawReady i image build (w.look i image) := by
  by_cases held : w.lock image = some i
  · rwa [look_of_held held]
  · obtain ⟨entry, mem, same⟩ := h.resolve_left held
    refine .inr ⟨entry, ?_, same⟩
    simpa [BuildWorld.look, held] using (inv.seen i).subset mem

/-- One build, as far as it is READY, in `getBuilds`. -/
abbrev readReady (image id : String) : LauncherM σ (List (Option BuildRecord)) := do
  let data ← call (.getBuildRecord image id)
  pure (if (some [BuildState.ready]).all fun states => data.any (·.state ∈ states) then [data]
    else [])

theorem readReady_looking :
    Within (Looking image) (fun s : σ => s) (readReady (σ := σ) image id) :=
  .bind (looking_call (c := .getBuildRecord image id) rfl) fun _ => .pure

/-- What `readReady` finds is stored as READY. -/
theorem of_readReady {read : Option BuildRecord} {build : BuildRecord}
    (mem : read ∈ if (some [BuildState.ready]).all fun states =>
      (w.readRecord (image, id)).any (·.state ∈ states) then [w.readRecord (image, id)] else [])
    (found : build ∈ read) :
    ∃ data, w.read (image, id) = some data ∧ data.state = .ready ∧ build = data.record id := by
  obtain ⟨ready, mem⟩ := List.mem_ite_nil_right.mp mem
  obtain rfl := List.mem_singleton.mp mem
  obtain ⟨data, stored, rfl⟩ := Option.map_eq_some_iff.mp found
  refine ⟨data, stored, ?_, rfl⟩
  simpa [BuildWorld.readRecord, stored, BuildData.record] using ready

theorem sawReady_wp : (readReady image id : LauncherM σ (List (Option BuildRecord))).wp
    (sharedContext clocked old i)
    (fun reads _ w => ∀ read ∈ reads, ∀ build ∈ read, SawReady i image build w)
    (fun _ _ _ => True) s w := by
  refine wp_bind.mpr (wp_perform.mpr fun w₁ _ inv => ⟨trivial, fun data w₂ hs _ => ?_,
    fun _ _ _ _ => trivial⟩)
  obtain ⟨rfl, rfl⟩ := of_mem_ite (mem_sharedNext hs)
  rintro read mem build found
  obtain ⟨data, stored, ready, rfl⟩ := of_readReady mem found
  by_cases held : w₁.lock image = some i
  · exact .inl (by rwa [look_of_held held])
  · refine .inr ⟨⟨(image, id), data.stateTime⟩, ?_, rfl⟩
    simpa [BuildWorld.look, held] using inv.logged _ data stored ready

/-- What is read of the builds of an image without the lock. -/
theorem firstCheck_wp : (getMostRecentBuilds 1 image .ready : LauncherM σ (List BuildRecord)).wp
    (sharedContext clocked old i)
    (fun builds _ w => ∀ build ∈ builds, SawReady i image build w) (fun _ _ _ => True) s w := by
  have true_ : Stable (sharedContext clocked old i) (Looking image) fun _ => True :=
    stable_looking (fun _ _ => trivial) fun _ _ => trivial
  have saw (read : Option BuildRecord) : Stable (sharedContext clocked old i) (Looking image)
      fun w => ∀ build ∈ read, SawReady i image build w :=
    stable_looking (fun h hr build mem => (h build mem).rely hr)
      fun inv h build mem => (h build mem).look inv
  have reads (ids : List String) (s : σ) (w : BuildWorld) : (gather ids (readReady image)).wp
      (sharedContext clocked old i)
      (fun reads _ w => True ∧ ∀ read ∈ reads, ∀ build ∈ read, SawReady i image build w)
      (fun _ _ _ => True) s w :=
    Within.wp_gather_mem (fun _ => readReady_looking) true_ saw (fun _ _ _ _ => sawReady_wp) trivial
  refine wp_bind.mpr (wp_mono (wp_bind.mpr (true_.wp_perform (c := .getBuildIds image) rfl trivial
    (fun ids w _ => reads ids s w) fun _ _ _ => trivial)) (fun found s w h => ?_)
    fun _ _ _ h => h)
  intro build mem
  have mem := perm_mostRecentFirst.mem_iff.mp (List.mem_of_mem_take mem)
  obtain ⟨read, mem, e⟩ := List.mem_filterMap.mp mem
  exact h.2 read mem build e

/-- The builds that a worker saw without the lock, when it has the lock. -/
structure Saw (i : BuildThread) (image : String) (builds : List BuildRecord) (w : BuildWorld) :
    Prop where
  held : w.lock image = some i
  saw : ∀ build ∈ builds, ∃ entry ∈ w.seen i, entry.key = (image, build.id)

theorem Saw.rely {builds : List BuildRecord} (h : Saw i image builds w) (hr : Rely i w w') :
    Saw i image builds w' :=
  ⟨hr.locked _ h.held, hr.seen ▸ h.saw⟩

/-- What a worker knows after it has looked with the lock. -/
structure Checked (i : BuildThread) (image : String) (builds builds2 : List BuildRecord)
    (w : BuildWorld) : Prop extends Saw i image builds w where
  latest : ∀ id data, w.read (image, id) = some data → data.state = .ready →
    ∃ build2 ∈ builds2, data.stateTime ≤ build2.stateTime
  logged : ∀ build2 ∈ builds2, ⟨(image, build2.id), build2.stateTime⟩ ∈ w.log
  single : builds2.length ≤ 1

theorem Checked.rely {builds builds2 : List BuildRecord} (h : Checked i image builds builds2 w)
    (hr : Rely i w w') : Checked i image builds builds2 w' :=
  ⟨h.toSaw.rely hr, fun id data read ready =>
    h.latest id data (hr.ready image h.held id data read ready) ready,
    fun build2 mem => hr.log _ (h.logged build2 mem), h.single⟩

theorem stable_held {B : BuildWorld → Prop} (held : ∀ {w}, B w → w.lock image = some i)
    (rely : ∀ {w w'}, B w → Rely i w w' → B w') :
    Stable (sharedContext clocked old i) (Looking image) B :=
  stable_looking rely fun _ h => by rwa [look_of_held (held h)]

/-- The builds that a worker has listed with the lock. -/
structure Listed (i : BuildThread) (image : String) (builds : List BuildRecord)
    (ids : List String) (w : BuildWorld) : Prop extends Saw i image builds w where
  listed : ∀ id data, w.read (image, id) = some data → data.state = .ready → id ∈ ids

theorem Listed.rely {builds : List BuildRecord} {ids : List String}
    (h : Listed i image builds ids w) (hr : Rely i w w') : Listed i image builds ids w' :=
  ⟨h.toSaw.rely hr, fun id data read ready =>
    h.listed id data (hr.ready image h.held id data read ready) ready⟩

/-- The build has been found among those that were READY, unless it is not READY. -/
structure Found (i : BuildThread) (image id : String) (found : List (Option BuildRecord))
    (w : BuildWorld) : Prop where
  held : w.lock image = some i
  found : ∀ data, w.read (image, id) = some data → data.state = .ready →
    some (data.record id) ∈ found

theorem Found.rely {found : List (Option BuildRecord)} (h : Found i image id found w)
    (hr : Rely i w w') : Found i image id found w' :=
  ⟨hr.locked _ h.held, fun data read ready =>
    h.found data (hr.ready image h.held id data read ready) ready⟩

/-- What has been found of a build is as it was when the build became READY. -/
def IsLogged (image : String) (read : Option BuildRecord) (w : BuildWorld) : Prop :=
  ∀ build ∈ read, ⟨(image, build.id), build.stateTime⟩ ∈ w.log

theorem stable_logged {read : Option BuildRecord} :
    Stable (sharedContext clocked old i) (Looking image) (IsLogged image read) := by
  refine stable_looking (fun h hr build mem => hr.log _ (h build mem)) fun _ h build mem => ?_
  unfold look
  split <;> exact h build mem

/-- One build that is read with the lock. -/
theorem found_wp {builds : List BuildRecord} (h : Saw i image builds w) :
    (readReady image id : LauncherM σ (List (Option BuildRecord))).wp (sharedContext clocked old i)
      (fun reads _ w => Found i image id reads w ∧ ∀ read ∈ reads, IsLogged image read w)
      (fun _ _ _ => True) s w := by
  refine wp_bind.mpr (Method.wp_call (P := Saw i image builds) (fun h hr _ => h.rely hr) h
    (fun _ _ _ => trivial) (fun data w₁ w₂ h₁ inv hs _ => ?_) fun _ _ _ _ _ _ _ => trivial)
  obtain ⟨rfl, rfl⟩ := of_mem_ite (mem_sharedNext hs)
  rw [look_of_held h₁.held]
  refine ⟨⟨h₁.held, fun data stored ready => ?_⟩, fun read mem build found => ?_⟩
  · simp [BuildWorld.readRecord, stored, BuildData.record, ready]
  · obtain ⟨data, stored, ready, rfl⟩ := of_readReady mem found
    exact inv.logged _ data stored ready

theorem exists_mostRecent {β : Type} {time : β → Nat} {records : List β} {a : β}
    (mem : a ∈ records) : ∃ b ∈ (mostRecentFirst time records).take 1, time a ≤ time b := by
  have mem : a ∈ mostRecentFirst time records := perm_mostRecentFirst.mem_iff.mpr mem
  have sorted : (mostRecentFirst time records).Pairwise fun a b => time b ≤ time a :=
    pairwise_mostRecentFirst
  cases e : mostRecentFirst time records with
  | nil =>
      rw [e] at mem
      cases mem
  | cons b rest =>
      rw [e] at mem sorted
      refine ⟨b, List.mem_cons_self, ?_⟩
      rcases List.mem_cons.mp mem with rfl | mem
      · exact le_rfl
      · exact (List.pairwise_cons.mp sorted).1 a mem

theorem listed_wp {builds : List BuildRecord} {ids : List String}
    (h : Listed i image builds ids w) : (gather ids (readReady image)).wp
      (sharedContext clocked old i)
      (fun found (_ : σ) w => (Listed i image builds ids w ∧
          ∀ id ∈ ids, ∃ part, part ⊆ found ∧ Found i image id part w) ∧
        Listed i image builds ids w ∧ ∀ read ∈ found, IsLogged image read w)
      (fun _ _ _ => True ∧ True) s w := by
  have listed : Stable (sharedContext clocked old i) (Looking image) (Listed i image builds ids) :=
    stable_held (fun h => h.held) fun h hr => h.rely hr
  refine wp_and
    (Within.wp_gather (fun _ => readReady_looking) listed (fun id found => ?_)
      (fun id _ s w h => ?_) h)
    (Within.wp_gather_mem (fun _ => readReady_looking) listed (fun _ => stable_logged)
      (fun id s w h => ?_) h)
  · exact stable_held (fun h => h.held) fun h hr => Found.rely h hr
  · exact wp_mono (found_wp h.toSaw) (fun _ _ _ h => h.1) fun _ _ _ h => h
  · exact wp_mono (found_wp h.toSaw) (fun _ _ _ h => h.2) fun _ _ _ h => h

/-- What is read of the builds of an image with the lock. -/
theorem secondCheck_wp {builds : List BuildRecord} (h : Saw i image builds w) :
    (getMostRecentBuilds 1 image .ready : LauncherM σ (List BuildRecord)).wp
      (sharedContext clocked old i) (fun builds2 _ w => Checked i image builds builds2 w)
      (fun _ _ _ => True) s w := by
  refine wp_bind.mpr (wp_bind.mpr (Method.wp_call (P := Saw i image builds)
    (fun h hr _ => h.rely hr) h (fun _ _ _ => trivial) (fun ids w₁ w₂ h₁ inv hs _ => ?_)
    fun _ _ _ _ _ _ _ => trivial))
  obtain ⟨lists, rfl⟩ := of_mem_ite (mem_sharedNext hs)
  rw [look_of_held h₁.held]
  have listed : Listed i image builds ids w₁ :=
    ⟨h₁, fun id data read _ => lists.2 _ (AList.mem_keys.mp (mem_of_read read)) rfl⟩
  refine wp_mono (listed_wp listed) (fun found s w h => ?_) fun _ _ _ _ => trivial
  obtain ⟨⟨listed, each⟩, -, logged⟩ := h
  refine ⟨listed.toSaw, fun id data read ready => ?_, fun build2 mem => ?_,
    List.length_take_le _ _⟩
  · obtain ⟨part, sub, part_found⟩ := each id (listed.listed id data read ready)
    have mem : data.record id ∈ found.filterMap fun read => read :=
      List.mem_filterMap.mpr ⟨_, sub (part_found.found data read ready), rfl⟩
    exact exists_mostRecent mem
  · have mem := perm_mostRecentFirst.mem_iff.mp (List.mem_of_mem_take mem)
    obtain ⟨read, mem, e⟩ := List.mem_filterMap.mp mem
    exact logged read mem build2 e

end Looking

/-- If the build that was the most recent one before is so still, then no build has become READY
since. -/
theorem Checked.noneSince {i : BuildThread} {image : String} {builds builds2 : List BuildRecord}
    (h : Checked i image builds builds2 w) (inv : Inv clocked old w)
    (agree : ∀ build2 ∈ builds2, ∃ build ∈ builds, build.id = build2.id) (clock : clocked) :
    NoneSince i image w := by
  rintro ⟨⟨_, id⟩, time⟩ mem unseen rfl ⟨data, read, ready⟩
  obtain ⟨build2, mem2, le⟩ := h.latest id data read ready
  obtain ⟨build, memb, e⟩ := agree build2 mem2
  obtain ⟨entry, memSeen, same⟩ := h.saw build memb
  have once := List.inj_on_of_nodup_map inv.once
  -- both builds have their state times from the log
  have time_eq : time = data.stateTime :=
    congrArg ReadyBuild.time (once mem (inv.logged _ data read ready) rfl)
  have entry_eq : entry.time = build2.stateTime :=
    congrArg ReadyBuild.time (once ((inv.seen i).subset memSeen) (h.logged build2 mem2)
      (same.trans (by rw [e])))
  have later : entry.time < time := by
    obtain ⟨since, split⟩ := inv.seen i
    have ordered := inv.ordered clock
    rw [← split, List.pairwise_append] at ordered
    rw [← split, List.mem_append] at mem
    exact ordered.2.2 _ (mem.resolve_right unseen) entry memSeen
      (fun old => unseen (inv.initial i _ old)) (by rw [same])
  omega

/-! ### Passes -/

/-- The method makes only calls that its context allows. -/
abbrev Respects (clocked : Prop) (old : List ReadyBuild) (i : BuildThread) (m : BuilderM σ α)
    (s : σ) (w : BuildWorld) : Prop :=
  m.wp (context clocked old i) (fun _ _ _ => True) (fun _ _ _ => True) s w

/-- What a worker knows when it has the lock of an image. -/
theorem getImageBuildLock_wp {i : BuildThread} {name : String} {B C : BuildWorld → Prop}
    (rely : ∀ {w w'}, B w → Rely i w w' → B w') (h : B w)
    (acquired : ∀ w, B w → w.lock name = none → C (w.acquire i name)) :
    (getImageBuildLock name : BuilderM σ Unit).wp (context clocked old i) (fun _ _ w => C w)
      (fun _ _ _ => True) s w := by
  refine wp_bind.mpr (wp_tryCatch.mpr (Method.wp_call (P := B) (fun h hr _ => rely h hr) h
    (fun _ _ _ => trivial) (fun reply w₁ w₂ h₁ _ hs _ => ?_) fun e _ _ _ _ _ _ => ?_))
  · cases reply with
    | false => trivial
    | true =>
        obtain ⟨free, rfl⟩ := of_mem_ite hs.1
        exact acquired w₁ h₁ free
  · dsimp only
    split <;> trivial

theorem withBuildLock_wp {i : BuildThread} {name : String} {B C : BuildWorld → Prop}
    {body : BuilderM σ Unit}
    (rely : ∀ {w w'}, B w → Rely i w w' → B w') (h : B w)
    (acquired : ∀ w, B w → w.lock name = none → C (w.acquire i name))
    (locked : ∀ s w, C w → Respects clocked old i body s w) :
    Respects clocked old i (withBuildLock name body) s w := by
  have release {f : Unit → BuilderM σ Unit}
      (after : ∀ s w, Respects clocked old i (f ()) s w) (s : σ) (w : BuildWorld) :
      Respects clocked old i (builderCall (.shared (.releaseBuildLock name)) >>= f) s w :=
    wp_bind.mpr (Method.wp_call (P := fun _ => True) (fun h _ _ => h) trivial
      (fun _ _ _ => trivial) (fun _ _ w _ _ _ _ => after s w) fun _ _ _ _ _ _ _ => trivial)
  refine wp_tryCatch.mpr (wp_mono (Q := fun _ _ _ => True) (E := fun _ _ _ => True) ?_
    (fun _ _ _ _ => trivial) fun e _ _ _ => ?_)
  · refine wp_bind.mpr (wp_mono (getImageBuildLock_wp rely h acquired) (fun _ s w h => ?_)
      fun _ _ _ h => h)
    refine wp_bind.mpr (wp_attempt.mpr (wp_mono (locked s w h) (fun _ s w _ => release ?_ s w)
      fun _ s w _ => release ?_ s w))
    · exact fun _ _ => trivial
    · exact fun _ _ => trivial
  · dsimp only
    split <;> trivial

theorem buildScheduled_wp {builds : List BuildRecord} (h : Saw (.build n) image.name builds w) :
    Respects clocked old (.build n) (buildScheduled image builds) s w := by
  refine wp_bind.mpr (wp_lift.mpr (wp_mono (secondCheck_wp h) (fun builds2 s w checked => ?_)
    fun _ _ _ h => h))
  have build (agree : ∀ build2 ∈ builds2, ∃ build ∈ builds, build.id = build2.id) :
      Respects clocked old (.build n) (buildWrapper image >>= fun _ => pure () : BuilderM σ Unit)
        s w := by
    have ready (w : BuildWorld) (inv : Inv clocked old w)
        (h : Checked (.build n) image.name builds builds2 w) :
        Ready clocked False (.build n) image.name w :=
      ⟨h.held, .inr (h.noneSince inv agree), False.elim⟩
    exact wp_bind.mpr (wp_mono (buildWrapper_wp (fun h hr => h.rely hr) ready checked)
      (fun _ _ _ _ => trivial) fun _ _ _ h => h)
  refine wp_bind.mpr ?_
  match builds2, builds with
  | [], _ => exact build fun _ mem => absurd mem List.not_mem_nil
  | _ :: _, [] => trivial
  | build2 :: rest2, build1 :: rest1 =>
      obtain rfl : rest2 = [] := List.length_eq_zero_iff.mp (by simpa using checked.single)
      rw [show (newBuild (build1 :: rest1) [build2] : BuilderM σ Bool) =
        pure (decide (build1.id ≠ build2.id)) from rfl, wp_pure]
      split
      · trivial
      · rename_i same
        refine build fun build mem => ⟨build1, List.mem_cons_self, ?_⟩
        obtain rfl := List.mem_singleton.mp mem
        simpa using same

theorem buildRequested_wp (h : w.lock image.name = some (.build n)) :
    Respects clocked old (.build n) (buildRequested image) s w := by
  refine wp_bind.mpr (Method.wp_call (P := fun w => w.lock image.name = some (.build n))
    (fun h hr _ => hr.locked _ h) h (fun _ _ _ => trivial) (fun requested w₁ w₂ h₁ _ hs _ => ?_)
    fun _ _ _ _ _ _ _ => trivial)
  obtain ⟨rfl, rfl⟩ := of_mem_ite hs.1
  split
  · rename_i requested
    have ready (w : BuildWorld) (_ : Inv clocked old w)
        (h : w.lock image.name = some (.build n) ∧ w.requests image.name = true) :
        Ready clocked True (.build n) image.name w := ⟨h.1, .inl h.2, fun _ => h.2⟩
    refine wp_bind.mpr (wp_mono (buildWrapper_wp
      (fun h hr => ⟨hr.locked _ h.1, hr.requests _ h.1 h.2⟩) ready ⟨h₁, requested⟩)
      (fun read s w made => ?_) fun _ _ _ h => h)
    split
    · rename_i ready
      obtain ⟨build, found, ready⟩ := (Option.any_eq_true ..).mp ready
      have made := made build found (of_decide_eq_true ready)
      refine Method.wp_call (P := Made True (.build n) image.name) (fun h hr _ => h.rely hr) made
        (fun _ h _ => ?_) (fun _ _ _ _ _ _ _ => trivial) fun _ _ _ _ _ _ _ => trivial
      obtain ⟨id, asked, made⟩ := h.made
      exact ⟨h.held, id, asked trivial, made⟩
    · trivial
  · trivial

/-- Bind after a call that leaves the builds as they are, of which nothing else is said. -/
theorem quiet_bind {i : BuildThread} {c : BuilderCall} (hc : Still c) {f : c.Val → BuilderM σ α}
    (next : ∀ v w, Respects clocked old i (f v) s w) :
    Respects clocked old i (builderCall c >>= f) s w :=
  still_bind hc (B := fun _ => True) (fun h _ => h) trivial (fun v w _ => next v w)
    fun _ _ _ => trivial

theorem isPaused_wp {i : BuildThread} : Respects clocked old i (isPaused image) s w := by
  unfold isPaused
  split
  · trivial
  · exact quiet_bind (c := .getImagePaused _) trivial fun _ _ => trivial

theorem checkImageForScheduledImageUpdates_wp :
    Respects clocked old (.build n) (checkImageForScheduledImageUpdates image) s w := by
  refine wp_bind.mpr (wp_mono isPaused_wp (fun paused s w _ => ?_) fun _ _ _ h => h)
  split
  · trivial
  · refine quiet_bind (c := .shared .time) trivial fun now w => ?_
    refine wp_bind.mpr (wp_lift.mpr (wp_mono firstCheck_wp (fun builds s w saw => ?_)
      fun _ _ _ h => h))
    split
    · refine withBuildLock_wp (C := Saw (.build n) image.name builds)
        (B := fun w => ∀ build ∈ builds, SawReady (.build n) image.name build w)
        (fun h hr build mem => (h build mem).rely hr) saw (fun w saw free => ?_)
        fun s w h => buildScheduled_wp h
      refine ⟨Function.update_self _ _ _, fun build mem => (saw build mem).resolve_left ?_⟩
      simp [free]
    · trivial

theorem checkImageForManualBuildRequest_wp :
    Respects clocked old (.build n) (checkImageForManualBuildRequest image) s w := by
  refine wp_bind.mpr (wp_mono isPaused_wp (fun paused s w _ => ?_) fun _ _ _ h => h)
  split
  · trivial
  · refine quiet_bind (c := .hasBuildRequest _) trivial fun requested w => ?_
    split
    · exact withBuildLock_wp (B := fun _ => True) (fun h _ => h) trivial
        (fun _ _ _ => Function.update_self _ _ _) fun s w held => buildRequested_wp held
    · trivial

theorem checkRecent_wp {i : BuildThread} {check : BuildDiskImage → BuilderM σ Unit}
    (checked : ∀ image s w, Respects clocked old i (check image) s w) :
    Respects clocked old i (checkRecent check image) s w := by
  refine quiet_bind (c := .checkConfigRecent) trivial fun recent w => ?_
  split
  · exact wp_bind.mpr (wp_mono (checked image s w) (fun _ _ _ _ => trivial) fun _ _ _ h => h)
  · trivial

theorem forEachImage_wp {i : BuildThread} {check : BuildDiskImage → BuilderM σ Unit}
    (checked : ∀ image s w, Respects clocked old i (check image) s w)
    {images : List BuildDiskImage} :
    Respects clocked old i (forEachImage check images) s w := by
  induction images generalizing s w with
  | nil => trivial
  | cons image rest ih =>
      refine quiet_bind (c := .shared .isRunning) trivial fun running w => ?_
      refine quiet_bind (c := .suspended) trivial fun suspended w => ?_
      refine quiet_bind (c := .lost) trivial fun lost w => ?_
      split
      · trivial
      · refine wp_bind.mpr (wp_attempt.mpr (wp_mono (checkRecent_wp checked)
          (fun recent s w _ => ?_) fun e s w _ => ?_))
        · cases recent with
          | false => trivial
          | true => exact ih
        · exact quiet_bind (c := .shared (.log _)) trivial fun _ w => ih

theorem run_wp {images : List BuildDiskImage} :
    Respects clocked old (.build n) (run images) s w :=
  wp_bind.mpr (wp_mono (forEachImage_wp fun _ _ _ => checkImageForScheduledImageUpdates_wp)
    (fun _ _ _ _ => forEachImage_wp fun _ _ _ => checkImageForManualBuildRequest_wp)
    fun _ _ _ h => h)

/-! ### Runs -/

theorem method_wp {i : BuildThread} {op : BuildOp}
    (enabled : buildSystem.enabled i op () w = true) :
    op.method.wp (context clocked old i) (fun _ _ _ => True) (fun _ _ _ => True) () w := by
  cases op with
  | build images =>
      cases i with
      | build n => exact run_wp
      | _ => cases enabled
  | upload provider image =>
      exact wp_bind.mpr (wp_lift.mpr (wp_mono
        (checkProviderImageUpload_quiet.wp lasting_true trivial) (fun _ _ _ _ => trivial)
        fun _ _ _ _ => trivial))
  | cleanup config => exact wp_lift.mpr cleanup_wp
  | delete image id => exact wp_lift.mpr dibImageDelete_wp

def outline (clocked : Prop) (old : List ReadyBuild) : Outline buildSystem (Allowed clocked) where
  inv := Inv clocked old
  rely := Rely
  req := Req clocked
  linv _ _ _ := True
  rely_refl := Rely.refl
  rely_trans _ _ _ _ h h' := h.trans h'
  linv_stable _ _ _ _ _ _ _ := trivial
  entry i op s w _ enabled _ _ := by
    change (op.method.toBody (fun _ s => s) s).wp (context clocked old i) (fun _ _ => True) w
    exact wp_toBody_of_respects _ (method_wp enabled)
  call_inv _ _ _ _ _ h req _ hs := inv_stepped h req (next_stepped hs)
  call_rely _ _ _ _ _ _ ne h req _ hs := rely_stepped h (Ne.symm ne) req (next_stepped hs)
  env_inv := inv_env
  env_rely _ _ _ _ := rely_env

/-- An entry that gives a READY build. -/
theorem of_readyBuild {entry : Sigma fun _ : String × String => Option BuildData}
    {build : ReadyBuild}
    (h : (match entry.2 with
      | some data => if data.state = .ready then some ⟨entry.1, data.stateTime⟩ else none
      | none => none) = some build) : build.key = entry.1 := by
  split at h
  · split at h
    · cases h
      rfl
    · cases h
  · cases h

theorem init_inv (builds : Dict (String × String) (Option BuildData))
    (files : List (String × String)) :
    Inv clocked (readyBuilds builds) (BuildWorld.init builds files) where
  locked _ _ found := nomatch found
  running _ _ found := nomatch found
  files _ _ found := nomatch found
  usedBuilding _ _ found := nomatch found
  usedBuilds key mem := List.mem_append_left _ (List.mem_map_of_mem (AList.mem_keys.mp mem))
  usedFiles key mem := List.mem_append_right _ (List.mem_map_of_mem mem)
  usedLog build mem := by
    obtain ⟨entry, mem, found⟩ := List.mem_filterMap.mp mem
    rw [of_readyBuild found]
    exact List.mem_append_left _ (List.mem_map_of_mem (List.mem_map_of_mem mem))
  unlogged _ _ found := nomatch found
  made _ _ found := nomatch found
  logged key data read ready := by
    have found : builds.lookup key = some (some data) := by
      simpa [BuildWorld.read, BuildWorld.init, Option.join_eq_some_iff] using read
    refine List.mem_filterMap.mpr ⟨⟨key, some data⟩, AList.mem_lookup_iff.mp found, ?_⟩
    simp [ready]
  once := by
    refine List.pairwise_map.mpr (List.pairwise_filterMap.mpr ?_)
    refine (List.nodupKeys_iff_pairwise.mp builds.nodupKeys).imp ?_
    intro a b ne build found build' found'
    rw [of_readyBuild found, of_readyBuild found']
    exact ne
  seen _ := List.suffix_refl _
  initial _ _ mem := mem
  ordered _ := List.pairwise_of_forall_mem_list fun entry mem _ _ new => absurd mem new

theorem init_safe (clocked : Prop) (builds : Dict (String × String) (Option BuildData))
    (files : List (String × String)) :
    (outline clocked (readyBuilds builds)).Safe (init builds files) :=
  .of_idle (init_inv builds files) fun _ => ⟨(), rfl, trivial⟩

/-- The calls that set or remove the record of a build, or remove its files. -/
def Removes (key : String × String) : BuilderCall → Prop
  | .shared (.setBuildRecord image build) => (image, build.id) = key
  | .shared (.deleteBuildTree image id) | .shared (.deleteLocalBuild image id)
  | .shared (.removeLocalImage image id _) => (image, id) = key
  | _ => False

theorem eq_of_removes {i j : BuildThread} {c : BuilderCall} (inv : Inv clocked old w)
    (own : w.building i = some key) (req : Req clocked j w c) (removes : Removes key c) :
    j = i := by
  unfold Removes at removes
  split at removes
  case h_1 =>
    obtain rfl := removes
    rcases req with ⟨-, unbuilt⟩ | ⟨found, -⟩
    · exact absurd own (unbuilt.2 i)
    · exact inv.only own found
  case h_2 =>
    obtain rfl := removes
    have unbuilt : Unbuilt _ w := req
    exact absurd own (unbuilt.2 i)
  case h_3 | h_4 =>
    obtain rfl := removes
    by_contra ne
    exact req.2 i (Ne.symm ne) own
  case h_5 => exact removes.elim

/-- **Main result.** While a worker is building, it holds the lock of the image, the record of the
build is BUILDING, and nobody else sets or removes the record or removes the files. -/
theorem running_spared (builds : Dict (String × String) (Option BuildData))
    (files : List (String × String)) {cfg : Config buildSystem}
    (run : buildSystem.Run buildSystem.always (init builds files) cfg) :
    (∀ (i : BuildThread) (image id : String)
        (k : BuilderSig.Reply (.runDib image id) → Prog BuilderSig Unit),
      cfg.thread i = .call (.runDib image id) k → cfg.world.building i = some (image, id) ∧
        ∃ data, cfg.world.read (image, id) = some data ∧ data.state = .building) ∧
    ∀ (i : BuildThread) (key : String × String), cfg.world.building i = some key →
      cfg.world.lock key.1 = some i ∧
      (∀ data, cfg.world.read key = some data → data.state = .building) ∧
      ∀ (j : BuildThread) (c : BuilderCall) (k : BuilderSig.Reply c → Prog BuilderSig Unit),
        cfg.thread j = .call c k → Removes key c → j = i := by
  have safe := (outline False _).sound (init_safe False builds files)
    (run.mono fun _ _ _ => False.elim)
  refine ⟨fun i image id k next => ?_, fun i key own =>
    ⟨safe.inv.locked i key own, safe.inv.running i key own, fun j c k next => ?_⟩⟩
  · obtain ⟨own, data, read⟩ : Req False i cfg.world (.runDib image id) := safe.req next
    exact ⟨own, data, read, safe.inv.running i _ own data read⟩
  · exact eq_of_removes safe.inv own (safe.req next)

def exampleImage : BuildDiskImage := ⟨"fedora", false, ["qcow2"], 10⟩

def otherImage : BuildDiskImage := ⟨"debian", false, ["qcow2"], 10⟩

/-- A build of the first image that has aged out. -/
def exampleBuilds : Dict (String × String) (Option BuildData) :=
  (∅ : Dict _ _).insert ("fedora", "1") (some ⟨.ready, ["qcow2"], 1000000⟩)

/-- Answers of calls that succeed. -/
def exampleAnswer (paused : Bool) (w : BuildWorld) : (c : BuilderCall) → BuilderSig.Reply c
  | .shared .isRunning | .checkConfigRecent => .ok true
  | .shared (.acquireBuildLock image) => .ok (decide (w.lock image = none))
  | .suspended | .lost | .lostConnection => .ok false
  | .getImagePaused _ => .ok paused
  | .shared .time => .ok (20000000 + w.log.length)
  | .shared (.getBuildIds image) => .ok ((w.builds.keys.filter (·.1 = image)).map Prod.snd)
  | .shared (.getBuildRecord image id) => .ok (w.readRecord (image, id))
  | .newBuildId image => .ok (if image = "fedora" then "2" else "3")
  | .hasBuildRequest image => .ok (w.requests image)
  | .runDib _ _ => .ok ⟨some 0, false⟩
  | .shared (.setBuildRecord _ _) | .shared (.releaseBuildLock _) | .createBuild _ _ _
  | .assignLostConnection _ | .pruneBuildLogs _ | .awaitConnection | .reportBuild _
  | .removeBuildRequest _ => .ok ()
  | _ => .error .other

/-- A worker finds the image due, up to the given call. -/
def dueSchedule (calls : Nat) : List (System.Action buildSystem) :=
  .start (.build 0) (.build [exampleImage]) ::
    List.replicate calls (.respond (.build 0) (exampleAnswer false) 0)

theorem running_spared_dueSchedule : ∃ cfg,
    System.exec (fun _ _ => true) (init exampleBuilds []) (dueSchedule 16) = some cfg ∧
      cfg.world.lock "fedora" = some (.build 0) ∧
      ∃ data, cfg.world.read ("fedora", "2") = some data ∧ data.state = .building := by
  have hexec : ∃ cfg,
      System.exec (fun _ _ => true) (init exampleBuilds []) (dueSchedule 16) = some cfg ∧
        ∃ k, cfg.thread (.build 0) = .call (.runDib "fedora" "2") k :=
    ⟨_, by with_unfolding_all rfl, _, by with_unfolding_all rfl⟩
  obtain ⟨cfg, hcfg, k, next⟩ := hexec
  obtain ⟨first, rest⟩ := running_spared exampleBuilds []
    (System.exec_run buildSystem.always (fun _ _ _ => trivial) hcfg)
  obtain ⟨own, data⟩ := first _ _ _ k next
  exact ⟨cfg, hcfg, (rest _ _ own).1, data⟩

/-- **Main result.** If the clocks are in step, then a worker that stores a new build has the lock
of the image, and there is a build request, or no build of the image has become READY since the
worker last looked without the lock. -/
theorem build_due (builds : Dict (String × String) (Option BuildData))
    (files : List (String × String)) {cfg : Config buildSystem}
    (run : buildSystem.Run InStep (init builds files) cfg) {i : BuildThread} {image id : String}
    {data : BuildData} {k : BuilderSig.Reply (.createBuild image id data) → Prog BuilderSig Unit}
    (next : cfg.thread i = .call (.createBuild image id data) k) :
    cfg.world.lock image = some i ∧ data.state = .building ∧
      (cfg.world.requests image = true ∨ NoneSince i image cfg.world) := by
  have safe := (outline True _).sound (init_safe True builds files) (run.mono fun _ _ h _ => h)
  obtain ⟨own, state, reason⟩ : Req True i cfg.world (.createBuild image id data) := safe.req next
  exact ⟨safe.inv.locked i _ own, state, reason.imp_right fun none => none trivial⟩

/-- The steps in which the clocks are in step. -/
def inStep (w : BuildWorld) : Event buildSystem → Bool
  | .call (.build _) (.shared .time) (.ok now) => w.log.all fun entry => entry.time < now
  | _ => true

theorem inStep_of_allowed {e : Event buildSystem} (h : inStep w e = true) : InStep w e := by
  unfold InStep
  split
  · simpa [inStep] using h
  · trivial

/-- Two workers find the same image due, of which the second one has built another image since the
first one looked. The first one gets the lock, the second one does not. -/
def twoWorkers : List (System.Action buildSystem) :=
  dueSchedule 8 ++
    .start (.build 1) (.build [otherImage, exampleImage]) ::
      List.replicate 29 (.respond (.build 1) (exampleAnswer false) 0) ++
    List.replicate 6 (.respond (.build 0) (exampleAnswer false) 0) ++
    [.respond (.build 1) (exampleAnswer false) 0]

theorem build_due_twoWorkers : ∃ cfg,
    System.exec inStep (init exampleBuilds []) twoWorkers = some cfg ∧
      cfg.world.seen (.build 0) ≠ cfg.world.log ∧
      cfg.world.lock "fedora" = some (.build 0) ∧ NoneSince (.build 0) "fedora" cfg.world := by
  have hexec : ∃ cfg,
      System.exec inStep (init exampleBuilds []) twoWorkers = some cfg ∧
        cfg.world.requests "fedora" = false ∧
        decide (cfg.world.seen (.build 0) = cfg.world.log) = false ∧
        ∃ data k, cfg.thread (.build 0) = .call (.createBuild "fedora" "2" data) k :=
    ⟨_, by with_unfolding_all rfl, by with_unfolding_all rfl, by with_unfolding_all rfl, _, _,
      by with_unfolding_all rfl⟩
  obtain ⟨cfg, hcfg, unrequested, unseen, data, k, next⟩ := hexec
  obtain ⟨held, -, reason⟩ := build_due exampleBuilds []
    (System.exec_run InStep (fun _ _ => inStep_of_allowed) hcfg) next
  exact ⟨cfg, hcfg, of_decide_eq_false unseen, held,
    reason.resolve_left (by simp [unrequested])⟩

/-- **Main result.** A build request is removed by the worker that has the lock of the image and
has stored a READY build, whose id it made up while there was a request. -/
theorem request_served (builds : Dict (String × String) (Option BuildData))
    (files : List (String × String)) {cfg : Config buildSystem}
    (run : buildSystem.Run buildSystem.always (init builds files) cfg) {i : BuildThread}
    {image : String} {k : BuilderSig.Reply (.removeBuildRequest image) → Prog BuilderSig Unit}
    (next : cfg.thread i = .call (.removeBuildRequest image) k) :
    cfg.world.lock image = some i ∧
      ∃ id, cfg.world.asked i = some (image, id) ∧ cfg.world.made i = some (image, id) ∧
        ∃ entry ∈ cfg.world.log, entry.key = (image, id) := by
  have safe := (outline False _).sound (init_safe False builds files)
    (run.mono fun _ _ _ => False.elim)
  obtain ⟨held, id, asked, made⟩ : Req False i cfg.world (.removeBuildRequest image) :=
    safe.req next
  exact ⟨held, id, asked, made, (safe.inv.made i _ made).2⟩

/-- A user has asked for a build. -/
def requested : Config buildSystem where
  world :=
    { BuildWorld.init exampleBuilds [] with
      requests := Function.update (fun _ => false) "fedora" true }
  thread _ := .pure ()

/-- The image is paused during the check for scheduled builds, and not any more during the
check for requests. -/
def requestSchedule : List (System.Action buildSystem) :=
  .start (.build 0) (.build [exampleImage]) ::
    List.replicate 5 (.respond (.build 0) (exampleAnswer true) 0) ++
    List.replicate 20 (.respond (.build 0) (exampleAnswer false) 0)

theorem request_served_requestSchedule : ∃ cfg,
    System.exec (fun _ _ => true) requested requestSchedule = some cfg ∧
      cfg.world.lock "fedora" = some (.build 0) ∧
      ∃ id, cfg.world.asked (.build 0) = some ("fedora", id) ∧
        cfg.world.made (.build 0) = some ("fedora", id) ∧
        ∃ entry ∈ cfg.world.log, entry.key = ("fedora", id) := by
  have hexec : ∃ cfg, System.exec (fun _ _ => true) requested requestSchedule = some cfg ∧
      ∃ k, cfg.thread (.build 0) = .call (.removeBuildRequest "fedora") k :=
    ⟨_, by with_unfolding_all rfl, _, by with_unfolding_all rfl⟩
  obtain ⟨cfg, hcfg, k, next⟩ := hexec
  have submitted : buildSystem.Run buildSystem.always (init exampleBuilds []) requested :=
    .tail .refl trivial (.env (.submit "fedora"))
  obtain ⟨held, served⟩ := request_served exampleBuilds []
    (submitted.trans (System.exec_run _ (fun _ _ _ => trivial) hcfg)) next
  exact ⟨cfg, hcfg, held, served⟩

end BuildSystem

end Nodepool
