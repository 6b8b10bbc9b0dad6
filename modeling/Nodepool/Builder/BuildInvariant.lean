import Nodepool.Builder.BuildSystem

/-!
What holds of builds while build workers, cleanup workers and users are at work.

A worker that has made up the id of a build holds the lock of the image until it has stored how
the build ended, and until then nobody else marks or removes the build. While a thread holds the
lock of an image, no build of the image becomes READY but by it.
-/

namespace Nodepool

open Effect Method

namespace BuildSystem

open BuildWorld

/-- The id of the build is taken, and no worker is building it. -/
def Unbuilt (key : String × String) (w : BuildWorld) : Prop :=
  key.2 ∈ w.used ∧ ∀ j, w.building j ≠ some key

/-- The id of the build is taken, and no other worker is building it. -/
def Spared (i : BuildThread) (key : String × String) (w : BuildWorld) : Prop :=
  key.2 ∈ w.used ∧ ∀ j, j ≠ i → w.building j ≠ some key

def IsReady (w : BuildWorld) (key : String × String) : Prop :=
  ∃ data, w.read key = some data ∧ data.state = .ready

/-- No build of the image is READY that has become so since the thread last looked without the
lock. -/
def NoneSince (i : BuildThread) (image : String) (w : BuildWorld) : Prop :=
  ∀ entry ∈ w.log, entry ∉ w.seen i → entry.key.1 = image → ¬ IsReady w entry.key

/-- The state time of a build that is to be READY is later than those of the READY builds of the
image. -/
def Latest (image : String) (time : Nat) (w : BuildWorld) : Prop :=
  ∀ entry ∈ w.log, entry.key.1 = image → entry.time < time

variable (clocked : Prop) (old : List ReadyBuild)

/-- The invariant. If the clocks are in step, the state times follow the order in which builds
have become READY, up to those that were READY at the start. -/
structure Inv (w : BuildWorld) : Prop where
  locked : ∀ i key, w.building i = some key → w.lock key.1 = some i
  running : ∀ i key, w.building i = some key → ∀ data, w.read key = some data →
    data.state = .building
  files : ∀ i key, w.building i = some key → key ∈ w.files → ∃ data, w.read key = some data
  usedBuilding : ∀ i key, w.building i = some key → key.2 ∈ w.used
  usedBuilds : ∀ key ∈ w.builds, key.2 ∈ w.used
  usedFiles : ∀ key ∈ w.files, key.2 ∈ w.used
  usedLog : ∀ entry ∈ w.log, entry.key.2 ∈ w.used
  unlogged : ∀ i key, w.building i = some key → ∀ entry ∈ w.log, entry.key ≠ key
  made : ∀ i key, w.made i = some key → w.lock key.1 = some i ∧ ∃ entry ∈ w.log, entry.key = key
  logged : ∀ key data, w.read key = some data → data.state = .ready →
    ⟨key, data.stateTime⟩ ∈ w.log
  once : (w.log.map ReadyBuild.key).Nodup
  seen : ∀ i, w.seen i <:+ w.log
  initial : ∀ i, ∀ entry ∈ old, entry ∈ w.seen i
  ordered : clocked → w.log.Pairwise fun entry earlier =>
    entry ∉ old → entry.key.1 = earlier.key.1 → earlier.time < entry.time

/-- What a thread respects when it makes a call. -/
def Req (i : BuildThread) (w : BuildWorld) : BuilderCall → Prop
  | .shared (.setBuildRecord image build) =>
      build.state = .deleting ∧ Unbuilt (image, build.id) w ∨
      w.building i = some (image, build.id) ∧ build.state ≠ .building ∧
        (clocked → build.state = .ready → Latest image build.stateTime w)
  | .shared (.deleteBuildTree image id) => Unbuilt (image, id) w
  | .shared (.deleteLocalBuild image id) => Spared i (image, id) w
  | .shared (.removeLocalImage image id _) => Spared i (image, id) w
  | .newBuildId image => w.lock image = some i
  | .createBuild image id data => w.building i = some (image, id) ∧ data.state = .building ∧
      (w.requests image = true ∨ (clocked → NoneSince i image w))
  | .runDib image id => w.building i = some (image, id) ∧ ∃ data, w.read (image, id) = some data
  | .removeBuildRequest image => w.lock image = some i ∧
      ∃ id, w.asked i = some (image, id) ∧ w.made i = some (image, id)
  | _ => True

/-- What the other threads leave as it is. -/
structure Rely (j : BuildThread) (w w' : BuildWorld) : Prop where
  building : w'.building j = w.building j
  asked : w'.asked j = w.asked j
  made : w'.made j = w.made j
  seen : w'.seen j = w.seen j
  locked : ∀ image, w.lock image = some j → w'.lock image = some j
  log : ∀ entry ∈ w.log, entry ∈ w'.log
  sameLog : ∀ image, w.lock image = some j → ∀ entry ∈ w'.log, entry.key.1 = image → entry ∈ w.log
  ready : ∀ image, w.lock image = some j → ∀ id data, w'.read (image, id) = some data →
    data.state = .ready → w.read (image, id) = some data
  requests : ∀ image, w.lock image = some j → w.requests image = true → w'.requests image = true
  mine : ∀ key, w.building j = some key → w'.read key = w.read key
  used : ∀ id ∈ w.used, id ∈ w'.used
  files : ∀ key ∈ w.files, key ∈ w'.files
  fresh : ∀ n key, w'.building n = some key → w.building n = some key ∨ key.2 ∉ w.used

variable {clocked old} {w w' w'' : BuildWorld} {i j : BuildThread} {key other : String × String}

theorem Unbuilt.spared (h : Unbuilt key w) : Spared i key w := ⟨h.1, fun j _ => h.2 j⟩

theorem Rely.refl (j : BuildThread) (w : BuildWorld) : Rely j w w :=
  ⟨rfl, rfl, rfl, rfl, fun _ h => h, fun _ h => h, fun _ _ _ h _ => h, fun _ _ _ _ h _ => h,
    fun _ _ h => h, fun _ _ => rfl, fun _ h => h, fun _ h => h, fun _ _ h => .inl h⟩

theorem Rely.trans (h : Rely j w w') (h' : Rely j w' w'') : Rely j w w'' where
  building := h'.building.trans h.building
  asked := h'.asked.trans h.asked
  made := h'.made.trans h.made
  seen := h'.seen.trans h.seen
  locked image held := h'.locked image (h.locked image held)
  log entry mem := h'.log entry (h.log entry mem)
  sameLog image held entry mem own :=
    h.sameLog image held entry (h'.sameLog image (h.locked image held) entry mem own) own
  ready image held id data read ready :=
    h.ready image held id data (h'.ready image (h.locked image held) id data read ready) ready
  requests image held requested :=
    h'.requests image (h.locked image held) (h.requests image held requested)
  mine key own := (h'.mine key (h.building.trans own)).trans (h.mine key own)
  used id mem := h'.used id (h.used id mem)
  files key mem := h'.files key (h.files key mem)
  fresh n key found := by
    rcases h'.fresh n key found with found | new
    · exact h.fresh n key found
    · exact .inr fun mem => new (h.used _ mem)

/-! ### Reading -/

@[simp] theorem read_touch : (w.touch other).read key = w.read key := by
  unfold BuildWorld.read touch Dict.setdefault
  split
  · rfl
  · rename_i absent
    by_cases e : key = other
    · subst e
      rw [AList.lookup_insert, AList.lookup_eq_none.mpr absent]
      rfl
    · rw [AList.lookup_insert_ne e]

theorem read_of_insert {data : BuildData} (h : w'.builds = w.builds.insert other (some data)) :
    w'.read key = if key = other then some data else w.read key := by
  unfold BuildWorld.read
  rw [h]
  split
  · rename_i e
    rw [e, AList.lookup_insert]
    rfl
  · rename_i e
    rw [AList.lookup_insert_ne e]

theorem read_insert {data : BuildData} :
    ({ w with builds := w.builds.insert other (some data) } : BuildWorld).read key =
      if key = other then some data else w.read key :=
  read_of_insert rfl

theorem read_delete : (w.delete other).read key = if key = other then none else w.read key := by
  unfold BuildWorld.read BuildWorld.delete
  split
  · rename_i e
    rw [e, AList.lookup_erase]
    rfl
  · rename_i e
    rw [AList.lookup_erase_ne e]

theorem mem_of_read {data : BuildData} (h : w.read key = some data) : key ∈ w.builds := by
  refine AList.lookup_isSome.mp ?_
  unfold BuildWorld.read at h
  cases found : w.builds.lookup key with
  | none =>
      rw [found] at h
      cases h
  | some stored => rfl

/-! ### One step -/

theorem files_stepped {c : BuilderCall} (hs : Stepped i w c w') :
    ∀ key ∈ w.files, key ∈ w'.files := by
  cases hs with
  | look c image =>
      unfold look
      split <;> exact fun _ h => h
  | addFiles image id => exact fun _ h => List.mem_cons_of_mem _ h
  | _ => exact fun _ h => h

/-- The ids of builds stay taken, and the id of a build that a worker begins is new. -/
theorem fresh_stepped {c : BuilderCall} (hs : Stepped i w c w') :
    (∀ id ∈ w.used, id ∈ w'.used) ∧
      ∀ n key, w'.building n = some key → w.building n = some key ∨ key.2 ∉ w.used := by
  cases hs with
  | look c image =>
      unfold look
      split <;> exact ⟨fun _ h => h, fun _ _ h => .inl h⟩
  | release image released =>
      refine ⟨fun _ h => h, fun n key found => .inl ?_⟩
      by_cases e : n = i
      · subst e
        simp [BuildWorld.release] at found
      · simpa [BuildWorld.release, Function.update_of_ne e] using found
  | store image build stored =>
      refine ⟨fun _ h => h, fun n key found => .inl ?_⟩
      simp only [finish] at found
      split at found
      · by_cases e : n = i
        · subst e
          simp at found
        · simpa [Function.update_of_ne e] using found
      · exact found
  | touch c key => exact ⟨fun _ h => List.mem_cons_of_mem _ h, fun _ _ h => .inl h⟩
  | reserve image id new =>
      refine ⟨fun _ h => List.mem_cons_of_mem _ h, fun n key found => ?_⟩
      by_cases e : n = i
      · subst e
        simp only [reserve, Function.update_self, Option.some.injEq] at found
        exact .inr (found ▸ new)
      · exact .inl (by simpa [reserve, Function.update_of_ne e] using found)
  | _ => exact ⟨fun _ h => h, fun _ _ h => .inl h⟩

theorem Unbuilt.stepped {c : BuilderCall} (h : Unbuilt key w) (hs : Stepped i w c w') :
    Unbuilt key w' := by
  obtain ⟨used, fresh⟩ := fresh_stepped hs
  exact ⟨used _ h.1, fun j found => (fresh j key found).elim (h.2 j) fun new => new h.1⟩

theorem Spared.stepped {c : BuilderCall} (h : Spared i key w) (hs : Stepped j w c w') :
    Spared i key w' := by
  obtain ⟨used, fresh⟩ := fresh_stepped hs
  exact ⟨used _ h.1, fun j ne found => (fresh j key found).elim (h.2 j ne) fun new => new h.1⟩

theorem inv_look {image : String} (h : Inv clocked old w) : Inv clocked old (w.look i image) := by
  unfold look
  split
  · exact h
  · refine { h with seen := fun n => ?_, initial := fun n => ?_ }
    · by_cases e : n = i
      · subst e
        simp
      · simpa [Function.update_of_ne e] using h.seen n
    · by_cases e : n = i
      · subst e
        simpa using fun entry mem => (h.seen n).subset (h.initial n entry mem)
      · simpa [Function.update_of_ne e] using h.initial n

theorem lock_acquire {image other : String} (free : w.lock image = none)
    (held : w.lock other = some j) : (w.acquire i image).lock other = some j := by
  have ne : other ≠ image := by
    rintro rfl
    rw [free] at held
    cases held
  simpa [BuildWorld.acquire, Function.update_of_ne ne] using held

theorem inv_acquire {image : String} (h : Inv clocked old w) (free : w.lock image = none) :
    Inv clocked old (w.acquire i image) :=
  { h with
    locked := fun n key found => lock_acquire free (h.locked n key found)
    made := fun n key found => ⟨lock_acquire free (h.made n key found).1, (h.made n key found).2⟩ }

/-- A lock that is released was held by the thread itself. -/
theorem lock_release {image other : String} {released : Bool} (held : w.lock other = some j)
    (ne : j ≠ i) : (w.release i image released).lock other = some j := by
  simp only [BuildWorld.release]
  split
  · rename_i own
    have ne' : other ≠ image := by
      rintro rfl
      exact ne (Option.some.inj (held.symm.trans own.2))
    rw [Function.update_of_ne ne']
    exact held
  · exact held

theorem update_none {f : BuildThread → Option (String × String)}
    (found : Function.update f i none j = some key) : j ≠ i ∧ f j = some key := by
  by_cases e : j = i
  · subst e
    rw [Function.update_self] at found
    cases found
  · rw [Function.update_of_ne e] at found
    exact ⟨e, found⟩

theorem inv_release {image : String} {released : Bool} (h : Inv clocked old w) :
    Inv clocked old (w.release i image released) :=
  { h with
    locked := fun n key found =>
      let ⟨ne, found⟩ := update_none found
      lock_release (h.locked n key found) ne
    running := fun n key found => h.running n key (update_none found).2
    files := fun n key found => h.files n key (update_none found).2
    usedBuilding := fun n key found => h.usedBuilding n key (update_none found).2
    unlogged := fun n key found => h.unlogged n key (update_none found).2
    made := fun n key found =>
      let ⟨ne, found⟩ := update_none found
      ⟨lock_release (h.made n key found).1 ne, (h.made n key found).2⟩ }

theorem inv_delete (h : Inv clocked old w) (unbuilt : Unbuilt other w) :
    Inv clocked old (w.delete other) :=
  { h with
    running := fun n key found data read => by
      rw [read_delete] at read
      split at read
      · cases read
      · exact h.running n key found data read
    files := fun n key found mem => by
      have ne : key ≠ other := fun e => unbuilt.2 n (e ▸ found)
      rw [read_delete, if_neg ne]
      exact h.files n key found mem
    usedBuilds := fun key mem => h.usedBuilds key ((AList.mem_erase).mp mem).2
    logged := fun key data read => by
      rw [read_delete] at read
      split at read
      · cases read
      · exact h.logged key data read }

theorem inv_touch (h : Inv clocked old w) : Inv clocked old (w.touch other) :=
  { h with
    running := fun n key found data read => h.running n key found data (read_touch ▸ read)
    files := fun n key found mem => by
      rw [read_touch]
      exact h.files n key found mem
    usedBuilding := fun n key found => List.mem_cons_of_mem _ (h.usedBuilding n key found)
    usedBuilds := fun key mem => by
      rcases Dict.mem_setdefault.mp mem with rfl | mem
      · exact List.mem_cons_self
      · exact List.mem_cons_of_mem _ (h.usedBuilds key mem)
    usedFiles := fun key mem => List.mem_cons_of_mem _ (h.usedFiles key mem)
    usedLog := fun entry mem => List.mem_cons_of_mem _ (h.usedLog entry mem)
    logged := fun key data read => h.logged key data (read_touch ▸ read) }

/-- What is known of a build whose id is new. -/
theorem Inv.new (h : Inv clocked old w) {id : String} (new : id ∉ w.used) (image : String) :
    w.read (image, id) = none ∧ (image, id) ∉ w.files ∧
      ∀ entry ∈ w.log, entry.key ≠ (image, id) := by
  refine ⟨?_, fun mem => new (h.usedFiles _ mem), fun entry mem e => new ?_⟩
  · cases read : w.read (image, id) with
    | none => rfl
    | some data => exact absurd (h.usedBuilds _ (mem_of_read read)) new
  · have taken := h.usedLog entry mem
    rwa [e] at taken

theorem update_some {f : BuildThread → Option (String × String)} {new : String × String}
    (found : Function.update f i (some new) j = some key) :
    j = i ∧ key = new ∨ j ≠ i ∧ f j = some key := by
  by_cases e : j = i
  · subst e
    rw [Function.update_self] at found
    exact .inl ⟨rfl, (Option.some.inj found).symm⟩
  · rw [Function.update_of_ne e] at found
    exact .inr ⟨e, found⟩

theorem inv_reserve {image id : String} (h : Inv clocked old w) (held : w.lock image = some i)
    (new : id ∉ w.used) : Inv clocked old (w.reserve i image id) := by
  obtain ⟨unread, fileless, unlogged⟩ := h.new new image
  exact { h with
    locked := fun n key found => by
      rcases update_some found with ⟨rfl, rfl⟩ | ⟨-, found⟩
      · exact held
      · exact h.locked n key found
    running := fun n key found data read => by
      rcases update_some found with ⟨rfl, rfl⟩ | ⟨-, found⟩
      · cases unread.symm.trans read
      · exact h.running n key found data read
    files := fun n key found mem => by
      rcases update_some found with ⟨rfl, rfl⟩ | ⟨-, found⟩
      · exact absurd mem fileless
      · exact h.files n key found mem
    usedBuilding := fun n key found => by
      rcases update_some found with ⟨rfl, rfl⟩ | ⟨-, found⟩
      · exact List.mem_cons_self
      · exact List.mem_cons_of_mem _ (h.usedBuilding n key found)
    usedBuilds := fun key mem => List.mem_cons_of_mem _ (h.usedBuilds key mem)
    usedFiles := fun key mem => List.mem_cons_of_mem _ (h.usedFiles key mem)
    usedLog := fun entry mem => List.mem_cons_of_mem _ (h.usedLog entry mem)
    unlogged := fun n key found => by
      rcases update_some found with ⟨rfl, rfl⟩ | ⟨-, found⟩
      · exact unlogged
      · exact h.unlogged n key found }

theorem inv_create {image id : String} {data : BuildData} (h : Inv clocked old w)
    (own : w.building i = some (image, id)) (state : data.state = .building) :
    Inv clocked old { w with builds := w.builds.insert (image, id) (some data) } :=
  { h with
    running := fun n key found stored read => by
      rw [read_insert] at read
      split at read
      · exact Option.some.inj read ▸ state
      · exact h.running n key found stored read
    files := fun n key found mem => by
      rw [read_insert]
      split
      · exact ⟨data, rfl⟩
      · exact h.files n key found mem
    usedBuilds := fun key mem => by
      rcases (AList.mem_insert _).mp mem with rfl | mem
      · exact h.usedBuilding i _ own
      · exact h.usedBuilds key mem
    logged := fun key stored read ready => by
      rw [read_insert] at read
      split at read
      · rw [← Option.some.inj read, state] at ready
        cases ready
      · exact h.logged key stored read ready }

theorem inv_addFiles {image id : String} (h : Inv clocked old w)
    (own : w.building i = some (image, id)) (stored : ∃ data, w.read (image, id) = some data) :
    Inv clocked old (w.addFiles (image, id)) :=
  { h with
    files := fun n key found mem => by
      rcases List.mem_cons.mp mem with rfl | mem
      · exact stored
      · exact h.files n key found mem
    usedFiles := fun key mem => by
      rcases List.mem_cons.mp mem with rfl | mem
      · exact h.usedBuilding i _ own
      · exact h.usedFiles key mem }

/-- The data of a build changes that no worker is building. -/
theorem inv_set (data : BuildData) (h : Inv clocked old w) (unbuilt : Unbuilt key w)
    (logged : data.state = .ready → ⟨key, data.stateTime⟩ ∈ w.log) :
    Inv clocked old { w with builds := w.builds.insert key (some data) } :=
  { h with
    running := fun n other found stored read => by
      have ne : other ≠ key := fun e => unbuilt.2 n (e ▸ found)
      rw [read_insert, if_neg ne] at read
      exact h.running n other found stored read
    files := fun n other found mem => by
      have ne : other ≠ key := fun e => unbuilt.2 n (e ▸ found)
      rw [read_insert, if_neg ne]
      exact h.files n other found mem
    usedBuilds := fun other mem => by
      rcases (AList.mem_insert _).mp mem with rfl | mem
      · exact unbuilt.1
      · exact h.usedBuilds other mem
    logged := fun other stored read ready => by
      rw [read_insert] at read
      split at read
      · rename_i e
        cases Option.some.inj read
        exact e ▸ logged ready
      · exact h.logged other stored read ready }

/-- Nobody else is building the build of a worker. -/
theorem Inv.only (h : Inv clocked old w) (own : w.building i = some key)
    (found : w.building j = some key) : j = i :=
  Option.some.inj ((h.locked j key found).symm.trans (h.locked i key own))

/-- A worker ends its build, which is not READY. -/
theorem inv_fail (data : BuildData) (h : Inv clocked old w) (own : w.building i = some key)
    (state : data.state ≠ .ready) :
    Inv clocked old { w with
      builds := w.builds.insert key (some data)
      building := Function.update w.building i none } := by
  have others {n : BuildThread} {other : String × String}
      (found : Function.update w.building i none n = some other) :
      w.building n = some other ∧ other ≠ key := by
    obtain ⟨ne, found⟩ := update_none found
    exact ⟨found, fun e => ne (h.only own (e ▸ found))⟩
  have reads (other : String × String) : BuildWorld.read { w with
      builds := w.builds.insert key (some data), building := Function.update w.building i none }
      other = if other = key then some data else w.read other := read_of_insert rfl
  exact { h with
    locked := fun n other found => h.locked n other (others found).1
    running := fun n other found stored read => by
      rw [reads, if_neg (others found).2] at read
      exact h.running n other (others found).1 stored read
    files := fun n other found mem => by
      rw [reads, if_neg (others found).2]
      exact h.files n other (others found).1 mem
    usedBuilding := fun n other found => h.usedBuilding n other (others found).1
    usedBuilds := fun other mem => by
      rcases (AList.mem_insert _).mp mem with rfl | mem
      · exact h.usedBuilding i other own
      · exact h.usedBuilds other mem
    unlogged := fun n other found => h.unlogged n other (others found).1
    logged := fun other stored read ready => by
      rw [reads] at read
      split at read
      · exact absurd (Option.some.inj read ▸ ready) state
      · exact h.logged other stored read ready }

/-- A build comes into the log. -/
theorem Inv.append (time : Nat) (h : Inv clocked old w) (held : w.lock key.1 = some i)
    (used : key.2 ∈ w.used) (new : ∀ entry ∈ w.log, entry.key ≠ key)
    (idle : ∀ n, w.building n ≠ some key) (latest : clocked → Latest key.1 time w) :
    Inv clocked old { w with
      made := Function.update w.made i (some key), log := ⟨key, time⟩ :: w.log } :=
  { h with
    usedLog := fun entry mem => by
      rcases List.mem_cons.mp mem with rfl | mem
      · exact used
      · exact h.usedLog entry mem
    unlogged := fun n other found entry mem => by
      rcases List.mem_cons.mp mem with rfl | mem
      · exact fun e => idle n (by rw [found, ← e])
      · exact h.unlogged n other found entry mem
    made := fun n other found => by
      rcases update_some found with ⟨rfl, rfl⟩ | ⟨-, found⟩
      · exact ⟨held, _, List.mem_cons_self, rfl⟩
      · obtain ⟨held, entry, mem, e⟩ := h.made n other found
        exact ⟨held, entry, List.mem_cons_of_mem _ mem, e⟩
    logged := fun other stored read ready =>
      List.mem_cons_of_mem _ (h.logged other stored read ready)
    once := by
      rw [List.map_cons, List.nodup_cons]
      refine ⟨fun mem => ?_, h.once⟩
      obtain ⟨entry, mem, e⟩ := List.mem_map.mp mem
      exact new entry mem e
    seen := fun n => (h.seen n).trans (List.suffix_cons _ _)
    ordered := fun clock => List.pairwise_cons.mpr
      ⟨fun earlier mem _ same => latest clock earlier mem same.symm, h.ordered clock⟩ }

theorem finish_of_own {data : BuildData} (own : w.building i = some key) :
    { w with builds := w.builds.insert key (some data) }.finish i key data =
      { w with
        builds := w.builds.insert key (some data)
        building := Function.update w.building i none
        made := if data.state = .ready then Function.update w.made i (some key) else w.made
        log := if data.state = .ready then ⟨key, data.stateTime⟩ :: w.log else w.log } := by
  simp [finish, own]

/-- A worker stores how its build has ended. -/
theorem inv_end {data : BuildData} (h : Inv clocked old w) (own : w.building i = some key)
    (latest : clocked → data.state = .ready → Latest key.1 data.stateTime w) :
    Inv clocked old
      ({ w with builds := w.builds.insert key (some data) }.finish i key data) := by
  rw [finish_of_own own]
  by_cases ready : data.state = .ready
  · have idle (n : BuildThread) : Function.update w.building i none n ≠ some key := fun found =>
      (update_none found).1 (h.only own (update_none found).2)
    -- as if it had failed first
    have failed := inv_fail { data with state := .failed } h own (by simp)
    have logged := failed.append data.stateTime (h.locked i key own) (h.usedBuilding i key own)
      (h.unlogged i key own) idle fun clock => latest clock ready
    have set := inv_set data logged ⟨h.usedBuilding i key own, idle⟩ fun _ => List.mem_cons_self
    simpa [ready] using set
  · simpa [ready] using inv_fail data h own ready

/-- A build is marked that no worker is building. -/
theorem inv_mark {data : BuildData} (h : Inv clocked old w) (state : data.state = .deleting)
    (unbuilt : Unbuilt key w) :
    Inv clocked old
      ({ w with builds := w.builds.insert key (some data) }.finish i key data) := by
  have set := inv_set data h unbuilt fun ready => by simp [state] at ready
  simpa [finish, state, unbuilt.2 i] using set

/-- The step lemma of the invariant. -/
theorem inv_stepped {c : BuilderCall} (h : Inv clocked old w) (req : Req clocked i w c)
    (hs : Stepped i w c w') : Inv clocked old w' := by
  cases hs with
  | same c => exact h
  | look c image => exact inv_look h
  | acquire image free => exact inv_acquire h free
  | release image released => exact inv_release h
  | store image build stored =>
      rcases req with ⟨state, unbuilt⟩ | ⟨own, -, latest⟩
      · exact inv_mark h state unbuilt
      · exact inv_end h own latest
  | delete image id => exact inv_delete h req
  | touch c key => exact inv_touch h
  | reserve image id new => exact inv_reserve h req new
  | create image id data new => exact inv_create h req.1 req.2.1
  | remove image => exact { h with }
  | addFiles image id => exact inv_addFiles h req.1 req.2

/-! ### What the others leave -/

theorem ne_of_held {image other : String} (held : w.lock image = some i) (ne : j ≠ i)
    (held' : w.lock other = some j) : other ≠ image := by
  rintro rfl
  exact ne (Option.some.inj (held'.symm.trans held))

theorem rely_store {data : BuildData} (h : Inv clocked old w) (ne : j ≠ i)
    (req : data.state = .deleting ∧ Unbuilt other w ∨ w.building i = some other)
    (fresh : ∀ n key, ({ w with builds := w.builds.insert other (some data) }.finish i other
      data).building n = some key → w.building n = some key ∨ key.2 ∉ w.used) :
    Rely j w ({ w with builds := w.builds.insert other (some data) }.finish i other data) := by
  have own (ready : data.state = .ready) : w.lock other.1 = some i := by
    rcases req with ⟨state, -⟩ | own
    · simp [state] at ready
    · exact h.locked i other own
  refine { Rely.refl j w with
    building := ?_, made := ?_, log := ?_, sameLog := ?_, ready := ?_, mine := ?_, fresh := fresh }
  · simp only [finish]
    split
    · exact Function.update_of_ne ne _ _
    · rfl
  · simp only [finish]
    split
    · exact Function.update_of_ne ne _ _
    · rfl
  · intro entry mem
    simp only [finish]
    split
    · exact List.mem_cons_of_mem _ mem
    · exact mem
  · intro image held entry mem same
    simp only [finish] at mem
    split at mem
    · rename_i ready
      rcases List.mem_cons.mp mem with rfl | mem
      · exact absurd same.symm (ne_of_held (own ready) ne held)
      · exact mem
    · exact mem
  · intro image held id stored read ready
    rw [show BuildWorld.read _ _ = _ from read_of_insert rfl] at read
    split at read
    · rename_i e
      cases Option.some.inj read
      exact absurd (congrArg Prod.fst e) (ne_of_held (own ready) ne held)
    · exact read
  · intro key mine
    have apart : key ≠ other := by
      rintro rfl
      rcases req with ⟨-, unbuilt⟩ | own
      · exact unbuilt.2 j mine
      · exact ne (h.only own mine)
    exact (read_of_insert rfl).trans (if_neg apart)

/-- What a call of one thread leaves to another one. -/
theorem rely_stepped {c : BuilderCall} (h : Inv clocked old w) (ne : j ≠ i)
    (req : Req clocked i w c) (hs : Stepped i w c w') : Rely j w w' := by
  obtain ⟨used, fresh⟩ := fresh_stepped hs
  cases hs with
  | same c => exact .refl j w
  | look c image =>
      unfold look at *
      split
      · exact .refl j w
      · exact { Rely.refl j w with seen := Function.update_of_ne ne _ _ }
  | acquire image free =>
      exact { Rely.refl j w with locked := fun other held => lock_acquire free held }
  | release image released =>
      exact { Rely.refl j w with
        building := Function.update_of_ne ne _ _
        made := Function.update_of_ne ne _ _
        locked := fun other held => lock_release held ne
        fresh := fresh }
  | store image build stored =>
      have req : build.data.state = .deleting ∧ Unbuilt (image, build.id) w ∨
          w.building i = some (image, build.id) := req.imp id And.left
      exact rely_store h ne req fresh
  | delete image id =>
      have unbuilt : Unbuilt (image, id) w := req
      exact { Rely.refl j w with
        ready := fun image held id data read ready => by
          rw [read_delete] at read
          split at read
          · cases read
          · exact read
        mine := fun key mine => by
          have apart : key ≠ (image, id) := fun e => unbuilt.2 j (e ▸ mine)
          rw [read_delete, if_neg apart] }
  | touch c key =>
      exact { Rely.refl j w with
        ready := fun image held id data read ready => read_touch ▸ read
        mine := fun key mine => read_touch
        used := used }
  | reserve image id new =>
      exact { Rely.refl j w with
        building := Function.update_of_ne ne _ _
        asked := Function.update_of_ne ne _ _
        used := used
        fresh := fresh }
  | create image id data new =>
      obtain ⟨own, state, -⟩ := req
      exact { Rely.refl j w with
        ready := fun image held id stored read ready => by
          rw [read_insert] at read
          split at read
          · rw [← Option.some.inj read, state] at ready
            cases ready
          · exact read
        mine := fun key mine => by
          have apart : key ≠ (image, id) := fun e => ne (h.only own (e ▸ mine))
          rw [read_insert, if_neg apart] }
  | remove image =>
      exact { Rely.refl j w with
        requests := fun other held requested => by
          have apart : other ≠ image := ne_of_held req.1 ne held
          simpa [removeRequest, Function.update_of_ne apart] using requested }
  | addFiles image id =>
      exact { Rely.refl j w with files := fun _ mem => List.mem_cons_of_mem _ mem }

theorem inv_env (h : Inv clocked old w) (env : Env w w') : Inv clocked old w' := by
  cases env with
  | submit image => exact { h with }

theorem rely_env (env : Env w w') : Rely j w w' := by
  cases env with
  | submit image =>
      exact { Rely.refl j w with
        requests := fun other held requested => by
          by_cases e : other = image
          · subst e
            simp
          · simpa [Function.update_of_ne e] using requested }

theorem Unbuilt.rely (h : Unbuilt key w) (hr : Rely j w w') : Unbuilt key w' :=
  ⟨hr.used _ h.1, fun n found => (hr.fresh n key found).elim (h.2 n) fun new => new h.1⟩

theorem Spared.rely (h : Spared i key w) (hr : Rely j w w') : Spared i key w' :=
  ⟨hr.used _ h.1, fun n ne found => (hr.fresh n key found).elim (h.2 n ne) fun new => new h.1⟩

end BuildSystem

end Nodepool
