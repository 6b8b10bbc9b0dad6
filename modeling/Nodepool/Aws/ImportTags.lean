import Mathlib.Data.Finset.Basic
import Nodepool.Base.Dict

/-!
`_tagAmis` and `_tagSnapshots` of `nodepool/driver/aws/adapter.py`, which give an AMI or a
snapshot the tags of the import task that has made it.

Both look for an image import task first, and what is left is looked up among the snapshot import
tasks. They differ in what they pass to `create_tags` in the end.
-/

namespace Nodepool.Aws

/-- The `Key` and the `Value` of each tag. -/
abbrev Tags : Type := List (String × String)

/-- A task of `describe_import_image_tasks`. -/
structure ImageTask where
  tags : Option Tags

/-- A task of `describe_import_snapshot_tasks`; it has no snapshot until it is completed. -/
structure SnapshotTask where
  snapshotId : Option String
  tags : Tags

/-- An entry of `BlockDeviceMappings` has an `Ebs` or not, and this a `SnapshotId` or not. -/
abbrev BlockDevice : Type := Option (Option String)

structure Ami where
  imageId : String
  tags : Tags
  name : String
  blockDeviceMappings : List BlockDevice

structure Snapshot where
  snapshotId : String
  tags : Tags
  description : String

/-- What the cloud has. The identifiers of a listing differ, and a snapshot is made by one
task. -/
structure Cloud where
  amis : List Ami
  snapshots : List Snapshot
  imageTask : String → Option ImageTask
  snapshotTasks : List SnapshotTask
  amis_distinct : (amis.map (·.imageId)).Nodup
  snapshots_distinct : (snapshots.map (·.snapshotId)).Nodup
  tasks_distinct : ∀ task ∈ snapshotTasks, ∀ task' ∈ snapshotTasks, ∀ id,
    task.snapshotId = some id → task'.snapshotId = some id → task = task'

/-- A provider, with the characters that `\w` matches. -/
structure Provider where
  name : String
  word : Char → Bool

/-- The tags have the name of the provider. -/
def Provider.Owns (p : Provider) (tags : Tags) : Prop :=
  (Dict.ofPairs tags).lookup "nodepool_provider_name" = some p.name

instance (p : Provider) (tags : Tags) : Decidable (p.Owns tags) := by
  unfold Provider.Owns
  infer_instance

/-- A text that is not empty. -/
def nonempty : Option String → Option String
  | some s => if s = "" then none else some s
  | none => none

/-- The task in a description, `.*?(import-ami-\w*)`. -/
def importTaskOf (word : Char → Bool) : List Char → Option String
  | [] => none
  | c :: cs =>
      if "import-ami-".toList <+: c :: cs then
        some ("import-ami-" ++ String.ofList (((c :: cs).drop 11).takeWhile word))
      -- `.` does not match the end of a line
      else if c = '\n' then none
      else importTaskOf word cs

/-- What the two functions look at. -/
structure Imported (α : Type) where
  id : α → String
  tags : α → Tags
  /-- the image import task that may have made it -/
  importTask : α → Option String
  /-- the snapshot it is, or was made of -/
  snapshot : α → Option String

def importedAmi : Imported Ami where
  id := Ami.imageId
  tags := Ami.tags
  importTask ami := if "import-ami-".toList <+: ami.name.toList then some ami.name else none
  snapshot ami :=
    match ami.blockDeviceMappings with
    | some ebs :: _ => nonempty ebs
    | _ => none

def importedSnapshot (p : Provider) : Imported Snapshot where
  id := Snapshot.snapshotId
  tags := Snapshot.tags
  importTask snap := importTaskOf p.word snap.description.toList
  snapshot snap := some snap.snapshotId

/-- What is done with an object of the listing. -/
inductive Verdict where
  | skip
  | tag (tags : Tags)
  | ignore
  | examine (snapshotId : String)

/-- `not_our_images` or `not_our_snapshots`, the calls of `create_tags`, and `to_examine`. -/
structure Pass where
  notOurs : Finset String
  calls : List (String × Tags)
  toExamine : List (String × String)

section Tag

variable {α : Type} (p : Provider) (c : Cloud) (K : Imported α)

/-- The tags of an image import task of the provider. -/
def imageTags (taskId : String) : Option Tags :=
  match c.imageTask taskId with
  | some task =>
      match task.tags with
      | some tags => if p.Owns tags then some tags else none
      | none => none
  | none => none

/-- The body of the first loop. -/
def verdict (notOurs : Finset String) (a : α) : Verdict :=
  if K.id a ∈ notOurs then .skip
  else if K.tags a ≠ [] then .skip
  else
    match (K.importTask a).bind (imageTags p c) with
    | some tags => .tag tags
    | none =>
        match K.snapshot a with
        | some snapshotId => .examine snapshotId
        | none => .ignore

/-- The first loop. -/
def examineAll (notOurs : Finset String) : List α → Pass
  | [] => ⟨notOurs, [], []⟩
  | a :: rest =>
      match verdict p c K notOurs a with
      | .skip => examineAll notOurs rest
      | .tag tags =>
          let pass := examineAll notOurs rest
          { pass with calls := (K.id a, tags) :: pass.calls }
      | .ignore => examineAll (insert (K.id a) notOurs) rest
      | .examine snapshotId =>
          let pass := examineAll notOurs rest
          { pass with toExamine := (K.id a, snapshotId) :: pass.toExamine }

/-- `task_map` -/
def taskMap : Dict String Tags :=
  Dict.ofPairs (c.snapshotTasks.filterMap fun task =>
    (nonempty task.snapshotId).map fun id => (id, task.tags))

/-- The last loop; `passed` are the tags that are given to the object. -/
def tagAll (passed : Tags → Tags) : List (String × String) → Finset String →
    List (String × Tags) × Finset String
  | [], notOurs => ([], notOurs)
  | (id, snapshotId) :: rest, notOurs =>
      match (taskMap c).lookup snapshotId with
      | none => tagAll passed rest (insert id notOurs)
      | some tags =>
          if tags ≠ [] ∧ p.Owns tags then
            let (calls, notOurs) := tagAll passed rest notOurs
            ((id, passed tags) :: calls, notOurs)
          else tagAll passed rest (insert id notOurs)

/-- Both loops: the calls of `create_tags`, and the objects to ignore from now on. -/
def tagImported (passed : Tags → Tags) (items : List α) (notOurs : Finset String) :
    List (String × Tags) × Finset String :=
  let pass := examineAll p c K notOurs items
  if pass.toExamine = [] then (pass.calls, pass.notOurs)
  else
    let (calls, notOurs) := tagAll p c passed pass.toExamine pass.notOurs
    (pass.calls ++ calls, notOurs)

end Tag

/-- `_tagSnapshots` -/
def tagSnapshots (p : Provider) (c : Cloud) (notOurSnapshots : Finset String) :
    List (String × Tags) × Finset String :=
  tagImported p c (importedSnapshot p) id c.snapshots notOurSnapshots

/-- What `task` is after the loop that has made `task_map`, whatever the AMI. -/
def lastTask (c : Cloud) : Option SnapshotTask := c.snapshotTasks.getLast?

/-- `_tagAmis`; it passes `task['Tags']`. -/
def tagAmis (p : Provider) (c : Cloud) (notOurImages : Finset String) :
    List (String × Tags) × Finset String :=
  -- where there are tags there is a task
  let passed (tags : Tags) := ((lastTask c).map (·.tags)).getD tags
  tagImported p c importedAmi passed c.amis notOurImages

/-! ### What an object should be given -/

section Produced

variable {α : Type} (p : Provider) (c : Cloud) (K : Imported α)

/-- An image import task of the provider has these tags. -/
def OurImageTask (taskId : String) (tags : Tags) : Prop :=
  ∃ task, c.imageTask taskId = some task ∧ task.tags = some tags ∧ p.Owns tags

/-- The snapshot import task that has made the snapshot is one of the provider. -/
def OurSnapshotTask (snapshotId : String) (tags : Tags) : Prop :=
  ∃ task ∈ c.snapshotTasks, nonempty task.snapshotId = some snapshotId ∧ task.tags = tags ∧
    p.Owns tags

/-- No image import task of the provider has made it. -/
def NoImageTask (a : α) : Prop :=
  ∀ taskId tags, K.importTask a = some taskId → ¬ OurImageTask p c taskId tags

/-- An import task of the provider has made the object, and these are the tags of the task. -/
def Produced (a : α) (tags : Tags) : Prop :=
  (∃ taskId, K.importTask a = some taskId ∧ OurImageTask p c taskId tags) ∨
    NoImageTask p c K a ∧
      ∃ snapshotId, K.snapshot a = some snapshotId ∧ OurSnapshotTask p c snapshotId tags

/-- The objects without tags are given those of the tasks that have made them, and no other object
is given any. -/
def TagsExactly (items : List α) (calls : List (String × Tags)) : Prop :=
  ∀ id tags, (id, tags) ∈ calls ↔ ∃ a ∈ items, K.id a = id ∧ K.tags a = [] ∧ Produced p c K a tags

end Produced

/-! ### What it is given -/

section Given

variable {α : Type} {p : Provider} {c : Cloud} {K : Imported α} {notOurs : Finset String}
  {a : α} {tags : Tags}

theorem imageTags_eq_some {taskId : String} :
    imageTags p c taskId = some tags ↔ OurImageTask p c taskId tags := by
  unfold imageTags OurImageTask
  cases c.imageTask taskId with
  | none => simp
  | some task =>
      obtain ⟨taskTags⟩ := task
      cases taskTags with
      | none => simp
      | some own =>
          by_cases owns : p.Owns own
          · simp only [if_pos owns, Option.some_inj, exists_eq_left']
            exact ⟨fun h => ⟨h, h ▸ owns⟩, And.left⟩
          · simp only [if_neg owns, Option.some_inj, exists_eq_left']
            exact ⟨nofun, fun h => absurd (h.1 ▸ h.2) owns⟩

theorem bind_imageTags_eq_some : (K.importTask a).bind (imageTags p c) = some tags ↔
    ∃ taskId, K.importTask a = some taskId ∧ OurImageTask p c taskId tags := by
  simp only [Option.bind_eq_some_iff, imageTags_eq_some]

theorem bind_imageTags_eq_none :
    (K.importTask a).bind (imageTags p c) = none ↔ NoImageTask p c K a := by
  simp only [Option.eq_none_iff_forall_ne_some, ne_eq, bind_imageTags_eq_some, not_exists, not_and,
    NoImageTask]
  exact forall_comm

theorem verdict_eq_tag : verdict p c K notOurs a = .tag tags ↔ K.id a ∉ notOurs ∧ K.tags a = [] ∧
    ∃ taskId, K.importTask a = some taskId ∧ OurImageTask p c taskId tags := by
  rw [← bind_imageTags_eq_some]
  unfold verdict
  split
  · simp [*]
  split
  · simp [*]
  cases (K.importTask a).bind (imageTags p c) with
  | some => simp_all
  | none => cases K.snapshot a <;> simp

theorem verdict_eq_examine {snapshotId : String} :
    verdict p c K notOurs a = .examine snapshotId ↔ K.id a ∉ notOurs ∧ K.tags a = [] ∧
      NoImageTask p c K a ∧ K.snapshot a = some snapshotId := by
  rw [← bind_imageTags_eq_none]
  unfold verdict
  split
  · simp [*]
  split
  · simp [*]
  cases (K.importTask a).bind (imageTags p c) with
  | some => simp
  | none => cases K.snapshot a <;> simp_all

theorem verdict_congr {notOurs' : Finset String} (h : K.id a ∈ notOurs ↔ K.id a ∈ notOurs') :
    verdict p c K notOurs a = verdict p c K notOurs' a := by
  unfold verdict
  simp only [h]

/-- The first loop: an object that is ignored changes nothing for the others. -/
theorem mem_examineAll {items : List α} {now : Finset String} (distinct : (items.map K.id).Nodup)
    (same : ∀ a ∈ items, K.id a ∈ now ↔ K.id a ∈ notOurs) :
    (∀ id tags, (id, tags) ∈ (examineAll p c K now items).calls ↔
      ∃ a ∈ items, K.id a = id ∧ verdict p c K notOurs a = .tag tags) ∧
    ∀ id snapshotId, (id, snapshotId) ∈ (examineAll p c K now items).toExamine ↔
      ∃ a ∈ items, K.id a = id ∧ verdict p c K notOurs a = .examine snapshotId := by
  induction items generalizing now with
  | nil => simp [examineAll]
  | cons a rest ih =>
      obtain ⟨new, distinct⟩ := List.nodup_cons.mp distinct
      have same' : ∀ a ∈ rest, K.id a ∈ now ↔ K.id a ∈ notOurs := fun b mem =>
        same b (List.mem_cons_of_mem _ mem)
      have head : verdict p c K now a = verdict p c K notOurs a :=
        verdict_congr (same a List.mem_cons_self)
      unfold examineAll
      rw [head]
      cases verdict_a : verdict p c K notOurs a with
      | skip => simpa [verdict_a] using ih distinct same'
      | tag tags =>
          obtain ⟨calls, examine⟩ := ih distinct same'
          simp [verdict_a, calls, examine, eq_comm]
      | ignore =>
          have ignored : ∀ b ∈ rest, K.id b ∈ insert (K.id a) now ↔ K.id b ∈ notOurs := by
            intro b mem
            rw [Finset.mem_insert, same' b mem]
            refine or_iff_right fun h => new ?_
            rw [← h]
            exact List.mem_map_of_mem mem
          simpa [verdict_a] using ih distinct ignored
      | examine snapshotId =>
          obtain ⟨calls, examine⟩ := ih distinct same'
          simp [verdict_a, calls, examine, eq_comm]

theorem nonempty_eq_some {o : Option String} {s : String} (h : nonempty o = some s) :
    o = some s := by
  cases o with
  | none => cases h
  | some s' =>
      rw [nonempty] at h
      split_ifs at h
      exact h

theorem lookup_taskMap {snapshotId : String} : (taskMap c).lookup snapshotId = some tags ↔
    ∃ task ∈ c.snapshotTasks, nonempty task.snapshotId = some snapshotId ∧ task.tags = tags := by
  have mem {id : String} {own : Tags} : (id, own) ∈ (c.snapshotTasks.filterMap fun task =>
      (nonempty task.snapshotId).map fun id => (id, task.tags)) ↔
        ∃ task ∈ c.snapshotTasks, nonempty task.snapshotId = some id ∧ task.tags = own := by
    simp [List.mem_filterMap]
  refine (Dict.lookup_ofPairs fun id own own' h h' => ?_).trans mem
  obtain ⟨task, task_mem, made, rfl⟩ := mem.mp h
  obtain ⟨task', task_mem', made', rfl⟩ := mem.mp h'
  rw [c.tasks_distinct task task_mem task' task_mem' id (nonempty_eq_some made)
    (nonempty_eq_some made')]

theorem Provider.Owns.ne_nil (owns : p.Owns tags) : tags ≠ [] := by
  rintro rfl
  cases owns

theorem lookup_ours {snapshotId : String} :
    ((taskMap c).lookup snapshotId = some tags ∧ tags ≠ [] ∧ p.Owns tags) ↔
      OurSnapshotTask p c snapshotId tags := by
  rw [lookup_taskMap]
  constructor
  · rintro ⟨⟨task, mem, made, rfl⟩, -, owns⟩
    exact ⟨task, mem, made, rfl, owns⟩
  · rintro ⟨task, mem, made, rfl, owns⟩
    exact ⟨⟨task, mem, made, rfl⟩, owns.ne_nil, owns⟩

/-- One round of the last loop. -/
theorem mem_tagAll_cons {passed : Tags → Tags} {rest : List (String × String)}
    {id id₀ snapshotId₀ : String} : ∃ notOurs',
    ((id, tags) ∈ (tagAll p c passed ((id₀, snapshotId₀) :: rest) notOurs).1 ↔
      (∃ own, OurSnapshotTask p c snapshotId₀ own ∧ id = id₀ ∧ passed own = tags) ∨
        (id, tags) ∈ (tagAll p c passed rest notOurs').1) := by
  simp only [← lookup_ours]
  rw [tagAll]
  cases found : (taskMap c).lookup snapshotId₀ with
  | none => exact ⟨insert id₀ notOurs, by simp⟩
  | some own₀ =>
      by_cases ours : own₀ ≠ [] ∧ p.Owns own₀
      · refine ⟨notOurs, ?_⟩
        simp only [if_pos ours, List.mem_cons, Prod.mk.injEq, Option.some_inj]
        refine or_congr_left ⟨?_, ?_⟩
        · rintro ⟨rfl, rfl⟩
          exact ⟨own₀, ⟨rfl, ours⟩, rfl, rfl⟩
        · rintro ⟨own, ⟨rfl, -⟩, rfl, rfl⟩
          exact ⟨rfl, rfl⟩
      · refine ⟨insert id₀ notOurs, ?_⟩
        simp only [if_neg ours, Option.some_inj]
        refine (or_iff_right ?_).symm
        rintro ⟨own, ⟨rfl, ours'⟩, -⟩
        exact ours ours'

/-- The last loop. -/
theorem mem_tagAll {passed : Tags → Tags} {toExamine : List (String × String)} {id : String} :
    (id, tags) ∈ (tagAll p c passed toExamine notOurs).1 ↔ ∃ snapshotId own,
      (id, snapshotId) ∈ toExamine ∧ OurSnapshotTask p c snapshotId own ∧ passed own = tags := by
  induction toExamine generalizing notOurs with
  | nil => simp [tagAll]
  | cons first rest ih =>
      obtain ⟨id₀, snapshotId₀⟩ := first
      obtain ⟨notOurs', round⟩ : ∃ notOurs',
          ((id, tags) ∈ (tagAll p c passed ((id₀, snapshotId₀) :: rest) notOurs).1 ↔
            _ ∨ (id, tags) ∈ (tagAll p c passed rest notOurs').1) := mem_tagAll_cons
      rw [round, ih]
      constructor
      · rintro (⟨own, ours, rfl, given⟩ | ⟨snapshotId, own, mem, ours⟩)
        · exact ⟨snapshotId₀, own, List.mem_cons_self, ours, given⟩
        · exact ⟨snapshotId, own, List.mem_cons_of_mem _ mem, ours⟩
      · rintro ⟨snapshotId, own, mem, ours, given⟩
        rcases List.mem_cons.mp mem with first | mem
        · obtain ⟨rfl, rfl⟩ := Prod.mk.inj first
          exact .inl ⟨own, ours, rfl, given⟩
        · exact .inr ⟨snapshotId, own, mem, ours, given⟩

/-- The tags that are passed for an object. -/
def Given (p : Provider) (c : Cloud) (K : Imported α) (passed : Tags → Tags)
    (notOurs : Finset String) (a : α) (tags : Tags) : Prop :=
  K.id a ∉ notOurs ∧ K.tags a = [] ∧
    ((∃ taskId, K.importTask a = some taskId ∧ OurImageTask p c taskId tags) ∨
      NoImageTask p c K a ∧ ∃ snapshotId own, K.snapshot a = some snapshotId ∧
        OurSnapshotTask p c snapshotId own ∧ passed own = tags)

/-- Both loops. -/
theorem mem_tagImported {passed : Tags → Tags} {items : List α}
    (distinct : (items.map K.id).Nodup) {id : String} :
    (id, tags) ∈ (tagImported p c K passed items notOurs).1 ↔
      ∃ a ∈ items, K.id a = id ∧ Given p c K passed notOurs a tags := by
  obtain ⟨calls, examine⟩ := mem_examineAll (p := p) (c := c) distinct
    fun a _ => Iff.refl (K.id a ∈ notOurs)
  have both : (id, tags) ∈ (tagImported p c K passed items notOurs).1 ↔
      (id, tags) ∈ (examineAll p c K notOurs items).calls ∨ (id, tags) ∈
        (tagAll p c passed (examineAll p c K notOurs items).toExamine
          (examineAll p c K notOurs items).notOurs).1 := by
    unfold tagImported
    by_cases none : (examineAll p c K notOurs items).toExamine = []
    · simp [none, tagAll]
    · simp [none]
  rw [both, calls, mem_tagAll]
  simp only [examine, verdict_eq_tag, verdict_eq_examine]
  constructor
  · rintro (⟨a, mem, same, fresh, untagged, task⟩ |
      ⟨snapshotId, own, ⟨a, mem, same, fresh, untagged, none, made⟩, ours⟩)
    · exact ⟨a, mem, same, fresh, untagged, .inl task⟩
    · exact ⟨a, mem, same, fresh, untagged, .inr ⟨none, snapshotId, own, made, ours⟩⟩
  · rintro ⟨a, mem, same, fresh, untagged, task | ⟨none, snapshotId, own, made, ours⟩⟩
    · exact .inl ⟨a, mem, same, fresh, untagged, task⟩
    · exact .inr ⟨snapshotId, own, ⟨a, mem, same, fresh, untagged, none, made⟩, ours⟩

/-- An object is given what it should, if that is passed for it and it is not ignored. -/
theorem given_iff_produced {passed : Tags → Tags} (untagged : K.tags a = []) :
    (∀ tags, Given p c K passed notOurs a tags ↔ K.tags a = [] ∧ Produced p c K a tags) ↔
      (K.id a ∈ notOurs → ∀ tags, ¬ Produced p c K a tags) ∧
        (K.id a ∉ notOurs → NoImageTask p c K a → ∀ snapshotId tags,
          K.snapshot a = some snapshotId → OurSnapshotTask p c snapshotId tags →
            passed tags = tags) := by
  constructor
  · intro exactly
    refine ⟨fun ignored tags produced => ?_, fun fresh none snapshotId tags made ours => ?_⟩
    · exact ((exactly tags).mpr ⟨untagged, produced⟩).1 ignored
    · obtain ⟨-, produced⟩ := (exactly (passed tags)).mp
        ⟨fresh, untagged, .inr ⟨none, snapshotId, tags, made, ours, rfl⟩⟩
      rcases produced with ⟨taskId, task, ours'⟩ | ⟨-, snapshotId', made', ours'⟩
      · exact absurd ours' (none taskId _ task)
      · rw [made, Option.some_inj] at made'
        subst made'
        have found := (lookup_ours.mpr ours).1
        rw [(lookup_ours.mpr ours').1] at found
        exact Option.some_inj.mp found
  · rintro ⟨unmarked, same⟩ tags
    constructor
    · rintro ⟨fresh, -, task | ⟨none, snapshotId, own, made, ours, rfl⟩⟩
      · exact ⟨untagged, .inl task⟩
      · refine ⟨untagged, .inr ⟨none, snapshotId, made, ?_⟩⟩
        rwa [same fresh none snapshotId own made ours]
    · rintro ⟨-, produced⟩
      have fresh : K.id a ∉ notOurs := fun ignored => unmarked ignored tags produced
      refine ⟨fresh, untagged, produced.imp id ?_⟩
      rintro ⟨none, snapshotId, made, ours⟩
      exact ⟨none, snapshotId, tags, made, ours, same fresh none snapshotId tags made ours⟩

theorem tagsExactly_tagImported {passed : Tags → Tags} {items : List α}
    (distinct : (items.map K.id).Nodup) :
    TagsExactly p c K items (tagImported p c K passed items notOurs).1 ↔
      ∀ a ∈ items, K.tags a = [] →
        (K.id a ∈ notOurs → ∀ tags, ¬ Produced p c K a tags) ∧
          (K.id a ∉ notOurs → NoImageTask p c K a → ∀ snapshotId tags,
            K.snapshot a = some snapshotId → OurSnapshotTask p c snapshotId tags →
              passed tags = tags) := by
  have each : TagsExactly p c K items (tagImported p c K passed items notOurs).1 ↔
      ∀ a ∈ items, K.tags a = [] → ∀ tags,
        Given p c K passed notOurs a tags ↔ K.tags a = [] ∧ Produced p c K a tags := by
    simp only [TagsExactly, mem_tagImported distinct]
    constructor
    · intro exactly a mem _ tags
      have unique {b : α} (mem' : b ∈ items) (same : K.id b = K.id a) : b = a :=
        List.inj_on_of_nodup_map distinct mem' mem same
      constructor
      · intro given
        obtain ⟨b, mem', same, produced⟩ := (exactly (K.id a) tags).mp ⟨a, mem, rfl, given⟩
        rwa [← unique mem' same]
      · intro produced
        obtain ⟨b, mem', same, given⟩ := (exactly (K.id a) tags).mpr ⟨a, mem, rfl, produced⟩
        rwa [← unique mem' same]
    · intro exactly id tags
      refine exists_congr fun a => and_congr_right fun mem => and_congr_right fun _ => ?_
      by_cases untagged : K.tags a = []
      · exact exactly a mem untagged tags
      · exact iff_of_false (fun h => untagged h.2.1) (fun h => untagged h.1)
  rw [each]
  exact forall₂_congr fun a _ => forall_congr' fun untagged => given_iff_produced untagged

end Given

/-! ### A run of both functions -/

/-- A run of `_tagSnapshots` and `_tagAmis`. -/
def TagsRight (p : Provider) (c : Cloud) (notOurSnapshots notOurImages : Finset String) : Prop :=
  TagsExactly p c (importedSnapshot p) c.snapshots (tagSnapshots p c notOurSnapshots).1 ∧
    TagsExactly p c importedAmi c.amis (tagAmis p c notOurImages).1

/-- An object that is ignored was made by no import task of the provider. -/
def IgnoredRightly {α : Type} (p : Provider) (c : Cloud) (K : Imported α) (items : List α)
    (notOurs : Finset String) : Prop :=
  ∀ a ∈ items, K.tags a = [] → K.id a ∈ notOurs → ∀ tags, ¬ Produced p c K a tags

/-- The last snapshot import task of the listing has the tags of the one that has made the snapshot
of an AMI, whenever an AMI is tagged for its snapshot. -/
def LastTaskAlike (p : Provider) (c : Cloud) (notOurImages : Finset String) : Prop :=
  ∀ ami ∈ c.amis, ami.tags = [] → ami.imageId ∉ notOurImages → NoImageTask p c importedAmi ami →
    ∀ snapshotId tags, importedAmi.snapshot ami = some snapshotId →
      OurSnapshotTask p c snapshotId tags → ∀ last ∈ lastTask c, last.tags = tags

/-- Snapshots are tagged right, and AMIs are tagged with what the last task has. -/
theorem tagsRight_iff (p : Provider) (c : Cloud) (notOurSnapshots notOurImages : Finset String) :
    TagsRight p c notOurSnapshots notOurImages ↔
      IgnoredRightly p c (importedSnapshot p) c.snapshots notOurSnapshots ∧
        IgnoredRightly p c importedAmi c.amis notOurImages ∧ LastTaskAlike p c notOurImages := by
  unfold TagsRight tagSnapshots tagAmis
  rw [tagsExactly_tagImported c.snapshots_distinct, tagsExactly_tagImported c.amis_distinct]
  refine and_congr ?_ ?_
  · exact forall₃_congr fun _ _ _ => and_iff_left fun _ _ _ _ _ _ => rfl
  · rw [IgnoredRightly, LastTaskAlike, ← forall₂_and]
    refine forall₂_congr fun ami _ => ?_
    refine imp_and.trans (and_congr Iff.rfl (forall_congr' fun _ => ?_))
    refine forall₂_congr fun _ _ => forall₄_congr fun snapshotId tags _ ours => ?_
    obtain ⟨task, mem, -⟩ := ours
    obtain ⟨last, isLast⟩ := Option.isSome_iff_exists.mp
      (List.getLast?_isSome.mpr (List.ne_nil_of_mem mem))
    have isLast : lastTask c = some last := isLast
    rw [isLast]
    simp

/-! ### Two uploads -/

def exampleProvider : Provider where
  name := "aws"
  word := Char.isAlphanum

def uploadTags (upload : String) : Tags :=
  [("nodepool_provider_name", "aws"), ("nodepool_upload_id", upload)]

/-- The import of the second upload goes on while the image of the first one is tagged. -/
def exampleCloud : Cloud where
  amis := [⟨"ami-1", [], "debian", [some (some "snap-1")]⟩]
  snapshots := []
  imageTask _ := none
  snapshotTasks := [⟨some "snap-1", uploadTags "1"⟩, ⟨none, uploadTags "2"⟩]
  amis_distinct := List.nodup_singleton _
  snapshots_distinct := List.nodup_nil
  tasks_distinct := by simp

/-- The image of the first upload is given the tags of the second one. -/
theorem otherUpload_tagged :
    (tagAmis exampleProvider exampleCloud ∅).1 = [("ami-1", uploadTags "2")] ∧
      ¬ TagsRight exampleProvider exampleCloud ∅ ∅ := by
  have owns : exampleProvider.Owns (uploadTags "1") := by decide
  have calls : (tagAmis exampleProvider exampleCloud ∅).1 = [("ami-1", uploadTags "2")] := by
    decide
  refine ⟨calls, fun right => ?_⟩
  have produced : Produced exampleProvider exampleCloud importedAmi
      ⟨"ami-1", [], "debian", [some (some "snap-1")]⟩ (uploadTags "1") :=
    .inr ⟨nofun, "snap-1", rfl, _, List.mem_cons_self, rfl, rfl, owns⟩
  have tagged := (right.2 "ami-1" (uploadTags "1")).mpr
    ⟨_, List.mem_cons_self, rfl, rfl, produced⟩
  rw [calls] at tagged
  revert tagged
  decide

end Nodepool.Aws
