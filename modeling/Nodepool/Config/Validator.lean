import Nodepool.Config.DiskImages

/-!
`ConfigValidator.validate` of `nodepool/cmd/config_validator.py`, and what it says of the
loader.

The file has been read and has passed the schemas, so its sections are typed. The validator
looks up each parent by its name; whether the parents of an image come to an end is not asked.
-/

namespace Nodepool.Config

variable {μ : Type}

/-- A label of a pool of a provider. -/
structure PoolLabelConfig where
  name : String
  diskimage : Option String

/-- A section of `providers`. -/
structure ProviderSection where
  name : String
  driver : Option String
  /-- the names of its diskimages -/
  diskimages : List String
  pools : List (List PoolLabelConfig)

structure ConfigFile (μ : Type) where
  providers : List ProviderSection
  /-- the names of the labels -/
  labels : List String
  diskimages : List (DiskImageConfig μ)

namespace ConfigValidator

/-- What is logged as an error. -/
inductive Problem where
  | diskimageNotDefined (diskimage provider : String)
  | labelNotDefined (label provider : String)
  | labelDiskimageNotDefined (label provider diskimage : String)
  | alreadyDefined (diskimage : String)
  | nonExistentParent (diskimage parent : String)
deriving DecidableEq, Repr

/-- The references of a pool label. -/
def labelProblems (file : ConfigFile μ) (provider : String) (label : PoolLabelConfig) :
    List Problem :=
  (if label.name ∈ file.labels then [] else [.labelNotDefined label.name provider]) ++
    match label.diskimage.filter (· ≠ "") with
    | none => []
    | some d =>
        if d ∈ file.diskimages.map (·.name) then []
        else [.labelDiskimageNotDefined label.name provider d]

/-- The references of a provider, if it is one of openstack. -/
def providerProblems (file : ConfigFile μ) (p : ProviderSection) : List Problem :=
  if p.driver.getD "openstack" ≠ "openstack" then []
  else
    (p.diskimages.filter (· ∉ file.diskimages.map (·.name))).map (.diskimageNotDefined · p.name) ++
      p.pools.flatMap fun labels => labels.flatMap (labelProblems file p.name)

/-- The names that have been defined by an earlier section. -/
def duplicates : (seen : List String) → List (DiskImageConfig μ) → List Problem
  | _, [] => []
  | seen, c :: cs =>
      (if c.name ∈ seen then [.alreadyDefined c.name] else []) ++ duplicates (c.name :: seen) cs

/-- The parents that are not defined. -/
def missingParents (cfgs : List (DiskImageConfig μ)) : List Problem :=
  cfgs.flatMap fun c =>
    match c.parentName with
    | none => []
    | some parent =>
        if parent ∈ cfgs.map (·.name) then [] else [.nonExistentParent c.name parent]

def problems (file : ConfigFile μ) : List Problem :=
  file.providers.flatMap (providerProblems file) ++ duplicates [] file.diskimages ++
    missingParents file.diskimages

/-- `validate` -/
def validate (file : ConfigFile μ) : ℕ := if problems file = [] then 0 else 1

end ConfigValidator

/-! ### Loading what has been validated -/

/-- The loader terminates without an exception, and each image that is not abstract is
defined. -/
def Loads (limit : ℕ) (cfgs : List (DiskImageConfig μ)) : Prop :=
  ∃ images, setDiskImages limit cfgs = .ok images ∧
    ∀ c ∈ cfgs, c.isAbstract = false → c.name ∈ images

/-- From each image that is not abstract the parents come to an end, within the limit. -/
def Grounded (limit : ℕ) (cfgs : List (DiskImageConfig μ)) : Prop :=
  ∀ c ∈ cfgs, c.isAbstract = false →
    ∃ cs, Chain (allDiskimages cfgs) c cs ∧ cs.length ≤ limit + 1

/-- Each image of the loop has a chain, and what is defined stays defined. -/
theorem loadImages_ok {limit : ℕ} {all : Dict String (DiskImageConfig μ)}
    {cfgs : List (DiskImageConfig μ)} (images : Dict String (DiskImage μ String String)) :
    (∃ images', loadImages limit all cfgs images = .ok images') ↔
      ∀ c ∈ cfgs, ∃ cs, Chain all c cs ∧ cs.length ≤ limit + 1 := by
  induction cfgs generalizing images with
  | nil => exact iff_of_true ⟨images, rfl⟩ fun _ mem => nomatch mem
  | cons c cfgs ih =>
      rw [List.forall_mem_cons, loadImages]
      cases image : loadImage limit all c with
      | error e =>
          refine iff_of_false (fun ⟨_, loaded⟩ => nomatch loaded) ?_
          rintro ⟨⟨cs, chain, short⟩, -⟩
          rw [loadImage_ok_iff.mpr ⟨cs, chain, short, rfl⟩] at image
          cases image
      | ok d =>
          obtain ⟨cs, chain, short, -⟩ := loadImage_ok_iff.mp image
          change (∃ images', loadImages limit all cfgs (AList.insert c.name d images) =
            .ok images') ↔ _
          rw [ih]
          exact (and_iff_right ⟨cs, chain, short⟩).symm

theorem loadImages_mem {limit : ℕ} {all : Dict String (DiskImageConfig μ)}
    {cfgs : List (DiskImageConfig μ)} {images images' : Dict String (DiskImage μ String String)}
    (loaded : loadImages limit all cfgs images = .ok images') {name : String}
    (h : name ∈ images ∨ ∃ c ∈ cfgs, c.name = name) : name ∈ images' := by
  induction cfgs generalizing images with
  | nil =>
      cases loaded
      exact h.resolve_right fun ⟨_, mem, _⟩ => nomatch mem
  | cons c cfgs ih =>
      rw [loadImages] at loaded
      cases image : loadImage limit all c with
      | error e =>
          rw [image] at loaded
          cases loaded
      | ok d =>
          rw [image] at loaded
          refine ih loaded ?_
          rcases h with before | ⟨c', mem, rfl⟩
          · exact .inl (AList.mem_insert _ |>.mpr (.inr before))
          · rcases List.mem_cons.mp mem with rfl | mem
            · exact .inl (AList.mem_insert _ |>.mpr (.inl rfl))
            · exact .inr ⟨c', mem, rfl⟩

theorem loads_iff_grounded {limit : ℕ} {cfgs : List (DiskImageConfig μ)} :
    Loads limit cfgs ↔ Grounded limit cfgs := by
  have final (c : DiskImageConfig μ) : c ∈ cfgs.filter (!·.isAbstract) ↔
      c ∈ cfgs ∧ c.isAbstract = false := by
    rw [List.mem_filter, Bool.not_eq_true']
  constructor
  · rintro ⟨images, loaded, -⟩ c mem isFinal
    exact (loadImages_ok ∅).mp ⟨images, loaded⟩ c ((final c).mpr ⟨mem, isFinal⟩)
  · intro grounded
    obtain ⟨images, loaded⟩ := (loadImages_ok ∅).mpr fun c mem =>
      grounded c ((final c).mp mem).1 ((final c).mp mem).2
    refine ⟨images, loaded, fun c mem isFinal => ?_⟩
    exact loadImages_mem loaded (.inr ⟨c, (final c).mpr ⟨mem, isFinal⟩, rfl⟩)

/-! ### What is accepted -/

namespace ConfigValidator

variable {file : ConfigFile μ} {cfgs : List (DiskImageConfig μ)}

theorem nodup_of_duplicates {seen : List String} (none : duplicates seen cfgs = []) :
    (cfgs.map (·.name)).Nodup ∧ ∀ c ∈ cfgs, c.name ∉ seen := by
  induction cfgs generalizing seen with
  | nil => exact ⟨List.nodup_nil, fun _ mem => nomatch mem⟩
  | cons c cfgs ih =>
      rw [duplicates, List.append_eq_nil_iff] at none
      obtain ⟨first, rest⟩ := none
      obtain ⟨nodup, unseen⟩ := ih rest
      have new : c.name ∉ seen := fun mem => by simp [mem] at first
      refine ⟨List.nodup_cons.mpr ⟨fun mem => ?_, nodup⟩, List.forall_mem_cons.mpr
        ⟨new, fun c' mem => List.not_mem_of_not_mem_cons (unseen c' mem)⟩⟩
      obtain ⟨c', mem, same⟩ := List.mem_map.mp mem
      exact unseen c' mem (same ▸ List.mem_cons_self)

theorem parent_of_missingParents (none : missingParents cfgs = []) {c : DiskImageConfig μ}
    (mem : c ∈ cfgs) {parent : String} (isParent : c.parentName = some parent) :
    ∃ p ∈ cfgs, p.name = parent := by
  have problem := List.flatMap_eq_nil_iff.mp none c mem
  rw [isParent] at problem
  by_contra missing
  have absent : parent ∉ cfgs.map (·.name) := fun mem => missing (List.mem_map.mp mem)
  simp [absent] at problem

theorem problems_of_validate (accepted : validate file = 0) : problems file = [] := by
  by_contra some
  rw [validate, if_neg some] at accepted
  cases accepted

/-- The sections of an accepted list are found by their names. -/
theorem lookup_of_validate (accepted : validate file = 0) {c : DiskImageConfig μ}
    {name : String} : (allDiskimages file.diskimages).lookup name = some c ↔
      c ∈ file.diskimages ∧ c.name = name := by
  obtain ⟨nodup, -⟩ := nodup_of_duplicates
    (List.append_eq_nil_iff.mp (List.append_eq_nil_iff.mp (problems_of_validate accepted)).1).2
  have mem (name : String) (c : DiskImageConfig μ) :
      (name, c) ∈ file.diskimages.map (fun c => (c.name, c)) ↔
        c ∈ file.diskimages ∧ c.name = name := by
    simp [and_comm]
  refine (Dict.lookup_ofPairs fun k v v' h h' => ?_).trans (mem name c)
  obtain ⟨hv, rfl⟩ := (mem k v).mp h
  obtain ⟨hv', same⟩ := (mem v.name v').mp h'
  exact List.inj_on_of_nodup_map nodup hv hv' same.symm

/-- In an accepted list no parent is missing. -/
theorem parent_of_validate (accepted : validate file = 0) {c : DiskImageConfig μ}
    (mem : c ∈ file.diskimages) {parent : String} (isParent : c.parentName = some parent) :
    ∃ p ∈ file.diskimages, (allDiskimages file.diskimages).lookup parent = some p := by
  obtain ⟨p, found, name⟩ := parent_of_missingParents
    (List.append_eq_nil_iff.mp (problems_of_validate accepted)).2 mem isParent
  exact ⟨p, found, (lookup_of_validate accepted).mpr ⟨found, name⟩⟩

end ConfigValidator

section Accepted

open ConfigValidator

variable {file : ConfigFile μ} {limit : ℕ} {c : DiskImageConfig μ} {e : LoadError}

theorem recursionError_of_mergeImageCfg (accepted : validate file = 0)
    {d : DiskImage μ (List String) Release} (mem : c ∈ file.diskimages) {parent : String}
    (isParent : c.parentName = some parent)
    (raised : mergeImageCfg (allDiskimages file.diskimages) limit d parent = .error e) :
    e = .recursionError := by
  induction limit generalizing c parent with
  | zero =>
      cases raised
      rfl
  | succ limit ih =>
      obtain ⟨p, found, lookup⟩ := parent_of_validate accepted mem isParent
      rw [mergeImageCfg, lookup] at raised
      dsimp only at raised
      cases isGrandparent : p.parentName with
      | none =>
          rw [isGrandparent] at raised
          cases raised
      | some grandparent =>
          rw [isGrandparent] at raised
          dsimp only at raised
          cases merged : mergeImageCfg (allDiskimages file.diskimages) limit d grandparent with
          | error e' =>
              rw [merged] at raised
              cases raised
              exact ih found isGrandparent merged
          | ok d' =>
              rw [merged] at raised
              cases raised

theorem recursionError_of_loadImage (accepted : validate file = 0) (mem : c ∈ file.diskimages)
    (raised : loadImage limit (allDiskimages file.diskimages) c = .error e) :
    e = .recursionError := by
  unfold loadImage at raised
  cases isParent : c.parentName with
  | none =>
      rw [isParent] at raised
      cases raised
  | some parent =>
      rw [isParent] at raised
      dsimp only at raised
      cases merged : mergeImageCfg (allDiskimages file.diskimages) limit (DiskImage.init c.name)
          parent with
      | error e' =>
          rw [merged] at raised
          cases raised
          exact recursionError_of_mergeImageCfg accepted mem isParent merged
      | ok d =>
          rw [merged] at raised
          cases raised

theorem recursionError_of_loadImages (accepted : validate file = 0)
    {cfgs : List (DiskImageConfig μ)} (sub : ∀ c ∈ cfgs, c ∈ file.diskimages)
    {images : Dict String (DiskImage μ String String)}
    (raised : loadImages limit (allDiskimages file.diskimages) cfgs images = .error e) :
    e = .recursionError := by
  induction cfgs generalizing images with
  | nil => cases raised
  | cons c cfgs ih =>
      obtain ⟨first, rest⟩ := List.forall_mem_cons.mp sub
      rw [loadImages] at raised
      cases image : loadImage limit (allDiskimages file.diskimages) c with
      | error e' =>
          rw [image] at raised
          cases raised
          exact recursionError_of_loadImage accepted first image
      | ok d =>
          rw [image] at raised
          exact ih rest raised

end Accepted

/-- What the validator accepts loads if and only if the parents of each image come to an end. No
parent is missing, so a list that does not load exceeds the limit. -/
theorem validated_loads_iff (limit : ℕ) (file : ConfigFile μ) :
    ((ConfigValidator.validate file = 0 → Loads limit file.diskimages) ↔
      (ConfigValidator.validate file = 0 → Grounded limit file.diskimages)) ∧
    (ConfigValidator.validate file = 0 →
      ∀ e, setDiskImages limit file.diskimages = .error e → e = .recursionError) :=
  ⟨imp_congr_right fun _ => loads_iff_grounded, fun accepted _ raised =>
    recursionError_of_loadImages accepted (fun _ mem => (List.mem_filter.mp mem).1) raised⟩

/-! ### An image that is its own parent -/

def exampleLoop : DiskImageConfig String :=
  { DiskImageConfig.named "loop" with parent := some "loop" }

def exampleFile : ConfigFile String where
  providers := []
  labels := []
  diskimages := [exampleLoop]

/-- The chain of an image that is its own parent would contain itself. -/
theorem exampleLoop_no_chain {c : DiskImageConfig String} {cs : List (DiskImageConfig String)}
    (h : Chain (allDiskimages [exampleLoop]) c cs) : c ≠ exampleLoop := by
  induction h with
  | root none =>
      rintro rfl
      cases none
  | child parent found rest ih =>
      rintro rfl
      cases parent
      cases found
      exact ih rfl

/-- The validator accepts it, and the interpreter's limit does not matter. -/
theorem validated_not_loads : ConfigValidator.validate exampleFile = 0 ∧
    ¬ ∃ limit, Loads limit exampleFile.diskimages := by
  refine ⟨rfl, ?_⟩
  rintro ⟨limit, loads⟩
  obtain ⟨cs, chain, -⟩ := loads_iff_grounded.mp loads exampleLoop List.mem_cons_self rfl
  exact exampleLoop_no_chain chain rfl

end Nodepool.Config
