import Nodepool.Config.DiskImages

/-!
What a diskimage gets from the chain of its parents.

`Inherits` says what inheritance is for: each attribute has the value of the nearest image of
the chain that specifies it, whatever the value is. The loader takes the nearest value that is
true, since a value that is false does not override; and it takes the metadata of the image
itself. `Undisturbed` is when this makes no difference.
-/

namespace Nodepool.Config

open DiskImage

variable {μ α β : Type}

/-- The value of the nearest image that specifies it, or else the default. The image itself
comes first in `cs`. -/
def nearest (get : DiskImageConfig μ → Option α) (cast : α → β) (default : β)
    (cs : List (DiskImageConfig μ)) : β :=
  (cs.findSome? get).elim default cast

/-- What the image is to inherit from the chain. -/
structure Inherits (d : DiskImage μ String String) (cs : List (DiskImageConfig μ)) : Prop where
  buildTimeout : d.buildTimeout = nearest (·.buildTimeout) id BUILD_TIMEOUT cs
  dibCmd : d.dibCmd = nearest (·.dibCmd) id "disk-image-create" cs
  /-- the concatenation from the root to the image -/
  elements : d.elements = String.intercalate " " (cs.reverse.flatMap (·.elements.getD []))
  /-- the overlay from the root to the image -/
  envVars : ∀ k, d.envVars.lookup k = cs.findSome? fun c => (c.envVars.getD ∅).lookup k
  imageTypes : d.imageTypes = nearest (·.formats) List.toFinset ∅ cs
  deleteAfterUpload : d.deleteAfterUpload = nearest (·.deleteAfterUpload) id false cs
  keepImageTypes : d.keepImageTypes = nearest (·.keepFormats) List.toFinset ∅ cs
  pause : d.pause = nearest (·.pause) id false cs
  pythonPath : d.pythonPath = nearest (·.pythonPath) id "auto" cs
  shellType : d.shellType = nearest (·.shellType) some none cs
  rebuildAge : d.rebuildAge = nearest (·.rebuildAge) id REBUILD_AGE cs
  release : d.release = nearest (·.release) Release.str "" cs
  username : d.username = nearest (·.username) id "zuul" cs
  metadata : d.metadata = nearest (·.metadata) id ∅ cs

/-! ### Attributes that are overridden by true values -/

/-- Where the nearest image that specifies the attribute gives it a value that is false, that
is also the nearest value that is true, or the default if there is none. -/
def Effective (truthy : α → Bool) (get : DiskImageConfig μ → Option α) (cast : α → β) (default : β)
    (cs : List (DiskImageConfig μ)) : Prop :=
  ∀ v, cs.findSome? get = some v → truthy v = false →
    nearest (fun c => (get c).filter truthy) cast default cs = cast v

variable {truthy : α → Bool} {get : DiskImageConfig μ → Option α} {cast : α → β} {default : β}
  {c : DiskImageConfig μ} {cs : List (DiskImageConfig μ)}

theorem findSome?_filter_of_truthy {v : α} (found : cs.findSome? get = some v)
    (true : truthy v = true) : (cs.findSome? fun c => (get c).filter truthy) = some v := by
  induction cs with
  | nil => cases found
  | cons c cs ih =>
      rw [List.findSome?_cons] at found ⊢
      cases value : get c with
      | none =>
          rw [value] at found
          exact ih found
      | some w =>
          rw [value] at found
          cases found
          rw [Option.filter_some_pos true]

theorem nearest_truthy_iff :
    nearest (fun c => (get c).filter truthy) cast default cs = nearest get cast default cs ↔
      Effective truthy get cast default cs := by
  unfold Effective
  cases found : cs.findSome? get with
  | none =>
      have missing : (cs.findSome? fun c => (get c).filter truthy) = none := by
        refine List.findSome?_eq_none_iff.mpr fun c mem => ?_
        rw [List.findSome?_eq_none_iff.mp found c mem]
        rfl
      refine iff_of_true ?_ nofun
      rw [nearest, nearest, missing, found]
  | some v =>
      have value : nearest get cast default cs = cast v := by rw [nearest, found]; rfl
      rw [value]
      cases true : truthy v with
      | true =>
          refine iff_of_true ?_ ?_
          · rw [nearest, findSome?_filter_of_truthy found true]
            rfl
          · intro w same false
            cases same
            rw [true] at false
            cases false
      | false =>
          constructor
          · intro same w found' _
            cases found'
            exact same
          · exact fun h => h v rfl true

/-- The attribute is overridden once for each image of the chain, from the root on. -/
theorem override_chain (attr : DiskImage μ (List String) Release → β)
    (step : ∀ d c, attr (d.setFromConfig c) = override truthy cast (get c) (attr d))
    (d : DiskImage μ (List String) Release) (cs : List (DiskImageConfig μ)) :
    attr (mergeChain d cs) = nearest (fun c => (get c).filter truthy) cast (attr d) cs := by
  induction cs with
  | nil => rfl
  | cons c cs ih =>
      rw [mergeChain_cons, step, ih, nearest, nearest, List.findSome?_cons]
      unfold override
      cases get c with
      | none => rfl
      | some v =>
          dsimp only
          cases true : truthy v with
          | true =>
              rw [Option.filter_some_pos true, if_pos rfl]
              rfl
          | false =>
              rw [Option.filter_some_neg true, if_neg Bool.false_ne_true]

/-! ### The other attributes -/

variable {d : DiskImage μ (List String) Release}

theorem elements_chain : (mergeChain d cs).elements =
    d.elements ++ cs.reverse.flatMap (·.elements.getD []) := by
  induction cs with
  | nil => exact (List.append_nil _).symm
  | cons c cs ih =>
      rw [mergeChain_cons, List.reverse_cons, List.flatMap_append, ← List.append_assoc, ← ih,
        List.flatMap_singleton]
      rfl

theorem envVars_chain (k : String) : (mergeChain d cs).envVars.lookup k =
    (cs.findSome? fun c => (c.envVars.getD ∅).lookup k).or (d.envVars.lookup k) := by
  induction cs with
  | nil => rfl
  | cons c cs ih =>
      rw [mergeChain_cons, List.findSome?_cons]
      change ((mergeChain d cs).envVars.update (c.envVars.getD ∅)).lookup k = _
      rw [Dict.lookup_update, ih]
      cases (c.envVars.getD ∅).lookup k <;> rfl

theorem metadata_chain : (mergeChain d (c :: cs)).metadata = c.metadata.getD ∅ := by
  rw [mergeChain_cons]
  rfl

/-- The image itself specifies the metadata, or no image of the chain does, or the nearest one
that does specifies none. -/
def OwnMetadata (cs : List (DiskImageConfig μ)) : Prop :=
  (cs.head?.bind (·.metadata)).isSome = true ∨ cs.findSome? (·.metadata) = none ∨
    cs.findSome? (·.metadata) = some ∅

theorem ownMetadata_iff :
    c.metadata.getD ∅ = nearest (·.metadata) id ∅ (c :: cs) ↔ OwnMetadata (c :: cs) := by
  unfold nearest OwnMetadata
  rw [List.findSome?_cons, List.head?_cons, Option.bind_some]
  cases c.metadata with
  | some m => exact iff_of_true rfl (.inl rfl)
  | none =>
      dsimp only
      cases cs.findSome? (·.metadata) with
      | none => exact iff_of_true rfl (.inr (.inl rfl))
      | some m =>
          constructor
          · intro same
            exact .inr (.inr (congrArg some same.symm))
          · rintro (h | h | h)
            · cases h
            · cases h
            · cases h
              rfl

/-! ### The whole image -/

/-- Values that are false make no difference, and the metadata is the image's own. -/
structure Undisturbed (cs : List (DiskImageConfig μ)) : Prop where
  buildTimeout : Effective (· ≠ 0) (·.buildTimeout) id BUILD_TIMEOUT cs
  dibCmd : Effective (· ≠ "") (·.dibCmd) id "disk-image-create" cs
  imageTypes : Effective (· ≠ []) (·.formats) List.toFinset ∅ cs
  keepImageTypes : Effective (· ≠ []) (·.keepFormats) List.toFinset ∅ cs
  pause : Effective id (·.pause) id false cs
  pythonPath : Effective (· ≠ "") (·.pythonPath) id "auto" cs
  shellType : Effective (· ≠ "") (·.shellType) some none cs
  rebuildAge : Effective (· ≠ 0) (·.rebuildAge) id REBUILD_AGE cs
  release : Effective Release.truthy (·.release) Release.str "" cs
  username : Effective (· ≠ "") (·.username) id "zuul" cs
  metadata : OwnMetadata cs

theorem Chain.exists_cons {all : Dict String (DiskImageConfig μ)} (h : Chain all c cs) :
    ∃ rest, cs = c :: rest := by
  cases h with
  | root => exact ⟨[], rfl⟩
  | child => exact ⟨_, rfl⟩

theorem nearest_map {γ : Type} {f : β → γ} :
    f (nearest get cast default cs) = nearest get (f ∘ cast) (f default) cs := by
  unfold nearest
  cases cs.findSome? get <;> rfl

/-- What the loader makes of a chain is inherited if and only if it is undisturbed. -/
theorem mergeChain_inherits_iff {name : String} :
    Inherits ((mergeChain (DiskImage.init name) (c :: cs)).finish) (c :: cs) ↔
      Undisturbed (c :: cs) := by
  set d := mergeChain (DiskImage.init (μ := μ) name) (c :: cs) with hd
  have buildTimeout : d.buildTimeout = _ :=
    override_chain (·.buildTimeout) (fun _ _ => rfl) (DiskImage.init name) (c :: cs)
  have dibCmd : d.dibCmd = _ :=
    override_chain (·.dibCmd) (fun _ _ => rfl) (DiskImage.init name) (c :: cs)
  have imageTypes : d.imageTypes = _ :=
    override_chain (·.imageTypes) (fun _ _ => rfl) (DiskImage.init name) (c :: cs)
  have deleteAfterUpload : d.deleteAfterUpload = _ :=
    override_chain (·.deleteAfterUpload) (fun _ _ => rfl) (DiskImage.init name) (c :: cs)
  have keepImageTypes : d.keepImageTypes = _ :=
    override_chain (·.keepImageTypes) (fun _ _ => rfl) (DiskImage.init name) (c :: cs)
  have pause : d.pause = _ :=
    override_chain (·.pause) (fun _ _ => rfl) (DiskImage.init name) (c :: cs)
  have pythonPath : d.pythonPath = _ :=
    override_chain (·.pythonPath) (fun _ _ => rfl) (DiskImage.init name) (c :: cs)
  have shellType : d.shellType = _ :=
    override_chain (·.shellType) (fun _ _ => rfl) (DiskImage.init name) (c :: cs)
  have rebuildAge : d.rebuildAge = _ :=
    override_chain (·.rebuildAge) (fun _ _ => rfl) (DiskImage.init name) (c :: cs)
  have release : d.release = _ :=
    override_chain (·.release) (fun _ _ => rfl) (DiskImage.init name) (c :: cs)
  have username : d.username = _ :=
    override_chain (·.username) (fun _ _ => rfl) (DiskImage.init name) (c :: cs)
  have release' : d.finish.release = nearest (fun c => (c.release).filter Release.truthy)
      Release.str "" (c :: cs) := by
    change d.release.str = _
    rw [release]
    exact nearest_map (f := Release.str)
  have elements : d.finish.elements =
      String.intercalate " " ((c :: cs).reverse.flatMap (·.elements.getD [])) := by
    change String.intercalate " " d.elements = _
    rw [hd, elements_chain]
    rfl
  have metadata : d.metadata = c.metadata.getD ∅ := metadata_chain
  constructor
  · intro h
    exact {
      buildTimeout := nearest_truthy_iff.mp (buildTimeout.symm.trans h.buildTimeout)
      dibCmd := nearest_truthy_iff.mp (dibCmd.symm.trans h.dibCmd)
      imageTypes := nearest_truthy_iff.mp (imageTypes.symm.trans h.imageTypes)
      keepImageTypes := nearest_truthy_iff.mp (keepImageTypes.symm.trans h.keepImageTypes)
      pause := nearest_truthy_iff.mp (pause.symm.trans h.pause)
      pythonPath := nearest_truthy_iff.mp (pythonPath.symm.trans h.pythonPath)
      shellType := nearest_truthy_iff.mp (shellType.symm.trans h.shellType)
      rebuildAge := nearest_truthy_iff.mp (rebuildAge.symm.trans h.rebuildAge)
      release := nearest_truthy_iff.mp (release'.symm.trans h.release)
      username := nearest_truthy_iff.mp (username.symm.trans h.username)
      metadata := ownMetadata_iff.mp (metadata.symm.trans h.metadata) }
  · intro h
    exact {
      buildTimeout := buildTimeout.trans (nearest_truthy_iff.mpr h.buildTimeout)
      dibCmd := dibCmd.trans (nearest_truthy_iff.mpr h.dibCmd)
      elements := elements
      envVars := fun k => (envVars_chain k).trans (Option.or_none)
      imageTypes := imageTypes.trans (nearest_truthy_iff.mpr h.imageTypes)
      deleteAfterUpload := deleteAfterUpload.trans (nearest_truthy_iff.mpr nofun)
      keepImageTypes := keepImageTypes.trans (nearest_truthy_iff.mpr h.keepImageTypes)
      pause := pause.trans (nearest_truthy_iff.mpr h.pause)
      pythonPath := pythonPath.trans (nearest_truthy_iff.mpr h.pythonPath)
      shellType := shellType.trans (nearest_truthy_iff.mpr h.shellType)
      rebuildAge := rebuildAge.trans (nearest_truthy_iff.mpr h.rebuildAge)
      release := release'.trans (nearest_truthy_iff.mpr h.release)
      username := username.trans (nearest_truthy_iff.mpr h.username)
      metadata := metadata.trans (ownMetadata_iff.mpr h.metadata) }

/-- The images of a loaded configuration are those that its sections load as. -/
theorem loadImages_lookup {all : Dict String (DiskImageConfig μ)} {limit : ℕ}
    {cfgs : List (DiskImageConfig μ)} {images images' : Dict String (DiskImage μ String String)}
    (loaded : loadImages limit all cfgs images = .ok images') {name : String}
    {d : DiskImage μ String String} (found : images'.lookup name = some d) :
    images.lookup name = some d ∨
      ∃ c ∈ cfgs, c.name = name ∧ loadImage limit all c = .ok d := by
  induction cfgs generalizing images with
  | nil =>
      cases loaded
      exact .inl found
  | cons c cfgs ih =>
      rw [loadImages] at loaded
      cases image : loadImage limit all c with
      | error e =>
          rw [image] at loaded
          cases loaded
      | ok d' =>
          rw [image] at loaded
          rcases ih loaded with before | ⟨c', mem, rest⟩
          · by_cases same : name = c.name
            · subst same
              rw [AList.lookup_insert] at before
              cases before
              exact .inr ⟨c, List.mem_cons_self, rfl, image⟩
            · rw [AList.lookup_insert_ne same] at before
              exact .inl before
          · exact .inr ⟨c', List.mem_cons_of_mem _ mem, rest⟩

/-- Every image of a loaded configuration has a chain of parents, and it inherits from the
chain if and only if the chain is undisturbed. -/
theorem loaded_inherits_iff {limit : ℕ} {cfgs : List (DiskImageConfig μ)}
    {images : Dict String (DiskImage μ String String)}
    (loaded : setDiskImages limit cfgs = .ok images) {name : String}
    {d : DiskImage μ String String} (found : images.lookup name = some d) :
    ∃ c ∈ cfgs, c.name = name ∧ c.isAbstract = false ∧
      ∃ cs, Chain (allDiskimages cfgs) c cs ∧ (Inherits d cs ↔ Undisturbed cs) := by
  rcases loadImages_lookup loaded found with empty | ⟨c, mem, rfl, image⟩
  · cases empty
  · obtain ⟨mem, final⟩ := List.mem_filter.mp mem
    obtain ⟨cs, chain, -, rfl⟩ := loadImage_ok_iff.mp image
    obtain ⟨rest, rfl⟩ := chain.exists_cons
    exact ⟨c, mem, rfl, by simpa using final, _, chain, mergeChain_inherits_iff⟩

/-! ### A child that is not to be paused -/

def exampleBase : DiskImageConfig String :=
  { DiskImageConfig.named "base" with pause := some true }

def exampleChild : DiskImageConfig String :=
  { DiskImageConfig.named "child" with parent := some "base", pause := some false }

def exampleImage (cs : List (DiskImageConfig String)) (name : String) :
    DiskImage String String String :=
  (mergeChain (DiskImage.init name) cs).finish

/-- The child is listed before its parent. -/
theorem example_loaded : setDiskImages 1 [exampleChild, exampleBase] =
    .ok (AList.insert "base" (exampleImage [exampleBase] "base")
      (AList.insert "child" (exampleImage [exampleChild, exampleBase] "child") ∅)) := rfl

theorem loaded_inherits_iff_child : ∃ c ∈ [exampleChild, exampleBase], c.name = "child" ∧
    c.isAbstract = false ∧ ∃ cs, Chain (allDiskimages [exampleChild, exampleBase]) c cs ∧
      (Inherits (exampleImage [exampleChild, exampleBase] "child") cs ↔ Undisturbed cs) :=
  loaded_inherits_iff example_loaded rfl

/-- The child is paused all the same. -/
theorem child_not_inherits :
    setDiskImages 1 [exampleChild, exampleBase] =
        .ok (AList.insert "base" (exampleImage [exampleBase] "base")
          (AList.insert "child" (exampleImage [exampleChild, exampleBase] "child") ∅)) ∧
      Chain (allDiskimages [exampleChild, exampleBase]) exampleChild [exampleChild, exampleBase] ∧
      ¬ Inherits (exampleImage [exampleChild, exampleBase] "child") [exampleChild, exampleBase] :=
  ⟨example_loaded, .child rfl rfl (.root rfl), fun h => nomatch h.pause⟩

end Nodepool.Config
