import Mathlib.Data.Finset.Dedup
import Mathlib.Data.Finset.Empty
import Nodepool.Base.Dict

/-!
The diskimages of a configuration: `setDiskImages` and `DiskImage` of `nodepool/config.py`.

The sections of the file have been read and typed; a key that a section does not have is
`none`. Values of `metadata` are of any type `μ`. A call of `_merge_image_cfg` takes a
frame of the stack, and `limit` is the number of frames that the interpreter allows.
-/

namespace Nodepool.Config

/-- `release` may be written without quotes. -/
inductive Release where
  | text (s : String)
  | int (z : ℤ)
deriving DecidableEq, Repr

namespace Release

def truthy : Release → Bool
  | text s => s ≠ ""
  | int z => z ≠ 0

/-- `str(release)` -/
def str : Release → String
  | text s => s
  | int z => toString z

end Release

/-- A section of `diskimages`. -/
structure DiskImageConfig (μ : Type) where
  name : String
  abstract : Option Bool
  parent : Option String
  buildTimeout : Option ℤ
  dibCmd : Option String
  elements : Option (List String)
  envVars : Option (Dict String String)
  formats : Option (List String)
  keepFormats : Option (List String)
  deleteAfterUpload : Option Bool
  pause : Option Bool
  pythonPath : Option String
  shellType : Option String
  rebuildAge : Option ℤ
  release : Option Release
  username : Option String
  metadata : Option (Dict String μ)

namespace DiskImageConfig

variable {μ : Type}

/-- A section that only has a name. -/
def named (name : String) : DiskImageConfig μ :=
  ⟨name, none, none, none, none, none, none, none, none, none, none, none, none, none, none, none,
    none⟩

/-- `diskimage.get('abstract', False)` -/
def isAbstract (c : DiskImageConfig μ) : Bool := c.abstract.getD false

/-- `cfg.get('parent', None)`, if it is true -/
def parentName (c : DiskImageConfig μ) : Option String := c.parent.filter (· ≠ "")

end DiskImageConfig

/-- A `DiskImage`; `ε` and `ρ` are what `elements` and `release` are at the time: a list and
whatever was in the file at first, and text in the end. -/
structure DiskImage (μ ε ρ : Type) where
  name : String
  buildTimeout : ℤ
  dibCmd : String
  elements : ε
  envVars : Dict String String
  imageTypes : Finset String
  deleteAfterUpload : Bool
  keepImageTypes : Finset String
  pause : Bool
  pythonPath : String
  shellType : Option String
  rebuildAge : ℤ
  release : ρ
  username : String
  metadata : Dict String μ

namespace DiskImage

variable {μ : Type}

/-- 8 hours -/
def BUILD_TIMEOUT : ℤ := 8 * 60 * 60

/-- 24 hours -/
def REBUILD_AGE : ℤ := 24 * 60 * 60

/-- `DiskImage(name)` -/
def init (name : String) : DiskImage μ (List String) Release where
  name := name
  buildTimeout := BUILD_TIMEOUT
  dibCmd := "disk-image-create"
  elements := []
  envVars := ∅
  imageTypes := ∅
  deleteAfterUpload := false
  keepImageTypes := ∅
  pause := false
  pythonPath := "auto"
  shellType := none
  rebuildAge := REBUILD_AGE
  release := .text ""
  username := "zuul"
  metadata := ∅

/-- `if value: self.attribute = cast(value)` -/
def override {α β : Type} (truthy : α → Bool) (cast : α → β) (value : Option α) (current : β) : β :=
  match value with
  | some v => if truthy v then cast v else current
  | none => current

/-- `setFromConfig` -/
def setFromConfig (d : DiskImage μ (List String) Release) (c : DiskImageConfig μ) :
    DiskImage μ (List String) Release where
  name := d.name
  buildTimeout := override (· ≠ 0) id c.buildTimeout d.buildTimeout
  dibCmd := override (· ≠ "") id c.dibCmd d.dibCmd
  elements := d.elements ++ c.elements.getD []
  envVars := d.envVars.update (c.envVars.getD ∅)
  imageTypes := override (· ≠ []) List.toFinset c.formats d.imageTypes
  keepImageTypes := override (· ≠ []) List.toFinset c.keepFormats d.keepImageTypes
  -- the one attribute that is compared with `None`
  deleteAfterUpload := override (fun _ => true) id c.deleteAfterUpload d.deleteAfterUpload
  pause := override id id c.pause d.pause
  pythonPath := override (· ≠ "") id c.pythonPath d.pythonPath
  shellType := override (· ≠ "") some c.shellType d.shellType
  rebuildAge := override (· ≠ 0) id c.rebuildAge d.rebuildAge
  release := override Release.truthy id c.release d.release
  username := override (· ≠ "") id c.username d.username
  -- set in any case
  metadata := c.metadata.getD ∅

/-- What follows the merge: both attributes are passed to diskimage-builder as text. -/
def finish (d : DiskImage μ (List String) Release) : DiskImage μ String String :=
  { d with
    release := d.release.str
    elements := String.intercalate " " d.elements }

end DiskImage

open DiskImage

variable {μ : Type}

/-- The exceptions of `setDiskImages`. -/
inductive LoadError where
  | keyError (name : String)
  | recursionError
deriving DecidableEq, Repr

/-- `all_diskimages` -/
def allDiskimages (cfgs : List (DiskImageConfig μ)) : Dict String (DiskImageConfig μ) :=
  Dict.ofPairs (cfgs.map fun c => (c.name, c))

/-- `_merge_image_cfg` -/
def mergeImageCfg (all : Dict String (DiskImageConfig μ)) :
    (limit : ℕ) → DiskImage μ (List String) Release → (parent : String) →
    Except LoadError (DiskImage μ (List String) Release)
  | 0, _, _ => .error .recursionError
  | limit + 1, d, parent =>
      match all.lookup parent with
      | none => .error (.keyError parent)
      | some parentCfg =>
          match parentCfg.parentName with
          | none => .ok (d.setFromConfig parentCfg)
          | some grandparent => do
              let d ← mergeImageCfg all limit d grandparent
              .ok (d.setFromConfig parentCfg)

/-- The body of the loop of `setDiskImages`. -/
def loadImage (limit : ℕ) (all : Dict String (DiskImageConfig μ)) (cfg : DiskImageConfig μ) :
    Except LoadError (DiskImage μ String String) := do
  let d ← match cfg.parentName with
    | none => .ok (DiskImage.init cfg.name)
    | some parent => mergeImageCfg all limit (DiskImage.init cfg.name) parent
  .ok (d.setFromConfig cfg).finish

/-- The loop of `setDiskImages` over the images that are not abstract. -/
def loadImages (limit : ℕ) (all : Dict String (DiskImageConfig μ)) :
    List (DiskImageConfig μ) → Dict String (DiskImage μ String String) →
    Except LoadError (Dict String (DiskImage μ String String))
  | [], images => .ok images
  | cfg :: cfgs, images => do
      let d ← loadImage limit all cfg
      loadImages limit all cfgs (AList.insert cfg.name d images)

/-- `setDiskImages` of a new `Config` -/
def setDiskImages (limit : ℕ) (cfgs : List (DiskImageConfig μ)) :
    Except LoadError (Dict String (DiskImage μ String String)) :=
  loadImages limit (allDiskimages cfgs) (cfgs.filter (!·.isAbstract)) ∅

/-! ### Chains of parents -/

/-- The image and its parents, up to one that has none. -/
inductive Chain (all : Dict String (DiskImageConfig μ)) :
    DiskImageConfig μ → List (DiskImageConfig μ) → Prop where
  | root {c : DiskImageConfig μ} (none : c.parentName = none) : Chain all c [c]
  | child {c p : DiskImageConfig μ} {name : String} {cs : List (DiskImageConfig μ)}
      (parent : c.parentName = some name) (found : all.lookup name = some p)
      (rest : Chain all p cs) : Chain all c (c :: cs)

variable {all : Dict String (DiskImageConfig μ)} {c : DiskImageConfig μ}
  {cs : List (DiskImageConfig μ)} {d d' : DiskImage μ (List String) Release} {limit : ℕ}

theorem Chain.unique {cs' : List (DiskImageConfig μ)} (h : Chain all c cs)
    (h' : Chain all c cs') : cs = cs' := by
  induction h generalizing cs' with
  | root none =>
      cases h' with
      | root => rfl
      | child parent =>
          rw [none] at parent
          cases parent
  | child parent found rest ih =>
      cases h' with
      | root none =>
          rw [none] at parent
          cases parent
      | child parent' found' rest' =>
          rw [parent] at parent'
          cases parent'
          rw [found] at found'
          cases found'
          rw [ih rest']

/-- The values of the chain, from the root to the image. -/
def mergeChain (d : DiskImage μ (List String) Release) (cs : List (DiskImageConfig μ)) :
    DiskImage μ (List String) Release :=
  cs.reverse.foldl DiskImage.setFromConfig d

theorem mergeChain_cons : mergeChain d (c :: cs) = (mergeChain d cs).setFromConfig c := by
  rw [mergeChain, List.reverse_cons, List.foldl_append]
  rfl

theorem mergeImageCfg_of_chain {parent : String} (found : all.lookup parent = some c)
    (h : Chain all c cs) (short : cs.length ≤ limit) :
    mergeImageCfg all limit d parent = .ok (mergeChain d cs) := by
  induction h generalizing limit parent with
  | root none =>
      obtain ⟨n, rfl⟩ := Nat.exists_eq_succ_of_ne_zero (Nat.pos_iff_ne_zero.mp short)
      rw [mergeImageCfg, found]
      dsimp only
      rw [none]
      rfl
  | @child c p name cs isParent found' rest ih =>
      obtain ⟨n, rfl⟩ := Nat.exists_eq_succ_of_ne_zero
        (Nat.pos_iff_ne_zero.mp (Nat.lt_of_lt_of_le (Nat.succ_pos _) short))
      rw [mergeImageCfg, found]
      dsimp only
      rw [isParent]
      dsimp only
      rw [ih found' (Nat.le_of_succ_le_succ short), mergeChain_cons]
      rfl

theorem chain_of_mergeImageCfg {parent : String}
    (h : mergeImageCfg all limit d parent = .ok d') :
    ∃ c cs, all.lookup parent = some c ∧ Chain all c cs ∧ cs.length ≤ limit := by
  induction limit generalizing parent d' with
  | zero => cases h
  | succ limit ih =>
      rw [mergeImageCfg] at h
      cases found : all.lookup parent with
      | none =>
          rw [found] at h
          cases h
      | some c =>
          rw [found] at h
          dsimp only at h
          cases isParent : c.parentName with
          | none => exact ⟨c, [c], rfl, .root isParent, Nat.succ_le_succ (Nat.zero_le _)⟩
          | some grandparent =>
              rw [isParent] at h
              dsimp only at h
              cases merged : mergeImageCfg all limit d grandparent with
              | error e =>
                  rw [merged] at h
                  cases h
              | ok d₁ =>
                  obtain ⟨p, cs, found', rest, short⟩ := ih merged
                  exact ⟨c, c :: cs, rfl, .child isParent found' rest, Nat.succ_le_succ short⟩

/-- An image loads exactly if its chain ends within the limit, and then it has the values of
the chain. -/
theorem loadImage_ok_iff {image : DiskImage μ String String} :
    loadImage limit all c = .ok image ↔ ∃ cs, Chain all c cs ∧ cs.length ≤ limit + 1 ∧
      image = (mergeChain (DiskImage.init c.name) cs).finish := by
  unfold loadImage
  cases isParent : c.parentName with
  | none =>
      constructor
      · intro h
        cases h
        exact ⟨[c], .root isParent, Nat.succ_le_succ (Nat.zero_le _), rfl⟩
      · rintro ⟨cs, chain, -, rfl⟩
        rw [chain.unique (.root isParent)]
        rfl
  | some parent =>
      dsimp only
      constructor
      · intro h
        cases merged : mergeImageCfg all limit (DiskImage.init c.name) parent with
        | error e =>
            rw [merged] at h
            cases h
        | ok d =>
            obtain ⟨p, cs, found, rest, short⟩ := chain_of_mergeImageCfg merged
            rw [mergeImageCfg_of_chain found rest short] at h
            cases h
            refine ⟨c :: cs, .child isParent found rest, Nat.succ_le_succ short, ?_⟩
            rw [mergeChain_cons]
      · rintro ⟨_, _ | ⟨isParent', found, rest⟩, short, rfl⟩
        · rename_i none
          rw [none] at isParent
          cases isParent
        · rw [isParent] at isParent'
          cases isParent'
          rw [mergeImageCfg_of_chain found rest (Nat.le_of_succ_le_succ short), mergeChain_cons]
          rfl

end Nodepool.Config
