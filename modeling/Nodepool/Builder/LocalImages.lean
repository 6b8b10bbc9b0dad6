import Mathlib.Data.List.TakeWhile
import Nodepool.Base.Text
import Nodepool.Builder.CleanupWorker
import Nodepool.Effect.Serial

/-!
The image files on the disk of a builder: their names, how `_getLocalBuilds` and `DibImageFile` of
`nodepool/builder.py` read them, and which of them `_cleanup` removes.

A build identifier has no dash and a format no dot, so a name has one reading, whatever dashes and
dots the name of the image has.
-/

namespace Nodepool.LocalImages

open Effect Method ZooKeeper

/-- The characters that `\d` and `\w` match. -/
structure Charset where
  digit : Char → Bool
  word : Char → Bool
  digit_ascii : ∀ c ∈ "0123456789".toList, digit c = true
  digit_word : ∀ c, digit c = true → word c = true
  word_dash : word '-' = false
  word_dot : word '.' = false

/-- `[abcdef\d]` -/
def Charset.hex (cs : Charset) (c : Char) : Bool := c ∈ "abcdef".toList || cs.digit c

/-! ### Names -/

/-- `"-".join([image_name, build_id])` -/
def base (image buildId : String) : String := image ++ "-" ++ buildId

/-- `f'{image_id}.{extension}'` -/
def fileName (imageId extension : String) : String := imageId ++ "." ++ extension

/-- The identifier in what follows a dash, `([abcdef\d]+)\.(?:\w+)$`. -/
def matchId (cs : Charset) (tail : List Char) : Option (List Char) :=
  match tail.dropWhile cs.hex with
  | '.' :: extension =>
      -- `$` also matches before a last line feed
      if tail.takeWhile cs.hex ≠ [] ∧ extension.takeWhile cs.word ≠ [] ∧
          (extension.dropWhile cs.word = [] ∨ extension.dropWhile cs.word = ['\n']) then
        some (tail.takeWhile cs.hex)
      else none
  | _ => none

/-- `LOCAL_BUILDS_RE`; the last dash that leads to a match counts. -/
def matchName (cs : Charset) : List Char → Option (List Char × List Char)
  | [] => none
  | c :: rest =>
      match matchName cs rest with
      | some (image, buildId) => if c = '\n' then none else some (c :: image, buildId)
      | none => if c = '-' then (matchId cs rest).map fun buildId => ([], buildId) else none

/-- The image and the build of an entry of the directory. -/
def localBuild (cs : Charset) (entry : String) : Option (String × String) :=
  (matchName cs entry.toList).map fun (image, buildId) =>
    (String.ofList image, String.ofList buildId)

/-- `_getLocalBuilds`, each build once -/
def getLocalBuilds (cs : Charset) (entries : List String) : List (String × String) :=
  (entries.filterMap (localBuild cs)).eraseDups

/-- `stem` and `suffix` of a path, the latter without the dot -/
def stemSuffix (file : String) : String × String :=
  match Text.rpartition '.' file.toList with
  | some (stem, suffix) =>
      if stem ≠ [] ∧ suffix ≠ [] then (String.ofList stem, String.ofList suffix) else (file, "")
  | none => (file, "")

/-- `from_image_id`: the extensions of the files of a build. -/
def fromImageId (files : List String) (imageId : String) : List String :=
  files.filterMap fun file =>
    if (stemSuffix file).1 = imageId then some (stemSuffix file).2 else none

/-- What is removed with an image: its file, and those with its checksums. -/
def items (imageId extension : String) : List String :=
  [fileName imageId extension, fileName imageId extension ++ ".md5",
    fileName imageId extension ++ ".sha256"]

/-! ### Builds and formats -/

/-- A build that can have files here: the name of an image has no line feed, and an identifier has
the digits of a lower-case hexadecimal number. -/
structure LocalBuild where
  image : String
  buildId : String
  image_line : '\n' ∉ image.toList
  buildId_ne : buildId ≠ ""
  buildId_hex : ∀ c ∈ buildId.toList, c ∈ "0123456789abcdef".toList

/-- A format of images; the checksums are none. -/
structure ImageFormat (cs : Charset) where
  text : String
  text_ne : text ≠ ""
  text_word : ∀ c ∈ text.toList, cs.word c = true
  notChecksum : text ≠ "md5" ∧ text ≠ "sha256"

variable {cs : Charset}

def LocalBuild.file (b : LocalBuild) (format : ImageFormat cs) : String :=
  fileName (base b.image b.buildId) format.text

theorem toList_base (image buildId : String) :
    (base image buildId).toList = image.toList ++ '-' :: buildId.toList := by
  simp [base]

theorem toList_fileName (imageId extension : String) :
    (fileName imageId extension).toList = imageId.toList ++ '.' :: extension.toList := by
  simp [fileName]

theorem toList_ne_nil {s : String} : s.toList ≠ [] ↔ s ≠ "" := by
  rw [ne_eq, ne_eq, String.toList_eq_nil_iff]

theorem hex_word {c : Char} (h : cs.hex c = true) : cs.word c = true ∨ c ∈ "abcdef".toList := by
  rcases Bool.or_eq_true_iff.mp h with letter | digit
  · exact .inr (of_decide_eq_true letter)
  · exact .inl (cs.digit_word c digit)

theorem not_hex {c : Char} (other : c ∉ "abcdef".toList) (word : cs.word c = false) :
    cs.hex c = false := by
  by_contra h
  rcases hex_word (eq_true_of_ne_false h) with h | h
  · rw [word] at h
    cases h
  · exact other h

theorem hex_dash : cs.hex '-' = false := not_hex (by decide) cs.word_dash

theorem hex_dot : cs.hex '.' = false := not_hex (by decide) cs.word_dot

theorem LocalBuild.hex (b : LocalBuild) : ∀ c ∈ b.buildId.toList, cs.hex c = true := by
  intro c mem
  have digits := b.buildId_hex c mem
  rw [show "0123456789abcdef".toList = "0123456789".toList ++ "abcdef".toList by decide] at digits
  rcases List.mem_append.mp digits with digit | letter
  · exact Bool.or_eq_true_iff.mpr (.inr (cs.digit_ascii c digit))
  · exact Bool.or_eq_true_iff.mpr (.inl (decide_eq_true letter))

theorem LocalBuild.dash_notMem (b : LocalBuild) : '-' ∉ b.buildId.toList := by
  intro mem
  have dash := b.buildId_hex '-' mem
  revert dash
  decide

theorem ImageFormat.notMem (format : ImageFormat cs) {c : Char} (other : cs.word c = false) :
    c ∉ format.text.toList := by
  intro mem
  rw [format.text_word c mem] at other
  cases other

/-! ### Reading a name -/

theorem takeWhile_append_of_all {p : Char → Bool} {l rest : List Char} (all : ∀ c ∈ l, p c = true)
    (stop : ∀ c ∈ rest.head?, p c = false) :
    (l ++ rest).takeWhile p = l ∧ (l ++ rest).dropWhile p = rest := by
  induction l with
  | nil =>
      cases rest with
      | nil => simp
      | cons c rest => simp [stop c rfl]
  | cons c l ih =>
      have tail := ih fun c' mem => all c' (List.mem_cons_of_mem _ mem)
      simp [all c List.mem_cons_self, tail]

/-- An identifier and a format are read. -/
theorem matchId_eq (b : LocalBuild) (format : ImageFormat cs) :
    matchId cs (b.buildId.toList ++ '.' :: format.text.toList) = some b.buildId.toList := by
  have stop : ∀ c ∈ ('.' :: format.text.toList).head?, cs.hex c = false := by
    intro c first
    cases first
    exact hex_dot
  obtain ⟨taken, dropped⟩ := takeWhile_append_of_all b.hex stop
  have none : ∀ c ∈ ([] : List Char).head?, cs.word c = false := nofun
  obtain ⟨word, done⟩ := takeWhile_append_of_all format.text_word none
  rw [List.append_nil] at word done
  simp only [matchId, dropped, taken, word, done]
  rw [if_pos ⟨toList_ne_nil.mpr b.buildId_ne, toList_ne_nil.mpr format.text_ne, .inl trivial⟩]

/-- What matches has a dash. -/
theorem matchName_eq_none {l : List Char} (free : '-' ∉ l) : matchName cs l = none := by
  induction l with
  | nil => rfl
  | cons c l ih =>
      rw [List.mem_cons, not_or] at free
      rw [matchName, ih free.2]
      dsimp only
      rw [if_neg (Ne.symm free.1)]

/-- The name of an image file is read as the build it belongs to. -/
theorem localBuild_file (b : LocalBuild) (format : ImageFormat cs) :
    localBuild cs (b.file format) = some (b.image, b.buildId) := by
  have last : '-' ∉ b.buildId.toList ++ '.' :: format.text.toList := by
    intro mem
    rcases List.mem_append.mp mem with mem | mem
    · exact b.dash_notMem mem
    · rcases List.mem_cons.mp mem with h | mem
      · revert h
        decide
      · exact format.notMem cs.word_dash mem
  have read (image : List Char) (line : '\n' ∉ image) :
      matchName cs (image ++ '-' :: (b.buildId.toList ++ '.' :: format.text.toList)) =
        some (image, b.buildId.toList) := by
    induction image with
    | nil =>
        rw [List.nil_append, matchName, matchName_eq_none last]
        dsimp only
        rw [if_pos rfl, matchId_eq]
        rfl
    | cons c image ih =>
        rw [List.mem_cons, not_or] at line
        rw [List.cons_append, matchName, ih line.2]
        dsimp only
        rw [if_neg (Ne.symm line.1)]
  rw [localBuild, LocalBuild.file, toList_fileName, toList_base, List.append_assoc,
    List.cons_append, read _ b.image_line]
  simp

/-- The identifier of a local build has no dash. -/
theorem dash_notMem_of_matchName {l image buildId : List Char}
    (matched : matchName cs l = some (image, buildId)) : '-' ∉ buildId := by
  induction l generalizing image with
  | nil => cases matched
  | cons c l ih =>
      rw [matchName] at matched
      cases rest : matchName cs l with
      | some pair =>
          obtain ⟨image', buildId'⟩ := pair
          rw [rest] at matched
          dsimp only at matched
          split_ifs at matched
          obtain ⟨-, rfl⟩ := Prod.mk.inj (Option.some_inj.mp matched)
          exact ih rest
      | none =>
          rw [rest] at matched
          dsimp only at matched
          split_ifs at matched
          obtain ⟨found, id, same⟩ := Option.map_eq_some_iff.mp matched
          obtain ⟨-, rfl⟩ := Prod.mk.inj same
          unfold matchId at id
          split at id
          · split_ifs at id
            cases id
            intro mem
            have dash := List.mem_takeWhile_imp mem
            rw [hex_dash] at dash
            cases dash
          · cases id

theorem dash_notMem_of_mem {entries : List String} {image buildId : String}
    (mem : (image, buildId) ∈ getLocalBuilds cs entries) : '-' ∉ buildId.toList := by
  obtain ⟨entry, -, read⟩ := List.mem_filterMap.mp (List.mem_eraseDups.mp mem)
  obtain ⟨⟨image', buildId'⟩, matched, same⟩ := Option.map_eq_some_iff.mp read
  obtain ⟨-, rfl⟩ := Prod.mk.inj same
  rw [String.toList_ofList]
  exact dash_notMem_of_matchName matched

/-! ### The files of a build -/

/-- A name with a suffix is that of a file with this extension. -/
theorem stemSuffix_eq {file imageId extension : String} (ne : extension ≠ "") :
    stemSuffix file = (imageId, extension) ↔
      imageId ≠ "" ∧ '.' ∉ extension.toList ∧ file = fileName imageId extension := by
  have parts : file = fileName imageId extension ↔
      file.toList = imageId.toList ++ '.' :: extension.toList := by
    rw [← toList_fileName, String.toList_inj]
  rw [parts]
  unfold stemSuffix
  cases split : Text.rpartition '.' file.toList with
  | none =>
      have free := Text.rpartition_eq_none.mp split
      refine iff_of_false (fun h => ne (Prod.mk.inj h).2.symm) fun h => free ?_
      rw [h.2.2]
      exact List.mem_append_right _ List.mem_cons_self
  | some pair =>
      obtain ⟨stem, suffix⟩ := pair
      obtain ⟨whole, free⟩ := Text.rpartition_eq_some.mp split
      dsimp only
      constructor
      · intro h
        split_ifs at h with both
        · obtain ⟨rfl, rfl⟩ := Prod.mk.inj h
          simp only [String.toList_ofList]
          exact ⟨fun empty => both.1 (by simpa using congrArg String.toList empty), free, whole⟩
        · exact absurd (Prod.mk.inj h).2.symm ne
      · rintro ⟨ne', free', whole'⟩
        rw [whole] at whole'
        obtain ⟨rfl, rfl⟩ := Text.last_separator free free' whole'
        rw [if_pos ⟨toList_ne_nil.mpr ne', toList_ne_nil.mpr ne⟩, String.ofList_toList,
          String.ofList_toList]

/-- What is found for a build are the files that have its name and an extension. -/
theorem mem_fromImageId {files : List String} {imageId extension : String} (ne : imageId ≠ "")
    (ne' : extension ≠ "") : extension ∈ fromImageId files imageId ↔
      '.' ∉ extension.toList ∧ fileName imageId extension ∈ files := by
  have each (file : String) :
      ((if (stemSuffix file).1 = imageId then some (stemSuffix file).2 else none) =
        some extension) ↔ '.' ∉ extension.toList ∧ file = fileName imageId extension := by
    have whole : stemSuffix file = (imageId, extension) ↔
        '.' ∉ extension.toList ∧ file = fileName imageId extension :=
      (stemSuffix_eq ne').trans (and_iff_right ne)
    rw [← whole, Prod.ext_iff]
    split_ifs with same
    · simp [same]
    · simp [same]
  rw [fromImageId, List.mem_filterMap]
  simp only [each]
  constructor
  · rintro ⟨file, mem, free, rfl⟩
    exact ⟨free, mem⟩
  · rintro ⟨free, mem⟩
    exact ⟨_, mem, free, rfl⟩

theorem base_ne (image buildId : String) : base image buildId ≠ "" := by
  intro h
  have empty := congrArg String.toList h
  rw [toList_base] at empty
  exact List.append_ne_nil_of_right_ne_nil _ (List.cons_ne_nil _ _) empty

/-- What is found has no dot. -/
theorem dot_notMem_of_mem_fromImageId {files : List String} {imageId extension : String}
    (ne : imageId ≠ "") (mem : extension ∈ fromImageId files imageId) :
    '.' ∉ extension.toList := by
  by_cases empty : extension = ""
  · rw [empty]
    exact List.not_mem_nil
  · exact ((mem_fromImageId ne empty).mp mem).1

/-- What is found without an extension has the name of the build alone. -/
theorem mem_of_empty_mem_fromImageId {files : List String} {imageId : String}
    (mem : "" ∈ fromImageId files imageId) : imageId ∈ files := by
  obtain ⟨file, present, found⟩ := List.mem_filterMap.mp mem
  split_ifs at found with same
  have suffix := Option.some_inj.mp found
  have alone : (stemSuffix file).1 = file := by
    unfold stemSuffix at suffix ⊢
    split
    · rename_i stem suffix' split
      rw [split] at suffix
      dsimp only at suffix ⊢
      split_ifs at suffix ⊢ with both
      · exact absurd (by simpa using congrArg String.toList suffix) both.2
      · rfl
    · rfl
  rwa [← same, alone]

/-- A file of one build is not that of another. -/
theorem file_eq_fileName {b : LocalBuild} {format : ImageFormat cs}
    {image buildId extension : String} (dash : '-' ∉ buildId.toList) (dot : '.' ∉ extension.toList)
    (same : b.file format = fileName (base image buildId) extension) :
    b.image = image ∧ b.buildId = buildId ∧ format.text = extension := by
  rw [LocalBuild.file, ← String.toList_inj, toList_fileName, toList_fileName] at same
  obtain ⟨ids, formats⟩ := Text.last_separator (format.notMem cs.word_dot) dot same
  rw [toList_base, toList_base] at ids
  obtain ⟨images, builds⟩ := Text.last_separator b.dash_notMem dash ids
  exact ⟨String.toList_inj.mp images, String.toList_inj.mp builds, String.toList_inj.mp formats⟩

/-- Nor is it a checksum of one. -/
theorem mem_items {b : LocalBuild} {format : ImageFormat cs} {image buildId extension : String}
    (dash : '-' ∉ buildId.toList) (dot : '.' ∉ extension.toList)
    (mem : b.file format ∈ items (base image buildId) extension) :
    b.image = image ∧ b.buildId = buildId ∧ format.text = extension := by
  have checksum {name suffix : String} (free : '.' ∉ suffix.toList)
      (same : b.file format = fileName name suffix) : format.text = suffix := by
    rw [LocalBuild.file, ← String.toList_inj, toList_fileName, toList_fileName] at same
    exact String.toList_inj.mp (Text.last_separator (format.notMem cs.word_dot) free same).2
  simp only [items, List.mem_cons, List.not_mem_nil, or_false] at mem
  rcases mem with same | same | same
  · exact file_eq_fileName dash dot same
  · have md5 : fileName (base image buildId) extension ++ ".md5" =
        fileName (fileName (base image buildId) extension) "md5" := by
      rw [fileName.eq_def _ "md5", String.append_assoc]
      rfl
    exact absurd (checksum (by decide) (same.trans md5)) format.notChecksum.1
  · have sha256 : fileName (base image buildId) extension ++ ".sha256" =
        fileName (fileName (base image buildId) extension) "sha256" := by
      rw [fileName.eq_def _ "sha256", String.append_assoc]
      rfl
    exact absurd (checksum (by decide) (same.trans sha256)) format.notChecksum.2

/-! ### The directory and ZooKeeper -/

/-- What is in the znode of a build. -/
inductive BuildNode where
  /-- anything but JSON -/
  | undecodable
  | record (build : BuildRecord)

structure LocalWorld where
  /-- the names of what is in the directory of the images -/
  entries : List String
  /-- the names of the files in it -/
  files : List String
  /-- the znode of a build, if there is one -/
  node : String → String → Option BuildNode
  uploadNumbers : String → String → String → List String
  upload : UploadPath → Option UploadRecord

/-- `getBuild`, which returns nothing for what it cannot decode. -/
def LocalWorld.build (w : LocalWorld) (image buildId : String) : Option BuildRecord :=
  match w.node image buildId with
  | some (.record build) => some build
  | _ => none

/-- Some of these files are removed: a file that cannot be removed ends it. -/
def LocalWorld.Removes (w : LocalWorld) (names : List String) (w' : LocalWorld) : Prop :=
  ∃ removed ⊆ names, w' = { w with files := w.files.filter (· ∉ removed) }

/-- What a call of the cleanup worker does with the directory, and what it reads. -/
def Next (cs : Charset) (w : LocalWorld) : (c : Call) → LauncherSig.Reply c → LocalWorld → Prop
  | .getLocalBuilds, .ok builds, w' => builds = getLocalBuilds cs w.entries ∧ w' = w
  | .getBuildRecord image buildId, .ok build, w' => build = w.build image buildId ∧ w' = w
  | .getUploadNumbers image buildId provider, .ok numbers, w' =>
      numbers = w.uploadNumbers image buildId provider ∧ w' = w
  | .getUploadRecord path, .ok upload, w' => upload = w.upload path ∧ w' = w
  | .localImages image buildId, .ok extensions, w' =>
      extensions = fromImageId w.files (base image buildId) ∧ w' = w
  | .removeLocalImage image buildId extension, _, w' =>
      w.Removes (items (base image buildId) extension) w'
  | .deleteLocalBuild image buildId, _, w' =>
      w.Removes ((fromImageId w.files (base image buildId)).flatMap (items (base image buildId))) w'
  | _, _, w' => w' = w

/-- The provider has a READY upload of the build. -/
def HasReady (w : LocalWorld) (image buildId provider : String) : Prop :=
  ∃ number ∈ w.uploadNumbers image buildId provider, ∃ upload,
    w.upload ⟨image, buildId, provider, number⟩ = some upload ∧ upload.state = .ready

/-- Every provider that manages images and uses this one in this format has uploaded it, and it is
not to be kept. -/
def Prunable (config : BuilderConfig) (w : LocalWorld) (image buildId format : String) : Prop :=
  ∃ diskimage, config.diskimages.lookup image = some diskimage ∧
    diskimage.deleteAfterUpload = true ∧ format ∉ diskimage.keepImageTypes ∧
      ∀ p ∈ config.providers, p.manageImages = true → image ∈ p.diskimages →
        p.imageType = format → HasReady w image buildId p.name

/-- The record of the build says that this format may be removed. -/
def Removable (config : BuilderConfig) (w : LocalWorld) (image buildId format : String) : Prop :=
  ∃ build, w.node image buildId = some (.record build) ∧
    (build.state = .deleting ∨ build.state = .ready ∧ Prunable config w image buildId format)

/-- The condition under which an image file may be removed. -/
def MayRemove (config : BuilderConfig) (w : LocalWorld) (image buildId format : String) : Prop :=
  w.node image buildId = none ∨ w.node image buildId = some .undecodable ∨
    Removable config w image buildId format

theorem LocalWorld.build_eq_some {w : LocalWorld} {image buildId : String} {build : BuildRecord} :
    w.build image buildId = some build ↔ w.node image buildId = some (.record build) := by
  unfold LocalWorld.build
  rcases w.node image buildId with _ | _ | record <;> simp

theorem LocalWorld.build_eq_none {w : LocalWorld} {image buildId : String} :
    w.build image buildId = none ↔
      w.node image buildId = none ∨ w.node image buildId = some .undecodable := by
  unfold LocalWorld.build
  rcases w.node image buildId with _ | _ | record <;> simp

/-- `_cleanup` after the images: what it does with the local builds. -/
def cleanupLocalBuilds {σ : Type} (config : BuilderConfig) : LauncherM σ Unit := do
  let localBuilds ← call .getLocalBuilds
  forEach localBuilds (BuilderCleanup.cleanupLocalBuild config)

theorem cleanup_eq {σ : Type} (config : BuilderConfig) :
    (BuilderCleanup.cleanup config : LauncherM σ Unit) = (do
      let images ← call .getImageNames
      let table ← BuilderCleanup.buildUploadRecencyTable
      forEach images fun image => tryCatch (BuilderCleanup.cleanupImage config table image)
        fun _ => call (.log "Exception cleaning up image")
      cleanupLocalBuilds config) := rfl

/-! ### What a call can remove -/

section Cleanup

variable {config : BuilderConfig} {w₀ w w' : LocalWorld} {σ α : Type} {s : σ}

/-- Since the start only image files have been removed that may be. -/
structure Kept (cs : Charset) (config : BuilderConfig) (w₀ w : LocalWorld) : Prop where
  world : w = { w₀ with files := w.files }
  removed : ∀ (b : LocalBuild) (format : ImageFormat cs), b.file format ∈ w₀.files →
    b.file format ∉ w.files → MayRemove config w₀ b.image b.buildId format.text

theorem Kept.refl (cs : Charset) (config : BuilderConfig) (w : LocalWorld) : Kept cs config w w :=
  ⟨rfl, fun _ _ mem missing => absurd mem missing⟩

theorem Kept.removes (kept : Kept cs config w₀ w) {names : List String} (step : w.Removes names w')
    (may : ∀ (b : LocalBuild) (format : ImageFormat cs), b.file format ∈ names →
      MayRemove config w₀ b.image b.buildId format.text) : Kept cs config w₀ w' := by
  obtain ⟨removed, sub, rfl⟩ := step
  refine ⟨?_, fun b format mem missing => ?_⟩
  · conv_lhs => rw [kept.world]
  · by_cases present : b.file format ∈ w.files
    · refine may b format (sub ?_)
      by_contra other
      exact missing (List.mem_filter.mpr ⟨present, by simpa using other⟩)
    · exact kept.removed b format mem present

/-- One call. -/
theorem wp_next {c : Call} {Q : c.Val → σ → LocalWorld → Prop} {E : Err → σ → LocalWorld → Prop}
    (ok : ∀ v w', Next cs w c (.ok v) w' → Q v s w')
    (error : ∀ e w', Next cs w c (.error e) w' → E e s w') :
    (call c).wp (aloneContext (Next cs)) Q E s w := by
  refine wp_perform.mpr ?_
  rintro _ rfl _
  exact ⟨trivial, fun v w' h _ => ok v w' h, fun e w' h _ => error e w' h⟩

theorem wp_when {b : Prop} [Decidable b] {m : LauncherM σ Unit} {Γ : Context LauncherSig LocalWorld}
    {Q : Unit → σ → LocalWorld → Prop} {E : Err → σ → LocalWorld → Prop}
    (yes : b → m.wp Γ Q E s w) (no : ¬ b → Q () s w) : (when b m).wp Γ Q E s w := by
  unfold when
  by_cases h : b
  · rw [if_pos h]
    exact yes h
  · rw [if_neg h]
    exact no h

/-- An upload that is found is READY. -/
theorem getMostRecentUploads_wp {image buildId provider : String} :
    (getMostRecentUploads 1 image buildId provider .ready).wp (aloneContext (Next cs))
      (fun uploads _ w' => w' = w ∧ (uploads ≠ [] → HasReady w image buildId provider))
      (fun _ _ w' => w' = w) s w := by
  have records : (getUploadRecords image buildId provider (some [.ready])).wp
      (aloneContext (Next cs))
      (fun uploads _ w' => w' = w ∧ ∀ upload ∈ uploads, HasReady w image buildId provider)
      (fun _ _ w' => w' = w) s w := by
    refine wp_bind.mpr (wp_next (c := .getUploadNumbers image buildId provider) ?_ fun _ _ h => h)
    rintro _ w₁ ⟨rfl, rfl⟩
    refine wp_gather_forall (J := fun _ w' => w' = w₁) (fun number mem s w₂ same => ?_) rfl
    obtain rfl := same
    refine wp_bind.mpr (wp_next (c := .getUploadRecord ⟨image, buildId, provider, number⟩) ?_
      fun _ _ h => h)
    rintro _ _ ⟨rfl, rfl⟩
    refine ⟨rfl, fun upload found => ?_⟩
    obtain ⟨found, ready⟩ := List.mem_filter.mp found
    refine ⟨number, mem, upload, Option.mem_toList.mp found, ?_⟩
    simpa using ready
  refine wp_bind.mpr (wp_mono records ?_ fun _ _ _ h => h)
  rintro uploads s₁ _ ⟨rfl, ready⟩
  refine ⟨rfl, fun some_ => ?_⟩
  cases uploads with
  | nil => exact absurd (by simp [mostRecentFirst]) some_
  | cons upload uploads => exact ready upload List.mem_cons_self

/-- A format that is not to be kept has been uploaded by each provider that uses it. -/
theorem toKeep_wp {image buildId : String} {providers : List BuilderProvider} :
    (gather providers fun provider =>
      if provider.manageImages ∧ image ∈ provider.diskimages then do
        let uploads ← getMostRecentUploads 1 image buildId provider.name .ready
        pure (if uploads = [] then [provider.imageType] else [])
      else pure []).wp (aloneContext (Next cs))
      (fun toKeep _ w' => w' = w ∧ ∀ p ∈ providers, p.manageImages = true → image ∈ p.diskimages →
        p.imageType ∉ toKeep → HasReady w image buildId p.name)
      (fun _ _ w' => w' = w) s w := by
  induction providers generalizing s with
  | nil => exact ⟨rfl, nofun⟩
  | cons provider providers ih =>
      have first : (if provider.manageImages ∧ image ∈ provider.diskimages then do
            let uploads ← getMostRecentUploads 1 image buildId provider.name .ready
            pure (if uploads = [] then [provider.imageType] else [])
          else pure [] : LauncherM σ (List String)).wp (aloneContext (Next cs))
          (fun toKeep _ w' => w' = w ∧ (provider.manageImages = true → image ∈ provider.diskimages →
            provider.imageType ∉ toKeep → HasReady w image buildId provider.name))
          (fun _ _ w' => w' = w) s w := by
        split_ifs with uses
        · refine wp_bind.mpr (wp_mono getMostRecentUploads_wp ?_ fun _ _ _ h => h)
          rintro uploads _ _ ⟨same, ready⟩
          refine ⟨same, fun _ _ missing => ready fun none => missing ?_⟩
          rw [if_pos none]
          exact List.mem_cons_self
        · exact ⟨rfl, fun manages used => absurd ⟨manages, used⟩ uses⟩
      refine wp_bind.mpr (wp_mono first ?_ fun _ _ _ h => h)
      rintro toKeep s₁ w₁ ⟨same, head⟩
      obtain rfl : w = w₁ := same.symm
      refine wp_bind.mpr (wp_mono ih ?_ fun _ _ _ h => h)
      rintro rest s₂ w₂ ⟨same, tail⟩
      refine ⟨same, fun p mem manages used missing => ?_⟩
      rcases List.mem_cons.mp mem with rfl | mem
      · exact head manages used (mt (List.mem_append_left _) missing)
      · exact tail p mem manages used (mt (List.mem_append_right _) missing)

/-- A removal of files of one build that may be removed. -/
theorem Kept.items (kept : Kept cs config w₀ w) {image buildId : String}
    (dash : '-' ∉ buildId.toList) {extensions : List String}
    (dots : ∀ extension ∈ extensions, '.' ∉ extension.toList)
    (step : w.Removes (extensions.flatMap (LocalImages.items (base image buildId))) w')
    (may : ∀ extension ∈ extensions, MayRemove config w₀ image buildId extension) :
    Kept cs config w₀ w' := by
  refine kept.removes step fun b format mem => ?_
  obtain ⟨extension, found, mem⟩ := List.mem_flatMap.mp mem
  obtain ⟨rfl, rfl, rfl⟩ := mem_items dash (dots extension found) mem
  exact may _ found

theorem Kept.build (kept : Kept cs config w₀ w) : w.build = w₀.build := by
  rw [kept.world]
  rfl

theorem Kept.hasReady (kept : Kept cs config w₀ w) {image buildId provider : String} :
    HasReady w image buildId provider ↔ HasReady w₀ image buildId provider := by
  rw [kept.world]
  rfl

/-- `_pruneLocalBuildFormats` of a READY build -/
theorem pruneLocalBuildFormats_wp {image buildId : String} (kept : Kept cs config w₀ w)
    (dash : '-' ∉ buildId.toList) {build : BuildRecord}
    (found : w₀.build image buildId = some build) (ready : build.state = .ready) :
    (BuilderCleanup.pruneLocalBuildFormats config image buildId).wp (aloneContext (Next cs))
      (fun _ _ => Kept cs config w₀) (fun _ _ => Kept cs config w₀) s w := by
  unfold BuilderCleanup.pruneLocalBuildFormats
  cases configured : config.diskimages.lookup image with
  | none => exact kept
  | some diskimage =>
      refine wp_when (fun deletes => ?_) fun _ => kept
      refine wp_bind.mpr (wp_mono toKeep_wp ?_ fun _ _ _ same => same ▸ kept)
      rintro toKeep s₁ w₁ ⟨same, uploaded⟩
      obtain rfl : w = w₁ := same.symm
      refine wp_bind.mpr (wp_next (c := .localImages image buildId) ?_ fun _ _ same => same ▸ kept)
      rintro _ w₂ ⟨rfl, same⟩
      obtain rfl : w = w₂ := same.symm
      refine Keeps.forEach_mem (A := fun _ => Kept cs config w₀)
        (fun extension mem s w₁ kept' => ?_) s₁ w kept
      refine wp_when (fun unkept => ?_) fun _ => kept'
      rw [List.mem_append, not_or] at unkept
      have dot := dot_notMem_of_mem_fromImageId (base_ne image buildId) mem
      have may : MayRemove config w₀ image buildId extension := by
        refine .inr (.inr ⟨build, LocalWorld.build_eq_some.mp found, .inr ⟨ready, diskimage,
          configured, deletes, unkept.1, ?_⟩⟩)
        intro p mem manages used format
        exact kept.hasReady.mp (uploaded p mem manages used (format ▸ unkept.2))
      have step {w₂ : LocalWorld}
          (removes : w₁.Removes (LocalImages.items (base image buildId) extension) w₂) :
          Kept cs config w₀ w₂ := by
        have dots : ∀ e ∈ [extension], '.' ∉ e.toList := by simpa using dot
        have mays : ∀ e ∈ [extension], MayRemove config w₀ image buildId e := by simpa using may
        have removes :
            w₁.Removes ([extension].flatMap (LocalImages.items (base image buildId))) w₂ := by
          simpa using removes
        exact Kept.items kept' dash dots removes mays
      exact wp_next (c := .removeLocalImage image buildId extension) (fun _ _ h => step h)
        fun _ _ h => step h

theorem cleanupLocalBuild_keeps {localBuild : String × String}
    (dash : '-' ∉ localBuild.2.toList) :
    Keeps (aloneContext (Next cs)) (fun (_ : σ) => Kept cs config w₀)
      (BuilderCleanup.cleanupLocalBuild config localBuild) := by
  obtain ⟨image, buildId⟩ := localBuild
  intro s w kept
  refine wp_tryCatch.mpr ?_
  have handler {s : σ} {w : LocalWorld} (kept : Kept cs config w₀ w) :
      (call (.log "Exception cleaning up local build") : LauncherM σ Unit).wp
        (aloneContext (Next cs)) (fun _ _ => Kept cs config w₀) (fun _ _ => Kept cs config w₀)
        s w :=
    wp_next (c := .log _) (fun _ _ same => same ▸ kept) fun _ _ same => same ▸ kept
  suffices body : (do
      let build ← call (.getBuildRecord image buildId)
      when (build.all (·.state = .deleting)) (call (.deleteLocalBuild image buildId))
      when (build.any (·.state = .ready))
        (BuilderCleanup.pruneLocalBuildFormats config image buildId) : LauncherM σ Unit).wp
      (aloneContext (Next cs)) (fun _ _ => Kept cs config w₀) (fun _ _ => Kept cs config w₀)
      s w from
    wp_mono body (fun _ _ _ h => h) fun _ _ _ h => handler h
  refine wp_bind.mpr (wp_next (c := .getBuildRecord image buildId) ?_ fun _ _ same => same ▸ kept)
  rintro _ w₁ ⟨rfl, same⟩
  obtain rfl : w = w₁ := same.symm
  rw [kept.build]
  refine wp_bind.mpr ?_
  have rest {s : σ} {w : LocalWorld} (kept : Kept cs config w₀ w) :
      (when ((w₀.build image buildId).any (·.state = .ready))
        (BuilderCleanup.pruneLocalBuildFormats config image buildId) : LauncherM σ Unit).wp
      (aloneContext (Next cs)) (fun _ _ => Kept cs config w₀) (fun _ _ => Kept cs config w₀)
      s w := by
    refine wp_when (fun ready => ?_) fun _ => kept
    cases found : w₀.build image buildId with
    | none =>
        rw [found] at ready
        cases ready
    | some build =>
        rw [found] at ready
        exact pruneLocalBuildFormats_wp kept dash found (of_decide_eq_true ready)
  refine wp_when (fun deleting => ?_) fun _ => rest kept
  have may (extension : String) : MayRemove config w₀ image buildId extension := by
    cases found : w₀.build image buildId with
    | none => exact (LocalWorld.build_eq_none.mp found).imp_right .inl
    | some build =>
        rw [found] at deleting
        exact .inr (.inr ⟨build, LocalWorld.build_eq_some.mp found,
          .inl (of_decide_eq_true deleting)⟩)
  have step {w₂ : LocalWorld} (removes : w.Removes
      ((fromImageId w.files (base image buildId)).flatMap (LocalImages.items (base image buildId)))
      w₂) : Kept cs config w₀ w₂ :=
    kept.items dash (fun _ => dot_notMem_of_mem_fromImageId (base_ne image buildId)) removes
      fun extension _ => may extension
  exact wp_next (c := .deleteLocalBuild image buildId) (fun _ _ h => rest (step h))
    fun _ _ h => step h

/-- The files of local builds that may not be removed are kept. -/
theorem cleanupLocalBuilds_keeps :
    Keeps (aloneContext (Next cs)) (fun (_ : σ) => Kept cs config w₀)
      (cleanupLocalBuilds config) := by
  intro s w kept
  refine wp_bind.mpr (wp_next (c := .getLocalBuilds) ?_ fun _ _ same => same ▸ kept)
  rintro _ w₁ ⟨rfl, same⟩
  obtain rfl : w = w₁ := same.symm
  exact Keeps.forEach_mem (fun _ mem => cleanupLocalBuild_keeps (dash_notMem_of_mem mem)) s w kept

end Cleanup

/-- The scan finds the build of each image file, and no build without a name that is read as
it. -/
theorem getLocalBuilds_spec (cs : Charset) (entries : List String) :
    (∀ (b : LocalBuild) (format : ImageFormat cs), b.file format ∈ entries →
      (b.image, b.buildId) ∈ getLocalBuilds cs entries) ∧
    ∀ localBuild' ∈ getLocalBuilds cs entries,
      ∃ entry ∈ entries, localBuild cs entry = some localBuild' := by
  refine ⟨fun b format mem => ?_, fun found mem => ?_⟩
  · exact List.mem_eraseDups.mpr (List.mem_filterMap.mpr ⟨_, mem, localBuild_file b format⟩)
  · exact List.mem_filterMap.mp (List.mem_eraseDups.mp mem)

/-- The names of image files are read as the builds they belong to, the local scan finds these
builds, what is found for a build are its files, and the cleanup removes no image file but those
that it may remove. -/
theorem localImages_safe (cs : Charset) (config : BuilderConfig) :
    (∀ (b : LocalBuild) (format : ImageFormat cs),
      localBuild cs (b.file format) = some (b.image, b.buildId)) ∧
    (∀ entries : List String,
      (∀ (b : LocalBuild) (format : ImageFormat cs), b.file format ∈ entries →
        (b.image, b.buildId) ∈ getLocalBuilds cs entries) ∧
      ∀ localBuild' ∈ getLocalBuilds cs entries,
        ∃ entry ∈ entries, localBuild cs entry = some localBuild') ∧
    (∀ (b : LocalBuild) (files : List String),
      (∀ extension, extension ≠ "" → (extension ∈ fromImageId files (base b.image b.buildId) ↔
        '.' ∉ extension.toList ∧ fileName (base b.image b.buildId) extension ∈ files)) ∧
      ("" ∈ fromImageId files (base b.image b.buildId) → base b.image b.buildId ∈ files)) ∧
    (∀ (b b' : LocalBuild) (format : ImageFormat cs) (extension : String),
      '.' ∉ extension.toList → b.file format = fileName (base b'.image b'.buildId) extension →
        b.image = b'.image ∧ b.buildId = b'.buildId ∧ format.text = extension) ∧
    ∀ (w w' : LocalWorld) (out : Except Err Unit × Unit),
      (cleanupLocalBuilds config ()).Exec (Next cs) w out w' →
        ∀ (b : LocalBuild) (format : ImageFormat cs), b.file format ∈ w.files →
          b.file format ∉ w'.files → MayRemove config w b.image b.buildId format.text := by
  refine ⟨localBuild_file, getLocalBuilds_spec cs,
    fun b files => ⟨fun _ => mem_fromImageId (base_ne _ _), mem_of_empty_mem_fromImageId⟩,
    fun b b' format extension dot => file_eq_fileName b'.dash_notMem dot, ?_⟩
  intro w w' out exec
  have ends := exec.sound (cleanupLocalBuilds_keeps () w (Kept.refl cs config w))
  obtain ⟨result, _⟩ := out
  cases result <;> exact ends.removed

/-! ### A build whose znode is empty -/

/-- The ASCII characters of `\d` and `\w`. -/
def exampleCharset : Charset where
  digit := Char.isDigit
  word c := c.isAlphanum || c = '_'
  digit_ascii := by simp
  digit_word c digit := by simp [Char.isAlphanum, digit]
  word_dash := rfl
  word_dot := rfl

def exampleConfig : BuilderConfig where
  providers := []
  unique := List.nodup_nil
  diskimages := ∅
  managers := []

/-- A build of an image whose name has a dash and a dot. -/
def exampleBuild : LocalBuild where
  image := "ubuntu-22.04"
  buildId := "0f"
  image_line := by decide
  buildId_ne := by decide
  buildId_hex := by simp

def exampleFormat : ImageFormat exampleCharset where
  text := "qcow2"
  text_ne := by decide
  text_word := by simp [exampleCharset]
  notChecksum := by decide

/-- The znode of the build holds no JSON. -/
def exampleWorld : LocalWorld where
  entries := ["ubuntu-22.04-0f.qcow2"]
  files := ["ubuntu-22.04-0f.qcow2"]
  node _ _ := some .undecodable
  uploadNumbers _ _ _ := []
  upload _ := none

/-- The image of the build is removed. -/
theorem exampleRun : (cleanupLocalBuilds exampleConfig ()).Exec (Next exampleCharset) exampleWorld
    (.ok (), ()) { exampleWorld with files := [] } := by
  have scan : getLocalBuilds exampleCharset exampleWorld.entries = [("ubuntu-22.04", "0f")] := by
    decide
  refine .call (r := .ok [("ubuntu-22.04", "0f")]) ⟨scan.symm, rfl⟩ ?_
  refine .call (r := .ok none) ⟨rfl, rfl⟩ ?_
  refine .call (r := .ok ()) ⟨["ubuntu-22.04-0f.qcow2"], ?_, rfl⟩ (.pure _ _)
  decide

/-- The build is neither absent from ZooKeeper nor DELETING. -/
theorem not_forall_removable :
    ¬ ∀ (cs : Charset) (config : BuilderConfig) (w w' : LocalWorld) (out : Except Err Unit × Unit),
      (cleanupLocalBuilds config ()).Exec (Next cs) w out w' →
        ∀ (b : LocalBuild) (format : ImageFormat cs), b.file format ∈ w.files →
          b.file format ∉ w'.files →
            w.node b.image b.buildId = none ∨ Removable config w b.image b.buildId format.text := by
  intro h
  have present : exampleBuild.file exampleFormat ∈ exampleWorld.files := by decide
  rcases h exampleCharset exampleConfig exampleWorld _ _ exampleRun exampleBuild exampleFormat
    present List.not_mem_nil with absent | ⟨build, record, -⟩
  · cases absent
  · cases record

end Nodepool.LocalImages
