import Nodepool.Driver.HandlerFootprint
import Nodepool.IbmVpc.ImageSystem

/-!
When images in IBM Cloud survive the scans. The name of an image holds the number
of its upload but not its build, so no scan ever knows the upload, and the image is
deleted by the first scan that lists it after one that listed the same number.
Unless that happens, an image or object is deleted only when its record is gone.
-/

namespace Nodepool

open Effect Method ImageWorld

namespace IBMVPCAdapter

theorem dropFinalNewline_cons_cons (a b : Char) (cs : List Char) :
    ∃ rest, dropFinalNewline (a :: b :: cs) = a :: rest := by
  unfold dropFinalNewline
  split
  · exact ⟨(b :: cs).dropLast, rfl⟩
  · exact ⟨b :: cs, rfl⟩

/-- The name of an image is not the name of a node. -/
theorem matchHostname_image (rest : String) : matchHostname ("npimage" ++ rest) = none := by
  have chars :
      ("npimage" ++ rest).toList = 'n' :: 'p' :: 'i' :: 'm' :: ("age".toList ++ rest.toList) :=
    String.toList_append
  have hbehind :
      behind "np" ("npimage" ++ rest) = some ('i' :: 'm' :: ("age".toList ++ rest.toList)) := by
    unfold behind
    rw [chars, if_pos ⟨_, rfl⟩]
    rfl
  obtain ⟨tail, htail⟩ := dropFinalNewline_cons_cons 'i' 'm' ("age".toList ++ rest.toList)
  rw [matchHostname, hbehind, Option.bind_some, matchToEnd, htail]
  simp

end IBMVPCAdapter

/-- A scan that remembers these resources deletes the resource for its upload. -/
def remembers (leaks : Leaks) (r : Resource) : Bool :=
  match given r.metadata.uploadId with
  | none => false
  | some number => decide ((r.metadata.buildId, number) ∈ leaks.uploads)

namespace ImageSystem

/-- The resource is no image or object of an upload that is recorded. -/
def Unrecorded (w : ImageWorld) (r : Resource) : Prop :=
  ∀ p, w.ownerOf r = some p → p ∉ w.uploads

/-- No step lists the image or the object of a recorded upload to a scan that
remembers its number, or writes the object of one over an object that a scan has
listed and is about to delete. -/
def NumbersDiffer (provider : String) (w : ImageWorld) : Event (imageSystem provider) → Prop
  | .call (.cleanup k) (.listPage _) (.ok resources) =>
      ∀ r ∈ resources, remembers (w.leaks k) r = true → Unrecorded w r
  | .call (.uploader j) (.putObject key) _ =>
      ∀ p, w.current j = some p → p ∈ w.uploads → ∀ k, ∀ r ∈ w.listed k,
        r.type = .typeObject → r.id = key → remembers (w.leaks k) r = false
  | _ => True

structure Consistent (w : ImageWorld) : Prop where
  uploads : w.uploads ⊆ w.born
  current : ∀ k p, w.current k = some p → p ∈ w.born
  images : ∀ id i, w.images.lookup id = some i → id ∈ w.imageIds ∧
    ∀ p, i.owner = some p → p ∈ w.born ∧ ∃ rest, i.name = "npimage" ++ rest
  objects : ∀ key p, w.objects.lookup key = some (some p) →
    p ∈ w.born ∧ ∃ rest, key = "npimage" ++ rest

/-- What `me` can rely on while the others work. -/
structure Later (me : ImageThread) (w w' : ImageWorld) : Prop where
  born : w.born ⊆ w'.born
  uploads : ∀ p ∈ w.born, p ∉ w.uploads → p ∉ w'.uploads
  imageIds : w.imageIds ⊆ w'.imageIds
  images : ∀ id ∈ w.imageIds, ∀ i, w'.images.lookup id = some i → w.images.lookup id = some i
  leaks : ∀ k, me = .cleanup k → w'.leaks k = w.leaks k
  listed : ∀ k, me = .cleanup k → w'.listed k = w.listed k
  objects : ∀ k, me = .cleanup k → ∀ key p, w'.objects.lookup key = some (some p) →
    w.objects.lookup key = some (some p) ∨ (p ∈ w'.born ∧ p ∉ w'.uploads) ∨
    ∀ r ∈ w.listed k, r.type = .typeObject → r.id = key → remembers (w.leaks k) r = false

theorem Later.refl (me : ImageThread) (w : ImageWorld) : Later me w w where
  born := List.Subset.refl _
  uploads _ _ h := h
  imageIds := List.Subset.refl _
  images _ _ _ h := h
  leaks _ _ := rfl
  listed _ _ := rfl
  objects _ _ _ _ h := Or.inl h

theorem Later.trans {me : ImageThread} {a b c : ImageWorld} (h : Later me a b)
    (h' : Later me b c) : Later me a c where
  born := List.Subset.trans h.born h'.born
  uploads p hp hgone := h'.uploads p (h.born hp) (h.uploads p hp hgone)
  imageIds := List.Subset.trans h.imageIds h'.imageIds
  images id hid i hi := h.images id hid i (h'.images id (h.imageIds hid) i hi)
  leaks k hme := (h'.leaks k hme).trans (h.leaks k hme)
  listed k hme := (h'.listed k hme).trans (h.listed k hme)
  objects k hme key p hkey := by
    rcases h'.objects k hme key p hkey with hb | hgone | hfree
    · rcases h.objects k hme key p hb with ha | ⟨hborn, hgone⟩ | hfree
      · exact Or.inl ha
      · exact Or.inr (Or.inl ⟨h'.born hborn, h'.uploads p hborn hgone⟩)
      · exact Or.inr (Or.inr hfree)
    · exact Or.inr (Or.inl hgone)
    · rw [h.listed k hme, h.leaks k hme] at hfree
      exact Or.inr (Or.inr hfree)

/-- What a thread must respect when it makes a call. -/
def Req (me : ImageThread) (w : ImageWorld) : Call → Prop
  | .putObject key => ∃ rest, key = "npimage" ++ rest
  | .createImage name _ _ => ∃ rest, name = "npimage" ++ rest
  | .deleteResource r => ∃ k, me = .cleanup k ∧ Unrecorded w r
  | _ => True

/-! ### One step -/

section Step

variable {w : ImageWorld} {me : ImageThread}

theorem Consistent.addUpload (h : Consistent w) (k : Nat) (path : UploadPath) :
    Consistent (w.addUpload k path) where
  uploads := List.cons_subset_cons path h.uploads
  current j p hp := by
    simp only [addUpload_current] at hp
    by_cases e : j = k
    · rw [e, Function.update_self, Option.some.injEq] at hp
      exact hp ▸ List.mem_cons_self
    · rw [Function.update_of_ne e] at hp
      exact List.mem_cons_of_mem _ (h.current j p hp)
  images id i hi := (h.images id i hi).imp_right fun hi' p hp =>
    (hi' p hp).imp_left fun hb => List.mem_cons_of_mem _ hb
  objects key p hp := (h.objects key p hp).imp_left fun hb => List.mem_cons_of_mem _ hb

theorem Later.addUpload (k : Nat) {path : UploadPath} (fresh : path ∉ w.born) :
    Later me w (w.addUpload k path) :=
  { Later.refl me w with
    born := List.subset_cons_self _ _
    uploads := fun p hp hgone => by
      simp only [addUpload_uploads, List.mem_cons, not_or]
      exact ⟨fun e => fresh (e ▸ hp), hgone⟩
    objects := fun _ _ _ _ h => Or.inl h }

theorem Consistent.addImage (h : Consistent w) (id : String) {i : CloudImage}
    (owner : ∀ p, i.owner = some p → p ∈ w.born ∧ ∃ rest, i.name = "npimage" ++ rest) :
    Consistent (w.addImage id i) :=
  { h with
    images := by
      intro id' i' hi
      simp only [addImage_images] at hi
      by_cases e : id' = id
      · rw [e, AList.lookup_insert, Option.some.injEq] at hi
        subst hi
        exact ⟨by rw [e]; exact List.mem_cons_self, owner⟩
      · rw [AList.lookup_insert_ne e] at hi
        exact (h.images id' i' hi).imp_left fun hid => List.mem_cons_of_mem _ hid }

theorem Later.addImage {id : String} (fresh : id ∉ w.imageIds) (i : CloudImage) :
    Later me w (w.addImage id i) :=
  { Later.refl me w with
    imageIds := List.subset_cons_self _ _
    images := fun id' hid i' hi => by
      have e : id' ≠ id := fun e => fresh (e ▸ hid)
      simp only [addImage_images] at hi
      rwa [AList.lookup_insert_ne e] at hi }

theorem lookup_of_lookup_erase {κ ν : Type} [DecidableEq κ] {d : Dict κ ν} {k k' : κ} {v : ν}
    (h : (d.erase k').lookup k = some v) : d.lookup k = some v := by
  by_cases e : k = k'
  · rw [e, AList.lookup_erase] at h
    cases h
  · rwa [AList.lookup_erase_ne e] at h

theorem Consistent.removeImage (h : Consistent w) (id : String) : Consistent (w.removeImage id) :=
  { h with images := fun id' i hi => h.images id' i (lookup_of_lookup_erase hi) }

theorem Later.removeImage (id : String) : Later me w (w.removeImage id) :=
  { Later.refl me w with images := fun _ _ _ hi => lookup_of_lookup_erase hi }

theorem Consistent.removeObject (h : Consistent w) (key : String) :
    Consistent (w.removeObject key) :=
  { h with objects := fun key' p hp => h.objects key' p (lookup_of_lookup_erase hp) }

theorem Later.removeObject (key : String) : Later me w (w.removeObject key) :=
  { Later.refl me w with objects := fun _ _ _ _ hp => Or.inl (lookup_of_lookup_erase hp) }

theorem Consistent.putObject (h : Consistent w) (key : String) {owner : Option UploadPath}
    (ho : ∀ p, owner = some p → p ∈ w.born ∧ ∃ rest, key = "npimage" ++ rest) :
    Consistent (w.putObject key owner) :=
  { h with
    objects := by
      intro key' p hp
      simp only [putObject_objects] at hp
      by_cases e : key' = key
      · rw [e, AList.lookup_insert, Option.some.injEq] at hp
        rw [e]
        exact ho p hp
      · rw [AList.lookup_insert_ne e] at hp
        exact h.objects key' p hp }

/-- An object is written, by others or for an upload that no scan is after. -/
theorem Later.putObject (key : String) {owner : Option UploadPath}
    (ho : ∀ k, me = .cleanup k → ∀ p, owner = some p → (p ∈ w.born ∧ p ∉ w.uploads) ∨
      ∀ r ∈ w.listed k, r.type = .typeObject → r.id = key → remembers (w.leaks k) r = false) :
    Later me w (w.putObject key owner) :=
  { Later.refl me w with
    objects := by
      intro k hme key' p hp
      simp only [putObject_objects] at hp
      by_cases e : key' = key
      · rw [e, AList.lookup_insert, Option.some.injEq] at hp
        rw [e]
        exact Or.inr (ho k hme p hp)
      · rw [AList.lookup_insert_ne e] at hp
        exact Or.inl hp }

theorem Consistent.setListed (h : Consistent w) (k : Nat) (rs : List Resource) :
    Consistent (w.setListed k rs) :=
  { h with }

theorem Later.setListed {k : Nat} (hme : me ≠ .cleanup k) (rs : List Resource) :
    Later me w (w.setListed k rs) :=
  { Later.refl me w with
    listed := fun k' hk' => by
      simp only [setListed_listed]
      exact Function.update_of_ne (fun e => hme (by rw [hk', e])) _ _ }

theorem Consistent.setLeaks (h : Consistent w) (k : Nat) (leaks : Leaks) :
    Consistent (w.setLeaks k leaks) :=
  { h with }

theorem Later.setLeaks {k : Nat} (hme : me ≠ .cleanup k) (leaks : Leaks) :
    Later me w (w.setLeaks k leaks) :=
  { Later.refl me w with
    leaks := fun k' hk' => by
      simp only [setLeaks_leaks]
      exact Function.update_of_ne (fun e => hme (by rw [hk', e])) _ _ }

/-- Deleting a resource takes away an image, an object or a server. -/
theorem Consistent.deleteResource (h : Consistent w) (r : Resource) :
    Consistent (w.deleteResource r) ∧ ∀ j, Later j w (w.deleteResource r) := by
  unfold ImageWorld.deleteResource
  split
  · exact ⟨h.removeImage _, fun j => Later.removeImage _⟩
  · exact ⟨h.removeObject _, fun j => Later.removeObject _⟩
  · exact ⟨{ h with }, fun j => { Later.refl j w with }⟩

end Step

/-- The calls that change nothing in this world. -/
def Quiet : Call → Prop
  | .createImageUpload _ _ _ _ | .putObject _ | .deleteObject _ | .createResourceGroup _
  | .createImage _ _ _ | .listResources | .listPage _ | .deleteResource _
  | .assignPossiblyLeaked _ => False
  | _ => True

variable {provider : String}

theorem next_quiet {me : ImageThread} {w w' : ImageWorld} {c : Call} {r : LauncherSig.Reply c}
    (hc : Quiet c) (hn : w' ∈ next provider me w c r) : w' = w := by
  cases c <;> cases r <;> first | exact absurd hc id | skip
  all_goals
    simp only [next] at hn
    first
      | exact List.mem_singleton.mp hn
      | cases hn
      | (split at hn
         · split at hn
           · exact List.mem_singleton.mp hn
           · cases hn
         · cases hn)

/-- **Step lemma.** A call that respects `Req`, in a step that meets the condition,
keeps the world consistent, and every other thread sees a later world. -/
theorem next_step {me : ImageThread} {w w' : ImageWorld} {c : Call} {r : LauncherSig.Reply c}
    (h : Consistent w) (hreq : Req me w c) (hok : NumbersDiffer provider w (.call me c r))
    (hn : w' ∈ next provider me w c r) :
    Consistent w' ∧ ∀ j, j ≠ me → Later j w w' := by
  cases c with
  | createImageUpload image buildId p data =>
      rcases r with e | number
      · obtain rfl := List.mem_singleton.mp hn
        exact ⟨h, fun j _ => .refl j _⟩
      · simp only [next] at hn
        split at hn
        · rename_i k
          split at hn
          · rename_i hfresh
            obtain rfl := List.mem_singleton.mp hn
            exact ⟨h.addUpload k _, fun j _ => .addUpload k hfresh.2⟩
          · cases hn
        · cases hn
  | putObject key =>
      cases me with
      | cleanup k => cases r <;> cases hn
      | uploader j =>
          have cases_ : w' = w.putObject key (w.current j) ∨ w' = w := by
            cases r <;> simpa [next] using hn
          have hcond : ∀ p, w.current j = some p → p ∈ w.uploads → ∀ k, ∀ r ∈ w.listed k,
              r.type = .typeObject → r.id = key → remembers (w.leaks k) r = false := by
            cases r <;> exact hok
          rcases cases_ with rfl | rfl
          · refine ⟨h.putObject key fun p hp => ⟨h.current j p hp, hreq⟩, fun i _ =>
              .putObject key fun k _ p hp => ?_⟩
            by_cases hmem : p ∈ w.uploads
            · exact Or.inr (hcond p hp hmem k)
            · exact Or.inl ⟨h.current j p hp, hmem⟩
          · exact ⟨h, fun i _ => .refl i _⟩
  | deleteObject key =>
      have cases_ : w' = w.removeObject key ∨ w' = w := by
        cases r <;> simpa [next] using hn
      rcases cases_ with rfl | rfl
      · exact ⟨h.removeObject key, fun j _ => .removeObject key⟩
      · exact ⟨h, fun j _ => .refl j _⟩
  | createResourceGroup name =>
      have cases_ : w' = { w with groups := name :: w.groups } ∨ w' = w := by
        cases r <;> simpa [next] using hn
      rcases cases_ with rfl | rfl
      · exact ⟨{ h with }, fun j _ => { Later.refl j w with }⟩
      · exact ⟨h, fun j _ => .refl j _⟩
  | createImage name group url =>
      rcases r with e | id
      · obtain rfl := List.mem_singleton.mp hn
        exact ⟨h, fun j _ => .refl j _⟩
      · simp only [next] at hn
        split at hn
        · rename_i k
          split at hn
          · cases hn
          · rename_i hfresh
            obtain rfl := List.mem_singleton.mp hn
            exact ⟨h.addImage id fun p hp => ⟨h.current k p hp, hreq⟩, fun j _ =>
              .addImage hfresh _⟩
        · cases hn
  | listResources =>
      rcases r with e | pages
      · obtain rfl := List.mem_singleton.mp hn
        exact ⟨h, fun j _ => .refl j _⟩
      · simp only [next] at hn
        split at hn
        · split at hn
          · obtain rfl := List.mem_singleton.mp hn
            exact ⟨h.setListed _ _, fun j hj => .setListed hj _⟩
          · cases hn
        · cases hn
  | listPage n =>
      rcases r with e | resources
      · obtain rfl := List.mem_singleton.mp hn
        exact ⟨h, fun j _ => .refl j _⟩
      · simp only [next] at hn
        split at hn
        · split at hn
          · obtain rfl := List.mem_singleton.mp hn
            exact ⟨h.setListed _ _, fun j hj => .setListed hj _⟩
          · cases hn
        · cases hn
  | deleteResource res =>
      cases me with
      | uploader k => cases r <;> cases hn
      | cleanup k =>
          have hs := h.setListed k ((w.listed k).erase res)
          have hl : ∀ j, j ≠ .cleanup k → Later j w (w.setListed k ((w.listed k).erase res)) :=
            fun j hj => .setListed hj _
          have cases_ : w' = (w.setListed k ((w.listed k).erase res)).deleteResource res ∨
              w' = w.setListed k ((w.listed k).erase res) := by
            cases r <;> simpa [next] using hn
          rcases cases_ with rfl | rfl
          · exact ⟨(hs.deleteResource res).1, fun j hj =>
              (hl j hj).trans ((hs.deleteResource res).2 j)⟩
          · exact ⟨hs, hl⟩
  | assignPossiblyLeaked leaks =>
      rcases r with e | v
      · cases hn
      · simp only [next] at hn
        split at hn
        · rename_i k
          obtain rfl := List.mem_singleton.mp hn
          exact ⟨(h.setLeaks k leaks).setListed k [], fun j hj =>
            (Later.setLeaks hj leaks).trans (.setListed hj [])⟩
        · cases hn
  | _ =>
      obtain rfl := next_quiet (by trivial) hn
      exact ⟨h, fun j _ => .refl j _⟩

theorem env_step {w w' : ImageWorld} (h : Consistent w) (henv : Env w w') :
    Consistent w' ∧ ∀ j, Later j w w' := by
  cases henv with
  | deleteUpload path =>
      refine ⟨{ h with uploads := fun p hp => h.uploads (List.mem_of_mem_filter hp) }, fun j =>
        { Later.refl j w with
          uploads := fun p _ hgone hp => hgone (List.mem_of_mem_filter hp)
          objects := fun _ _ _ _ h => Or.inl h }⟩
  | addImage id fresh name group user =>
      exact ⟨h.addImage id fun _ hp => (nomatch hp), fun j => .addImage fresh _⟩
  | removeImage id => exact ⟨h.removeImage id, fun j => .removeImage id⟩
  | putObject key =>
      exact ⟨h.putObject key fun _ hp => (nomatch hp),
        fun j => .putObject key fun _ _ _ hp => (nomatch hp)⟩
  | removeObject key => exact ⟨h.removeObject key, fun j => .removeObject key⟩
  | servers servers => exact ⟨{ h with }, fun j => { Later.refl j w with }⟩

/-! ### What a scan deletes -/

abbrev context (provider : String) (me : ImageThread) : Context LauncherSig ImageWorld :=
  (imageSystem provider).context (NumbersDiffer provider) Consistent (Later me) (Req me) me

/-- The resources that a scan has listed and has still to look at. -/
structure Pending (k : Nat) (rest : List Resource) (w : ImageWorld) : Prop where
  listed : ∀ r, rest.count r ≤ (w.listed k).count r
  single : ∀ r ∈ rest, r.metadata.nodeId = none ∨ r.metadata.uploadId = none
  image : ∀ r ∈ rest, r.type = .typeImage → r.id ∈ w.imageIds ∧
    ∀ i, w.images.lookup r.id = some i → r.metadata.nodeId = IBMVPCAdapter.matchHostname i.name
  object : ∀ r ∈ rest, r.type = .typeObject → r.metadata.nodeId = IBMVPCAdapter.matchHostname r.id
  unrecorded : ∀ r ∈ rest, remembers (w.leaks k) r = true → Unrecorded w r

/-- The image or object of an upload does not name a node. -/
theorem Pending.nodeId_eq_none {k : Nat} {rest : List Resource} {w : ImageWorld}
    (h : Pending k rest w) (hc : Consistent w) {r : Resource} (hr : r ∈ rest) {p : UploadPath}
    (ho : w.ownerOf r = some p) : r.metadata.nodeId = none := by
  unfold ImageWorld.ownerOf at ho
  split at ho
  · rename_i htype
    obtain ⟨i, hi, hp⟩ := Option.bind_eq_some_iff.mp ho
    obtain ⟨rest, hname⟩ := ((hc.images _ i hi).2 p hp).2
    rw [(h.image r hr htype).2 i hi, hname, IBMVPCAdapter.matchHostname_image]
  · rename_i htype
    obtain ⟨rest, hkey⟩ := (hc.objects _ p (Option.join_eq_some_iff.mp ho)).2
    rw [h.object r hr htype, hkey, IBMVPCAdapter.matchHostname_image]
  · cases ho

theorem Pending.later {k : Nat} {rest : List Resource} {w w' : ImageWorld}
    (h : Pending k rest w) (hc : Consistent w) (hl : Later (.cleanup k) w w') :
    Pending k rest w' where
  listed r := by
    rw [hl.listed k rfl]
    exact h.listed r
  single := h.single
  image r hr htype := by
    obtain ⟨hid, hname⟩ := h.image r hr htype
    exact ⟨hl.imageIds hid, fun i hi => hname i (hl.images _ hid i hi)⟩
  object := h.object
  unrecorded r hr hrem p ho := by
    rw [hl.leaks k rfl] at hrem
    have before := h.unrecorded r hr hrem
    unfold ImageWorld.ownerOf at ho
    split at ho
    · rename_i htype
      obtain ⟨i, hi, hp⟩ := Option.bind_eq_some_iff.mp ho
      have hi' := hl.images _ (h.image r hr htype).1 i hi
      have ho' : w.ownerOf r = some p := by
        simp only [ImageWorld.ownerOf, htype, hi', Option.bind_some, hp]
      exact hl.uploads p ((hc.images _ i hi').2 p hp).1 (before p ho')
    · rename_i htype
      rcases hl.objects k rfl _ p (Option.join_eq_some_iff.mp ho) with hsame | ⟨_, hgone⟩ | hfree
      · have ho' : w.ownerOf r = some p := by
          simp only [ImageWorld.ownerOf, htype, hsame, Option.join_some]
        exact hl.uploads p (hc.objects _ p hsame).1 (before p ho')
      · exact hgone
      · have hcount : 0 < (w.listed k).count r :=
          (List.count_pos_iff.mpr hr).trans_le (h.listed r)
        rw [hfree r (List.count_pos_iff.mp hcount) htype rfl] at hrem
        cases hrem
    · cases ho

theorem Pending.tail {k : Nat} {r : Resource} {rest : List Resource} {w : ImageWorld}
    (h : Pending k (r :: rest) w) : Pending k rest w where
  listed x := (List.count_le_count_cons).trans (h.listed x)
  single x hx := h.single x (List.mem_cons_of_mem r hx)
  image x hx := h.image x (List.mem_cons_of_mem r hx)
  object x hx := h.object x (List.mem_cons_of_mem r hx)
  unrecorded x hx := h.unrecorded x (List.mem_cons_of_mem r hx)

/-- The resource at the head is passed to `deleteResource`. -/
theorem Pending.erase {k : Nat} {r : Resource} {rest : List Resource} {w : ImageWorld}
    (h : Pending k (r :: rest) w) : Pending k rest (w.setListed k ((w.listed k).erase r)) :=
  { h.tail with
    listed := by
      intro x
      have hx := h.listed x
      simp only [setListed_listed, Function.update_self, List.count_erase, List.count_cons,
        beq_iff_eq] at hx ⊢
      split at hx
      · rename_i e
        rw [if_pos e]
        omega
      · rename_i e
        rw [if_neg e]
        omega
    unrecorded := h.tail.unrecorded }

/-- A listed page, in a consistent world. -/
def Ready (k : Nat) (rest : List Resource) (w : ImageWorld) : Prop :=
  Consistent w ∧ Pending k rest w

section Scan

variable {σ : Type} {s : σ} {w : ImageWorld} {k : Nat} {r : Resource} {rest : List Resource}
  {known : Known} {newly : Leaks}

theorem Ready.rely {w' : ImageWorld} (h : Ready k rest w) (hl : Later (.cleanup k) w w')
    (hc : Consistent w') : Ready k rest w' :=
  ⟨hc, h.2.later h.1 hl⟩

theorem deleteLeaked_wp {A : ImageWorld → Prop} (h : Ready k (r :: rest) w ∧ A w)
    (stable : ∀ w w', A w → Later (.cleanup k) w w' → A w')
    (unrecorded : ∀ w, Ready k (r :: rest) w → A w → Unrecorded w r) :
    (StateMachineProvider.deleteLeaked r : LauncherM σ Unit).wp (context provider (.cleanup k))
      (fun _ _ w' => Ready k rest w') (fun _ _ _ => True) s w := by
  have after : ∀ (reply : LauncherSig.Reply (.deleteResource r)) (w₁ w₂ : ImageWorld),
      Ready k (r :: rest) w₁ → w₂ ∈ next provider (.cleanup k) w₁ (.deleteResource r) reply →
      Ready k rest w₂ := by
    intro reply w₁ w₂ h₁ hn
    have mid : Ready k rest (w₁.setListed k ((w₁.listed k).erase r)) :=
      ⟨h₁.1.setListed _ _, h₁.2.erase⟩
    have cases_ : w₂ = (w₁.setListed k ((w₁.listed k).erase r)).deleteResource r ∨
        w₂ = w₁.setListed k ((w₁.listed k).erase r) := by
      cases reply <;> simpa [next] using hn
    rcases cases_ with rfl | rfl
    · obtain ⟨hc, hl⟩ := mid.1.deleteResource r
      exact mid.rely (hl _) hc
    · exact mid
  refine wp_tryCatch.mpr (Method.wp_call
    (P := fun w => Ready k (r :: rest) w ∧ A w) (fun h hl hi => ⟨h.1.rely hl hi, stable _ _ h.2 hl⟩)
    h ?_ ?_ ?_)
  · exact fun w h _ => ⟨k, rfl, unrecorded w h.1 h.2⟩
  · exact fun v w₁ w₂ h₁ _ hs _ => after (.ok v) w₁ w₂ h₁.1 hs.1
  · intro e w₁ w₂ h₁ _ hs _
    refine Method.wp_call (fun h hl hi => Ready.rely h hl hi) (after (.error e) w₁ w₂ h₁.1 hs.1)
      (fun _ _ _ => trivial) ?_ fun _ _ _ _ _ _ _ => trivial
    intro v w₃ w₄ h₃ _ hs₃ _
    have hn : w₄ ∈ next provider (.cleanup k) w₃ (.log "Unable to delete leaked resource")
      (.ok v) := hs₃.1
    obtain rfl := next_quiet (by trivial) hn
    exact h₃

theorem possiblyLeaked_wp (h : Ready k rest w) {Q : Leaks → σ → ImageWorld → Prop}
    (ok : ∀ w', Ready k rest w' → Q (w'.leaks k) s w') :
    (call .possiblyLeaked : LauncherM σ Leaks).wp (context provider (.cleanup k)) Q
      (fun _ _ _ => True) s w := by
  refine Method.wp_call (fun h hl hi => Ready.rely h hl hi) h (fun _ _ _ => trivial) ?_
    fun _ _ _ _ _ _ _ => trivial
  intro leaks w₁ w₂ h₁ _ hs _
  simp only [System.context, next] at hs
  obtain ⟨hn, _⟩ := hs
  split at hn
  · rename_i e
    obtain rfl := List.mem_singleton.mp hn
    exact e ▸ ok w₂ h₁
  · cases hn

/-- A node is deleted only for a resource that is no image. -/
theorem checkNode_wp (h : Ready k (r :: rest) w) :
    (StateMachineProvider.checkNode known newly r : LauncherM σ Leaks).wp
      (context provider (.cleanup k))
      (fun _ _ w' => Ready k (r :: rest) w' ∨ r.metadata.uploadId = none ∧ Ready k rest w')
      (fun _ _ _ => True) s w := by
  unfold StateMachineProvider.checkNode
  split
  · exact Or.inl h
  · rename_i nodeId hgiven
    have hid : r.metadata.nodeId ≠ none := by
      intro e
      rw [e] at hgiven
      cases hgiven
    have hup : r.metadata.uploadId = none :=
      (h.2.single r List.mem_cons_self).resolve_left hid
    split
    · exact Or.inl h
    · refine wp_bind.mpr (possiblyLeaked_wp h fun w₁ h₁ => ?_)
      unfold Nodepool.when
      split
      · refine wp_bind.mpr (Method.wp_mono (deleteLeaked_wp (A := fun _ => True) ⟨h₁, trivial⟩
          (fun _ _ _ _ => trivial) ?_) (fun _ _ _ h => Or.inr ⟨hup, h⟩) fun _ _ _ h => h)
        exact fun w hr _ p hp => absurd (hr.2.nodeId_eq_none hr.1 List.mem_cons_self hp) hid
      · exact Or.inl h₁

theorem checkUpload_wp (h : Ready k (r :: rest) w ∨ r.metadata.uploadId = none ∧ Ready k rest w) :
    (StateMachineProvider.checkUpload known newly r : LauncherM σ Leaks).wp
      (context provider (.cleanup k)) (fun _ _ w' => Ready k rest w') (fun _ _ _ => True) s w := by
  have tail : ∀ w, Ready k (r :: rest) w → Ready k rest w := fun w h => ⟨h.1, h.2.tail⟩
  unfold StateMachineProvider.checkUpload
  split
  · exact h.elim (tail w) fun h => h.2
  · rename_i number hgiven
    have h : Ready k (r :: rest) w := by
      refine h.resolve_right fun h => ?_
      rw [h.1] at hgiven
      cases hgiven
    dsimp only
    split
    · exact tail w h
    · refine wp_bind.mpr (possiblyLeaked_wp h fun w₁ h₁ => ?_)
      unfold Nodepool.when
      split
      · rename_i hmem
        have hrem : remembers (w₁.leaks k) r = true := by
          simp only [remembers, hgiven]
          exact decide_eq_true hmem
        refine wp_bind.mpr (Method.wp_mono (deleteLeaked_wp
          (A := fun w => remembers (w.leaks k) r = true) ⟨h₁, hrem⟩ ?_ ?_)
          (fun _ _ _ h => h) fun _ _ _ h => h)
        · exact fun _ _ h hl => by rw [hl.leaks k rfl]; exact h
        · exact fun w hr hrem => hr.2.unrecorded r List.mem_cons_self hrem
      · exact tail w₁ h₁

theorem checkResource_wp (h : Ready k (r :: rest) w) :
    (StateMachineProvider.checkResource provider known newly r : LauncherM σ Leaks).wp
      (context provider (.cleanup k)) (fun _ _ w' => Ready k rest w') (fun _ _ _ => True) s w := by
  unfold StateMachineProvider.checkResource
  split
  · exact ⟨h.1, h.2.tail⟩
  · exact wp_bind.mpr (Method.wp_mono (checkNode_wp h)
      (fun _ _ _ h' => checkUpload_wp h') fun _ _ _ h => h)

theorem metadata_single (group : Option String) (name : String) :
    (IBMVPCAdapter.getMetadata group name).nodeId = none ∨
      (IBMVPCAdapter.getMetadata group name).uploadId = none := by
  have fromName : (IBMVPCAdapter.metadataFromName name).nodeId = none ∨
      (IBMVPCAdapter.metadataFromName name).uploadId = none := by
    unfold IBMVPCAdapter.metadataFromName
    split
    · exact Or.inr rfl
    · exact Or.inl rfl
  unfold IBMVPCAdapter.getMetadata
  split
  · exact fromName
  · split <;> exact fromName

/-- What is listed has the metadata of its name, and is in the cloud. -/
theorem page_spec {n : Nat} (h : r ∈ w.page provider n) :
    (∃ group, r.metadata = IBMVPCAdapter.getMetadata group r.name) ∧
      (r.type = .typeImage → ∃ i, w.images.lookup r.id = some i ∧ i.name = r.name) ∧
      (r.type = .typeObject → r.name = r.id) := by
  unfold page at h
  split at h
  · obtain ⟨server, _, rfl⟩ := List.mem_map.mp h
    exact ⟨⟨some server.2, rfl⟩, fun e => (nomatch e), fun e => (nomatch e)⟩
  · obtain ⟨⟨id, i⟩, hmem, rfl⟩ := List.mem_map.mp h
    refine ⟨⟨some i.group, rfl⟩, fun _ => ⟨i, ?_, rfl⟩, fun e => (nomatch e)⟩
    exact AList.mem_lookup_iff.mpr (List.mem_of_mem_filter hmem)
  · split at h
    · obtain ⟨⟨key, owner⟩, _, rfl⟩ := List.mem_map.mp h
      exact ⟨⟨some (IBMVPCAdapter.imageResourceGroupName provider), rfl⟩, fun e => (nomatch e),
        fun _ => rfl⟩
    · cases h
  · cases h

theorem checkPage_wp (page : Nat) :
    (StateMachineProvider.checkPage provider known newly page : LauncherM σ Leaks).wp
      (context provider (.cleanup k)) (fun _ _ _ => True) (fun _ _ _ => True) s w := by
  refine wp_bind.mpr (Method.wp_call (P := fun _ => True) (fun _ _ _ => trivial) trivial
    (fun _ _ _ => trivial) ?_ fun _ _ _ _ _ _ _ => trivial)
  intro resources w₁ w₂ _ hc₁ hs hc₂
  obtain ⟨hn, hok⟩ := hs
  have listed : w₂ = w₁.setListed k resources ∧ resources = w₁.page provider page := by
    obtain ⟨e, same⟩ := of_mem_ite hn
    exact ⟨same, e⟩
  obtain ⟨rfl, hpage⟩ := listed
  have spec := fun r (hr : r ∈ resources) =>
    page_spec (r := r) (w := w₁) (n := page) (hpage ▸ hr)
  have ready : Ready k resources (w₁.setListed k resources) := by
    refine ⟨hc₂, ?_, fun r hr => ?_, fun r hr htype => ?_, fun r hr htype => ?_,
      fun r hr => hok r hr⟩
    · intro x
      simp
    · obtain ⟨⟨group, e⟩, _⟩ := spec r hr
      rw [e]
      exact metadata_single group r.name
    · obtain ⟨⟨group, e⟩, himage, _⟩ := spec r hr
      obtain ⟨i, hi, hname⟩ := himage htype
      refine ⟨(hc₁.images _ i hi).1, fun i' hi' => ?_⟩
      obtain rfl := Option.some.inj (hi.symm.trans hi')
      rw [e, IBMVPCAdapter.getMetadata_nodeId, hname]
    · obtain ⟨⟨group, e⟩, _, hobject⟩ := spec r hr
      rw [e, IBMVPCAdapter.getMetadata_nodeId, hobject htype]
  exact Method.wp_mono (Method.wp_fold_rest (J := fun rest _ _ w => Ready k rest w)
    (E := fun _ _ _ => True) (fun _ _ _ _ _ h => checkResource_wp h) ready)
    (fun _ _ _ _ => trivial) fun _ _ _ _ => trivial

end Scan

/-! ### Every run -/

/-- A call that is fine in every world. -/
def Harmless : Call → Prop
  | .putObject key => ∃ rest, key = "npimage" ++ rest
  | .createImage name _ _ => ∃ rest, name = "npimage" ++ rest
  | .deleteResource _ => False
  | _ => True

theorem stable_harmless {me : ImageThread} :
    Stable (context provider me) Harmless fun _ => True where
  rely _ _ _ := trivial
  req {c w} hc _ _ := by
    cases c <;> first | exact hc | trivial
  step _ _ _ _ _ := trivial

theorem harmless_of_readsRecords (c : Call) (h : c.readsRecords) : Harmless c := by
  cases c <;> trivial

variable {σ : Type} {s : σ} {w : ImageWorld} {me : ImageThread}

theorem wp_harmless {α : Type} {m : LauncherM σ α} (h : Within Harmless (fun s : σ => s) m)
    {Q : α → σ → ImageWorld → Prop} (hQ : ∀ a s w, Q a s w) :
    m.wp (context provider me) Q (fun _ _ _ => True) s w :=
  Method.wp_mono (h.wp stable_harmless trivial) (fun a s w _ => hQ a s w) fun _ _ _ _ => trivial

theorem cleanupLeakedResources_wp (provider : String) (k : Nat) :
    (StateMachineProvider.cleanupLeakedResources provider : LauncherM σ Unit).wp
      (context provider (.cleanup k)) (fun _ _ _ => True) (fun _ _ _ => True) s w := by
  refine wp_bind.mpr (wp_harmless (StateMachineProvider.knownNodes_within
    harmless_of_readsRecords _) fun nodes s₁ w₁ => ?_)
  refine wp_bind.mpr (wp_harmless (StateMachineProvider.knownUploads_within
    harmless_of_readsRecords _) fun uploads s₂ w₂ => ?_)
  refine wp_bind.mpr (wp_harmless (.perform (by trivial)) fun pages s₃ w₃ => ?_)
  refine wp_bind.mpr (Method.wp_mono (Method.wp_fold (J := fun _ _ _ => True)
    (E := fun _ _ _ => True) (fun page _ _ _ _ _ => checkPage_wp page) trivial) ?_
    fun _ _ _ _ => trivial)
  exact fun newly _ _ _ => wp_harmless (.perform (by trivial)) fun _ _ _ => trivial

theorem adapterUploadImage_harmless {name filename format : String} {m : Metadata}
    (rest : String) (h : name = "npimage" ++ rest) :
    Within Harmless (fun s : σ => s)
      (IBMVPCAdapter.uploadImage provider name filename format m : LauncherM σ String) := by
  have key : name ++ "." ++ format = "npimage" ++ (rest ++ "." ++ format) := by
    rw [h, String.append_assoc, String.append_assoc, String.append_assoc]
  refine .bind (.perform trivial) fun location =>
    .bind (.perform ⟨_, key⟩) fun _ => .bind ?_ fun _ => ?_
  · exact .bind (raiseUnless_within _ _) fun _ => .bind (.perform trivial) fun _ =>
      when_within (.perform trivial)
  · exact .bind (.perform ⟨rest, h⟩) fun _ => .bind (.perform trivial) fun _ =>
      .bind (raiseUnless_within _ _) fun _ => .bind (.perform trivial) fun _ => .pure

theorem checkProviderImageUpload_harmless (provider : String) (op : UploadOp) :
    Within Harmless (fun s : σ => s) (UploadWorker.checkProviderImageUpload
      (IBMVPCAdapter.uploadImage provider) (op.provider provider) op.image) := by
  have store : ∀ path data, Within Harmless (fun s : σ => s)
      (ZooKeeper.storeImageUpload path data : LauncherM σ Unit) := fun path data =>
    .bind (.perform trivial) fun _ => .bind (raiseUnless_within _ _) fun _ => .perform trivial
  have upload : ∀ path images, Within Harmless (fun s : σ => s)
      (UploadWorker.uploadImage (IBMVPCAdapter.uploadImage provider) (op.provider provider) path
        images : LauncherM σ _) := by
    intro path images
    refine .bind (raiseUnless_within _ _) fun _ => .bind (.perform trivial) fun _ =>
      .bind (raiseUnless_within _ _) fun _ => ?_
    refine .bind (.attempt (adapterUploadImage_harmless path.number rfl)) fun r => ?_
    split
    · exact .bind (.perform trivial) fun _ => .pure
    · exact UploadWorker.runPostUploadHook_within _ trivial trivial trivial
  have build : ∀ image build images, Within Harmless (fun s : σ => s)
      (UploadWorker.uploadBuild (IBMVPCAdapter.uploadImage provider) (op.provider provider) image
        build images : LauncherM σ _) := by
    intro image build images
    refine .bind (.perform trivial) fun _ => .ite .pure (.bind (.perform trivial) fun _ =>
      .ite .pure (.bind ?_ fun number => .bind (upload _ _) fun data => .bind (store _ _) fun _ =>
        .pure))
    exact .bind (.perform trivial) fun _ => .bind (raiseUnless_within _ _) fun _ => .perform trivial
  refine .ite .pure (.bind (.perform trivial) fun builds => ?_)
  split
  · exact .pure
  · refine .bind (.perform trivial) fun images => .ite .pure (.bind (.perform trivial) fun _ =>
      .ite .pure (.ite .pure (.tryCatch ?_ fun _ => .ite .pure .throw)))
    refine .bind (.perform trivial) fun _ => .bind (raiseUnless_within _ _) fun _ =>
      .bind (.attempt (build _ _ _)) fun r => .bind (.perform trivial) fun _ => ?_
    split
    · exact .pure
    · exact .throw

def outline (provider : String) : Outline (imageSystem provider) (NumbersDiffer provider) where
  inv := Consistent
  rely := Later
  req := Req
  linv _ _ _ := True
  rely_refl := Later.refl
  rely_trans _ _ _ _ := Later.trans
  linv_stable _ _ _ _ _ _ _ := trivial
  entry i op s w _ _ _ _ := by
    cases i with
    | cleanup k =>
        exact wp_toBody_of_respects (fun _ s => s) (cleanupLeakedResources_wp provider k)
    | uploader k =>
        exact wp_toBody_of_respects (fun _ s => s)
          (wp_harmless (checkProviderImageUpload_harmless provider op) fun _ _ _ => trivial)
  call_inv _ _ _ _ _ hinv hreq hok hn := (next_step hinv hreq hok hn).1
  call_rely i j _ _ _ _ hij hinv hreq hok hn := (next_step hinv hreq hok hn).2 j (Ne.symm hij)
  env_inv hinv henv := (env_step hinv henv).1
  env_rely j _ _ hinv henv := (env_step hinv henv).2 j

/-- The managers start with nothing remembered or listed, in an account where the
images and objects of uploads have the names that the adapter gives them. -/
structure Initial {provider : String} (cfg : Config (imageSystem provider)) : Prop where
  consistent : Consistent cfg.world
  leaks : ∀ k, cfg.world.leaks k = Leaks.empty
  listed : ∀ k, cfg.world.listed k = []
  idle : ∀ i, cfg.thread i = .pure ()

/-- **Recorded images survive.** In a run in which no scan that remembers the number
of an upload lists the image or object of a recorded one, no image or object whose
upload is recorded is passed to `deleteResource`. -/
theorem deleteResource_unrecorded {provider : String}
    {init cfg cfg' : Config (imageSystem provider)}
    (start : Initial init) (run : (imageSystem provider).Run (NumbersDiffer provider) init cfg)
    {i : ImageThread} {r : Resource} {reply : LauncherSig.Reply (.deleteResource r)}
    (step : (imageSystem provider).Step cfg (.call i (.deleteResource r) reply) cfg') :
    Unrecorded cfg.world r := by
  have safe : (outline provider).Safe init := Outline.Safe.of_idle start.consistent fun i =>
    ⟨(), start.idle i, trivial⟩
  cases step with
  | call _ _ next _ =>
      obtain ⟨_, _, h⟩ := ((outline provider).sound safe run).req next
      exact h

/-! ### An image that is deleted -/

def exampleBuild : ImageBuild := ⟨"0a1b2c", .ready, ["qcow2"]⟩

def examplePath : UploadPath := ⟨"debian", "0a1b2c", "ibm", sequenceName 1⟩

/-- How the image of the example is listed. -/
def exampleResource : Resource :=
  IBMVPCAdapter.resource .typeImage ("npimage" ++ sequenceName 1) "r006-1" (some "npimages_ibm")

/-- An account with the given image, whose upload was recorded before. -/
def exampleInit (images : Dict String CloudImage) (imageIds : List String)
    (born : List UploadPath) : Config (imageSystem "ibm") where
  world :=
    { uploads := []
      born := born
      current := fun _ => none
      images := images
      imageIds := imageIds
      objects := ∅
      servers := []
      groups := []
      leaks := fun _ => Leaks.empty
      listed := fun _ => [] }
  thread _ := .pure ()

/-- Answers of calls that succeed, to a scan with the given memory, when the records
of the image, if there are any, are those of the example. -/
def exampleAnswer (recorded : Bool) (leaks : Leaks) : (c : Call) → LauncherSig.Reply c
  | .getMostRecentBuilds _ => .ok [exampleBuild]
  | .localImages _ _ => .ok ["qcow2"]
  | .getMostRecentBuildImageUploads _ _ _ => .ok []
  | .acquireUploadLock _ _ _ | .buildsExist _ | .awaitImage _ => .ok true
  | .getBuild _ _ => .ok (some exampleBuild)
  | .createImageUpload _ _ _ _ => .ok (sequenceName 1)
  | .time => .ok 0
  | .getBucketLocation => .ok "us-south"
  | .hasResourceGroup _ => .ok false
  | .createImage _ _ _ => .ok "r006-1"
  | .putObject _ | .deleteObject _ | .createResourceGroup _ | .setImageUpload _ _
  | .releaseUploadLock _ _ _ | .assignPossiblyLeaked _ | .deleteResource _ => .ok ()
  | .getNodeIds => .ok []
  | .getImageNames => .ok (if recorded then ["debian"] else [])
  | .getBuildIds _ => .ok ["0a1b2c"]
  | .getBuildProviders _ _ => .ok ["ibm"]
  | .getUploadNumbers _ _ _ => .ok [sequenceName 1]
  | .getImageUpload _ => .ok (some ⟨.ready, some "r006-1", none, none⟩)
  | .listResources => .ok [0, 1, 2]
  | .listPage page => .ok (if page = 1 then [exampleResource] else [])
  | .possiblyLeaked => .ok leaks
  | _ => .error .other

/-- What the first scan remembers. -/
def exampleLeaks : Leaks := ⟨∅, (∅ : Dict _ _).insert (none, sequenceName 1) exampleResource⟩

/-- An upload from its start to its end. -/
def uploadSchedule : List (System.Action (imageSystem "ibm")) :=
  .start (.uploader 0) ⟨"debian", "qcow2", (∅ : Dict _ _).insert "debian" false, false⟩ ::
    List.replicate 19 (.reply (.uploader 0) (exampleAnswer true .empty) 0)

/-- A scan, and a second one up to the call that deletes the image. -/
def scanSchedule (recorded : Bool) : List (System.Action (imageSystem "ibm")) :=
  let reads := if recorded then 6 else 2
  .start (.cleanup 0) () ::
    List.replicate (reads + 6) (.reply (.cleanup 0) (exampleAnswer recorded .empty) 0) ++
    .start (.cleanup 0) () ::
    List.replicate (reads + 4) (.reply (.cleanup 0) (exampleAnswer recorded exampleLeaks) 0)

theorem exampleInit_initial (images : Dict String CloudImage) (imageIds : List String)
    (born : List UploadPath) (h : ∀ id i, images.lookup id = some i → id ∈ imageIds ∧
      ∀ p, i.owner = some p → p ∈ born ∧ ∃ rest, i.name = "npimage" ++ rest) :
    Initial (exampleInit images imageIds born) where
  consistent :=
    { uploads := List.nil_subset _
      current := fun _ _ h => nomatch h
      images := h
      objects := fun _ _ h => nomatch h }
  leaks _ := rfl
  listed _ := rfl
  idle _ := rfl

/-- The image of a recorded upload is deleted by the second scan after the upload. -/
theorem not_forall_deleteResource_unrecorded :
    ¬ ∀ (init cfg cfg' : Config (imageSystem "ibm")) (i : ImageThread) (r : Resource)
      (reply : LauncherSig.Reply (.deleteResource r)), Initial init →
      (imageSystem "ibm").Run (System.always _) init cfg →
      (imageSystem "ibm").Step cfg (.call i (.deleteResource r) reply) cfg' →
      Unrecorded cfg.world r := by
  intro h
  have init := exampleInit_initial ∅ [] [] fun _ _ h => nomatch h
  have deletes : ∃ cfg cfg' reply,
      System.exec (fun _ _ => true) (exampleInit ∅ [] []) (uploadSchedule ++ scanSchedule true) =
        some cfg ∧
      (imageSystem "ibm").Step cfg (.call (.cleanup 0) (.deleteResource exampleResource) reply)
        cfg' ∧
      cfg.world.ownerOf exampleResource = some examplePath ∧ examplePath ∈ cfg.world.uploads :=
    ⟨_, _, .ok (), rfl, .call _ _ rfl List.mem_cons_self, rfl, List.mem_cons_self⟩
  obtain ⟨cfg, cfg', reply, run, step, owner, recorded⟩ := deletes
  exact h _ cfg cfg' _ _ reply init (System.exec_run _ (fun _ _ _ => trivial) run) step
    examplePath owner recorded

/-- The condition on steps, for schedules without uploads. -/
def allowScan (w : ImageWorld) : Event (imageSystem "ibm") → Bool
  | .call (.cleanup k) (.listPage _) (.ok resources) => resources.all fun r =>
      !remembers (w.leaks k) r || (w.ownerOf r).all fun p => decide (p ∉ w.uploads)
  | .call (.uploader _) (.putObject _) _ => false
  | _ => true

theorem numbersDiffer_of_allowScan (w : ImageWorld) (e : Event (imageSystem "ibm"))
    (h : allowScan w e = true) : NumbersDiffer "ibm" w e := by
  unfold NumbersDiffer
  split
  · intro r hr hrem p hp
    have := List.all_eq_true.mp h r hr
    rw [hrem, hp] at this
    simpa using this
  · cases h
  · trivial

/-- The image of an upload whose record is gone is deleted by the second scan. -/
theorem deleteResource_unrecorded_scanSchedule :
    ∃ cfg, System.exec allowScan (exampleInit ((∅ : Dict _ _).insert "r006-1"
        ⟨"npimage" ++ sequenceName 1, "npimages_ibm", true, some examplePath⟩) ["r006-1"]
        [examplePath]) (scanSchedule false) = some cfg ∧
      Unrecorded cfg.world exampleResource := by
  have init := exampleInit_initial ((∅ : Dict _ _).insert "r006-1"
    ⟨"npimage" ++ sequenceName 1, "npimages_ibm", true, some examplePath⟩)
    ["r006-1"] [examplePath] (by
      intro id i hi
      by_cases e : id = "r006-1"
      · rw [e, AList.lookup_insert, Option.some.injEq] at hi
        subst hi
        refine ⟨by rw [e]; exact List.mem_singleton_self _, fun p hp => ⟨?_, _, rfl⟩⟩
        exact Option.some.inj hp ▸ List.mem_singleton_self _
      · rw [AList.lookup_insert_ne e] at hi
        cases hi)
  have deletes : ∃ cfg cfg' reply,
      System.exec allowScan (exampleInit ((∅ : Dict _ _).insert "r006-1"
        ⟨"npimage" ++ sequenceName 1, "npimages_ibm", true, some examplePath⟩) ["r006-1"]
        [examplePath]) (scanSchedule false) = some cfg ∧
      (imageSystem "ibm").Step cfg (.call (.cleanup 0) (.deleteResource exampleResource) reply)
        cfg' :=
    ⟨_, _, .ok (), rfl, .call _ _ rfl List.mem_cons_self⟩
  obtain ⟨cfg, cfg', reply, run, step⟩ := deletes
  exact ⟨cfg, run, deleteResource_unrecorded init
    (System.exec_run _ numbersDiffer_of_allowScan run) step⟩

end ImageSystem

end Nodepool
