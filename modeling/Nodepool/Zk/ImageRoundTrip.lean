import Nodepool.Zk.ImageData

/-!
Export and import of the image data are inverse. What is exported is the part of the tree
at the paths of pause flags, builds and uploads; what an import makes is a tree with the
imported data at their paths, and otherwise only ancestors of them.

The counter of an upload's parent is carried through both loops of the import: the
fillers bring it to the highest number, and creating the upload with that number brings
it past it.
-/

namespace Nodepool

namespace ImageData

open ZTree

/-! ### What is exported -/

/-- The paths of pause flags, builds and uploads. -/
inductive Exportable : ZPath → Prop where
  | pause (image : String) : Exportable (imagePausePath image)
  | build (image : String) {buildId : String} (h : buildId ≠ "lock") :
      Exportable (imageBuildIdPath image buildId)
  | upload (image provider : String) {buildId number : String} (h : buildId ≠ "lock")
      (h' : number ≠ "lock") : Exportable (number :: imageUploadPath image buildId provider)

/-- What is exported of a path. -/
def exportedData (t : ZTree) (p : ZPath) : Option String :=
  if p.length = 4 then (t.data p).map fun _ => "" else t.data p

theorem exportedData_pause (t : ZTree) (image : String) :
    exportedData t (imagePausePath image) = (t.data (imagePausePath image)).map fun _ => "" := rfl

theorem Exportable.length_le {p : ZPath} (h : Exportable p) : p.length ≤ 9 := by
  cases h <;> simp [imagePausePath, imageBuildIdPath, imageUploadPath, imageProviderPath,
    imageBuildsPath, imagePath, imageRoot]

theorem mem_of_exportedData {t : ZTree} {p : ZPath} {d : String}
    (h : exportedData t p = some d) : p ∈ t := by
  unfold exportedData at h
  split at h
  · obtain ⟨d', hd', -⟩ := Option.map_eq_some_iff.mp h
    exact mem_of_data hd'
  · exact mem_of_data h

variable {t : ZTree}

theorem mem_getImageNames {image : String} : image ∈ getImageNames t ↔ imagePath image ∈ t := by
  unfold getImageNames
  rw [List.mem_insertionSort, mem_children]
  rfl

theorem mem_getBuildIds {image buildId : String} :
    buildId ∈ getBuildIds t image ↔ imageBuildIdPath image buildId ∈ t ∧ buildId ≠ "lock" := by
  unfold getBuildIds
  rw [List.mem_filter, mem_children, decide_eq_true_iff]
  rfl

theorem mem_getBuildProviders {image buildId provider : String} :
    provider ∈ getBuildProviders t image buildId ↔
      provider :: imageProviderPath image buildId ∈ t := by
  unfold getBuildProviders
  rw [List.mem_insertionSort, mem_children]

theorem mem_getImageUploadNumbers {image buildId provider number : String} :
    number ∈ getImageUploadNumbers t image buildId provider ↔
      number :: imageUploadPath image buildId provider ∈ t ∧ number ≠ "lock" := by
  unfold getImageUploadNumbers
  rw [List.mem_filter, mem_children, decide_eq_true_iff]

theorem mem_exportUploads {image buildId : String} {p : ZPath} {d : String} (closed : Closed t) :
    (p, d) ∈ exportUploads t image buildId ↔ ∃ provider number, number ≠ "lock" ∧
      p = number :: imageUploadPath image buildId provider ∧ t.data p = some d := by
  unfold exportUploads
  simp only [List.mem_flatMap]
  constructor
  · rintro ⟨provider, -, number, hnumber, h⟩
    split at h
    · cases h
    · rename_i data hdata
      rw [List.mem_singleton, Prod.mk.injEq] at h
      obtain ⟨rfl, rfl⟩ := h
      exact ⟨provider, number, (mem_getImageUploadNumbers.mp hnumber).2, rfl, hdata⟩
  · rintro ⟨provider, number, lock, rfl, hdata⟩
    have mem := mem_of_data hdata
    have parent := closed.parent _ _ (closed.parent _ _ mem)
    refine ⟨provider, mem_getBuildProviders.mpr parent, number,
      mem_getImageUploadNumbers.mpr ⟨mem, lock⟩, ?_⟩
    rw [hdata]
    exact List.mem_singleton_self _

theorem mem_exportBuilds {image : String} {p : ZPath} {d : String} (closed : Closed t) :
    (p, d) ∈ exportBuilds t image ↔ ∃ buildId, buildId ≠ "lock" ∧
      ((p = imageBuildIdPath image buildId ∧ t.data p = some d) ∨
        ∃ provider number, number ≠ "lock" ∧
          p = number :: imageUploadPath image buildId provider ∧ t.data p = some d) := by
  unfold exportBuilds
  rw [List.mem_flatMap]
  constructor
  · rintro ⟨buildId, hbuild, h⟩
    refine ⟨buildId, (mem_getBuildIds.mp hbuild).2, ?_⟩
    split at h
    · cases h
    · rename_i data hdata
      rcases List.mem_cons.mp h with h | h
      · cases h
        exact .inl ⟨rfl, hdata⟩
      · exact .inr ((mem_exportUploads closed).mp h)
  · rintro ⟨buildId, lock, h⟩
    have mem : imageBuildIdPath image buildId ∈ t := by
      rcases h with ⟨rfl, hdata⟩ | ⟨provider, number, -, rfl, hdata⟩
      · exact mem_of_data hdata
      · exact closed.suffix (mem_of_data hdata) ⟨[number, "images", provider, "providers"], rfl⟩
    refine ⟨buildId, mem_getBuildIds.mpr ⟨mem, lock⟩, ?_⟩
    obtain ⟨data, hdata⟩ := Option.isSome_iff_exists.mp (data_isSome.mpr mem)
    rw [hdata]
    rcases h with ⟨rfl, hdata'⟩ | h
    · rw [hdata] at hdata'
      cases hdata'
      exact List.mem_cons_self
    · exact List.mem_cons_of_mem _ ((mem_exportUploads closed).mpr h)

theorem mem_exportEntries {p : ZPath} {d : String} (closed : Closed t) :
    (p, d) ∈ exportEntries t ↔ Exportable p ∧ exportedData t p = some d := by
  unfold exportEntries
  rw [List.mem_flatMap]
  constructor
  · rintro ⟨image, -, h⟩
    rcases List.mem_append.mp h with h | h
    · split at h
      · rename_i paused
        rw [List.mem_singleton, Prod.mk.injEq] at h
        obtain ⟨rfl, rfl⟩ := h
        obtain ⟨data, hdata⟩ := Option.isSome_iff_exists.mp paused
        refine ⟨.pause image, ?_⟩
        rw [exportedData_pause, hdata]
        rfl
      · cases h
    · obtain ⟨buildId, lock, ⟨rfl, hdata⟩ | ⟨provider, number, lock', rfl, hdata⟩⟩ :=
        (mem_exportBuilds closed).mp h
      · exact ⟨.build image lock, hdata⟩
      · exact ⟨.upload image provider lock lock', hdata⟩
  · rintro ⟨exportable, hdata⟩
    have mem := mem_of_exportedData hdata
    cases exportable with
    | pause image =>
        refine ⟨image, mem_getImageNames.mpr (closed.parent _ _ mem), List.mem_append_left _ ?_⟩
        have paused : getImagePaused t image = true := data_isSome.mpr mem
        rw [if_pos paused, List.mem_singleton, Prod.mk.injEq]
        rw [exportedData_pause] at hdata
        obtain ⟨data, -, rfl⟩ := Option.map_eq_some_iff.mp hdata
        exact ⟨rfl, rfl⟩
    | build image lock =>
        rename_i buildId
        refine ⟨image, mem_getImageNames.mpr (closed.suffix mem ⟨[buildId, "builds"], rfl⟩),
          List.mem_append_right _ ((mem_exportBuilds closed).mpr ⟨buildId, lock, .inl ⟨rfl, ?_⟩⟩)⟩
        exact hdata
    | upload image provider lock lock' =>
        rename_i buildId number
        refine ⟨image, mem_getImageNames.mpr (closed.suffix mem
          ⟨[number, "images", provider, "providers", buildId, "builds"], rfl⟩),
          List.mem_append_right _ ((mem_exportBuilds closed).mpr
            ⟨buildId, lock, .inr ⟨provider, number, lock', rfl, ?_⟩⟩)⟩
        exact hdata

/-- The entries of an export. -/
theorem lookup_exportImageData {p : ZPath} {d : String} (closed : Closed t) :
    (exportImageData t).lookup p = some d ↔ Exportable p ∧ exportedData t p = some d := by
  refine (Dict.lookup_ofPairs ?_).trans (mem_exportEntries closed)
  intro p d d' h h'
  have := ((mem_exportEntries closed).mp h).2.symm.trans ((mem_exportEntries closed).mp h').2
  exact Option.some.inj this

/-! ### The fillers -/

/-- Data to import: nothing is deeper than an upload, and uploads have numbers. -/
structure Importable (importData : Dict ZPath String) : Prop where
  length_le : ∀ p ∈ importData, p.length ≤ 9
  numbered : ∀ u key, u :: key ∈ importData → key.length = 8 → ∃ n, u = sequenceName n

variable {importData : Dict ZPath String}

/-- A tree in which there is nothing but imported nodes and their ancestors. -/
structure Within (importData : Dict ZPath String) (t : ZTree) : Prop extends Closed t where
  within : ∀ q ∈ t, q = [] ∨ ∃ p ∈ importData, q <:+ p

theorem within_empty : Within importData ZTree.empty where
  toClosed := closed_empty
  within q hq := by
    rcases (AList.mem_insert _).mp hq with h | h
    · exact .inl h
    · exact absurd h (AList.notMem_empty _)

/-- Sequence nodes have been created up to a number, and kept if they are imported. -/
structure Filled (key : ZPath) (num : Nat) (t : ZTree) : Prop where
  created : num ≤ t.created key
  numbers : ∀ u, u :: key ∈ t → ∃ n < num, u = sequenceName n

/-- What the fillers of other parents leave alone. -/
structure Beside (key : ZPath) (t t' : ZTree) : Prop where
  created : t.created key ≤ t'.created key
  mem : key ∈ t' → key ∈ t
  numbers : ∀ u, u :: key ∈ t' → u :: key ∈ t

theorem Beside.refl (key : ZPath) (t : ZTree) : Beside key t t := ⟨Nat.le_refl _, id, fun _ => id⟩

theorem Beside.trans {key : ZPath} {t t' t'' : ZTree} (h : Beside key t t')
    (h' : Beside key t' t'') : Beside key t t'' :=
  ⟨Nat.le_trans h.created h'.created, fun hk => h.mem (h'.mem hk),
    fun u hu => h.numbers u (h'.numbers u hu)⟩

theorem Filled.beside {key : ZPath} {num : Nat} {t t' : ZTree} (h : Filled key num t)
    (b : Beside key t t') : Filled key num t' :=
  ⟨Nat.le_trans h.created b.created, fun u hu => h.numbers u (b.numbers u hu)⟩

/-- Paths of one length end alike only if they are the same. -/
theorem eq_of_suffix {p q : ZPath} (h : p <:+ q) (length : p.length = q.length) : p = q :=
  h.eq_of_length length

theorem createFiller_filled (ok : Importable importData) {key : ZPath} {num x : Nat} {t : ZTree}
    (length : key.length = 8) (mem : sequenceName num :: key ∈ importData)
    (within : Within importData t) (created : t.created key = x)
    (numbers : ∀ u, u :: key ∈ t → ∃ n < x, u = sequenceName n) :
    ∃ t', createFiller importData key t = .ok t' ∧ Within importData t' ∧
      t'.created key = x + 1 ∧ (∀ u, u :: key ∈ t' → ∃ n < x + 1, u = sequenceName n) ∧
      ∀ key', key'.length = 8 → key' ≠ key → Beside key' t t' := by
  have new : sequenceName (t.created key) :: key ∉ t := by
    intro h
    obtain ⟨n, hn, same⟩ := numbers _ h
    have := sequenceName_injective same
    omega
  obtain ⟨t', hcreate, spec⟩ := createSequence_new (d := "") within.toClosed new
  rw [created] at hcreate spec new
  have ctd : t'.created key = x + 1 := by rw [spec.created_tail, created]
  have numbers' : ∀ u, u :: key ∈ t' → ∃ n < x + 1, u = sequenceName n := by
    intro u hu
    rcases (spec.mem _).mp hu with hu | hu
    · obtain ⟨n, hn, same⟩ := numbers u hu
      exact ⟨n, by omega, same⟩
    · have := eq_of_suffix hu rfl
      cases this
      exact ⟨x, by omega, rfl⟩
  have beside : ∀ key', key'.length = 8 → key' ≠ key → Beside key' t t' := by
    intro key' length' ne
    have apart : ¬ key' <:+ sequenceName x :: key := by
      intro h
      rcases List.suffix_cons_iff.mp h with h | h
      · rw [h, List.length_cons] at length'
        omega
      · exact ne (eq_of_suffix h (length'.trans length.symm))
    refine ⟨spec.created _, ?_, ?_⟩
    · exact fun h => ((spec.mem _).mp h).resolve_right apart
    · intro u hu
      refine ((spec.mem _).mp hu).resolve_right fun h => ?_
      exact apart ((List.suffix_cons u key').trans h)
  by_cases imported : sequenceName x :: key ∈ importData
  · refine ⟨t', ?_, ⟨spec.toClosed, ?_⟩, ctd, numbers', beside⟩
    · unfold createFiller
      rw [hcreate]
      exact if_pos imported
    · intro q hq
      rcases (spec.mem q).mp hq with hq | hq
      · exact within.within q hq
      · exact .inr ⟨_, imported, hq⟩
  · have leaf : ∀ n, n :: sequenceName x :: key ∉ t' := by
      intro n hn
      rcases (spec.mem _).mp hn with hn | hn
      · rcases within.within _ hn with h | ⟨p, hp, h⟩
        · cases h
        · have := h.length_le
          have := ok.length_le p hp
          simp only [List.length_cons] at *
          omega
      · exact not_cons_suffix n _ hn
    have self : sequenceName x :: key ∈ t' := (spec.mem _).mpr (.inr (List.suffix_refl _))
    have ne_of_length : ∀ q : ZPath, q.length = 8 → q ≠ sequenceName x :: key := by
      rintro q hq rfl
      rw [List.length_cons] at hq
      omega
    refine ⟨t'.erase (sequenceName x :: key), ?_, ⟨closed_erase spec.toClosed leaf (by simp), ?_⟩,
      ?_, ?_, ?_⟩
    · unfold createFiller
      rw [hcreate]
      refine (if_neg imported).trans ?_
      exact deleteNode_leaf self leaf
    · intro q hq
      obtain ⟨ne, hq⟩ := AList.mem_erase.mp hq
      rcases (spec.mem q).mp hq with hq | hq
      · exact within.within q hq
      · rcases List.suffix_cons_iff.mp hq with hq | hq
        · exact absurd hq ne
        · exact .inr ⟨_, mem, hq.trans (List.suffix_cons _ key)⟩
    · rw [created_erase_of_ne (ne_of_length key length), ctd]
    · exact fun u hu => numbers' u (AList.mem_erase.mp hu).2
    · intro key' length' ne
      have b := beside key' length' ne
      refine ⟨?_, ?_, ?_⟩
      · rw [created_erase_of_ne (ne_of_length key' length')]
        exact b.created
      · exact fun h => b.mem (AList.mem_erase.mp h).2
      · exact fun u h => b.numbers u (AList.mem_erase.mp h).2

/-- The fillers of one parent. -/
theorem createFillers_filled (ok : Importable importData) {key : ZPath} {num : Nat} {t : ZTree}
    (length : key.length = 8) (mem : sequenceName num :: key ∈ importData)
    (within : Within importData t) (absent : key ∉ t) :
    ∃ t', createFillers importData t key num = .ok t' ∧ Within importData t' ∧
      Filled key num t' ∧ ∀ key', key'.length = 8 → key' ≠ key → Beside key' t t' := by
  have loop : ∀ x, ∃ t', (List.range x).foldlM (fun t _ => createFiller importData key t) t =
      .ok t' ∧ Within importData t' ∧ t'.created key = x ∧
      (∀ u, u :: key ∈ t' → ∃ n < x, u = sequenceName n) ∧
      ∀ key', key'.length = 8 → key' ≠ key → Beside key' t t' := by
    intro x
    induction x with
    | zero =>
        refine ⟨t, rfl, within, created_eq_zero absent, ?_, fun key' _ _ => .refl key' t⟩
        exact fun u hu => absurd (within.parent u key hu) absent
    | succ x ih =>
        obtain ⟨t₁, h₁, within₁, created₁, numbers₁, beside₁⟩ := ih
        obtain ⟨t₂, h₂, within₂, created₂, numbers₂, beside₂⟩ :=
          createFiller_filled ok length mem within₁ created₁ numbers₁
        refine ⟨t₂, ?_, within₂, created₂, numbers₂, ?_⟩
        · rw [List.range_succ, List.foldlM_append, h₁]
          change (createFiller importData key t₁ >>= pure) = _
          rw [h₂]
          rfl
        · exact fun key' h ne => (beside₁ key' h ne).trans (beside₂ key' h ne)
  obtain ⟨t', h, within', created', numbers', beside'⟩ := loop num
  exact ⟨t', h, within', ⟨Nat.le_of_eq created'.symm, numbers'⟩, beside'⟩

/-- The highest numbers are those of imported uploads. -/
def Attained (importData : Dict ZPath String) (key : ZPath) (num : Nat) : Prop :=
  key.length = 8 ∧ sequenceName num :: key ∈ importData

/-- The fillers of all parents. -/
theorem fillers_filled (ok : Importable importData) {highest : List (Sigma fun _ : ZPath => Nat)}
    (nodup : (highest.map (·.1)).Nodup) (attained : ∀ e ∈ highest, Attained importData e.1 e.2)
    {t : ZTree} (within : Within importData t) (absent : ∀ e ∈ highest, e.1 ∉ t) :
    ∃ t', highest.foldlM (fun t e => createFillers importData t e.1 e.2) t = .ok t' ∧
      Within importData t' ∧ (∀ e ∈ highest, Filled e.1 e.2 t') ∧
      ∀ key', key'.length = 8 → key' ∉ highest.map (·.1) → Beside key' t t' := by
  induction highest generalizing t with
  | nil =>
      exact ⟨t, rfl, within, fun e he => absurd he List.not_mem_nil, fun key' _ _ => .refl key' t⟩
  | cons e highest ih =>
      obtain ⟨length, mem⟩ := attained e List.mem_cons_self
      obtain ⟨t₁, h₁, within₁, filled₁, beside₁⟩ :=
        createFillers_filled ok length mem within (absent e List.mem_cons_self)
      rw [List.map_cons, List.nodup_cons] at nodup
      have attained' : ∀ e' ∈ highest, Attained importData e'.1 e'.2 :=
        fun e' he' => attained e' (List.mem_cons_of_mem e he')
      have ne : ∀ e' ∈ highest, e'.1 ≠ e.1 :=
        fun e' he' same => nodup.1 (same ▸ List.mem_map_of_mem he')
      obtain ⟨t₂, h₂, within₂, filled₂, beside₂⟩ := ih nodup.2 attained' within₁ fun e' he' h =>
        absent e' (List.mem_cons_of_mem e he')
          ((beside₁ e'.1 (attained' e' he').1 (ne e' he')).mem h)
      refine ⟨t₂, ?_, within₂, ?_, ?_⟩
      · rw [List.foldlM_cons, h₁]
        exact h₂
      · intro e' he'
        rcases List.mem_cons.mp he' with rfl | he'
        · exact filled₁.beside (beside₂ _ length nodup.1)
        · exact filled₂ e' he'
      · intro key' length' out
        rw [List.map_cons, List.mem_cons, not_or] at out
        exact (beside₁ key' length' out.1).trans (beside₂ key' length' out.2)

/-! ### The highest numbers -/

theorem int_sequenceName (n : Nat) : int (sequenceName n) = .ok n := by
  have digits : (sequenceName n).toList.all Char.isDigit = true :=
    List.all_eq_true.mpr fun c hc => isDigit_of_mem_sequenceName hc
  have nonempty : (sequenceName n).toList ≠ [] := by
    intro h
    refine sequenceName_ne_empty n (String.toList_inj.mp ?_)
    rw [h]
    rfl
  rw [int, if_pos ⟨nonempty, digits⟩, ofDigitChars_sequenceName]

/-- What counting some entries makes of the highest numbers. -/
structure Counted (entries : List (Sigma fun _ : ZPath => String))
    (highest highest' : Dict ZPath Nat) : Prop where
  mono : ∀ key num, highest.lookup key = some num →
    ∃ num', highest'.lookup key = some num' ∧ num ≤ num'
  counted : ∀ e ∈ entries, ∀ n key, e.1 = sequenceName n :: key → key.length = 8 →
    ∃ num, highest'.lookup key = some num ∧ n ≤ num
  origin : ∀ key num, highest'.lookup key = some num → highest.lookup key = some num ∨
    (key.length = 8 ∧ ∃ e ∈ entries, e.1 = sequenceName num :: key)

theorem countNumber_counted (e : Sigma fun _ : ZPath => String) (highest : Dict ZPath Nat)
    (numbered : ∀ u key, e.1 = u :: key → key.length = 8 → ∃ n, u = sequenceName n) :
    ∃ highest', countNumber highest e.1 = .ok highest' ∧ Counted [e] highest highest' := by
  have unchanged : (∀ u key, e.1 = u :: key → key.length ≠ 8) → Counted [e] highest highest := by
    refine fun other => ⟨fun key num h => ⟨num, h, Nat.le_refl _⟩, ?_, fun key num h => .inl h⟩
    intro e' he' n key he length
    rw [List.mem_singleton.mp he'] at he
    exact absurd length (other _ _ he)
  rcases he : e.1 with _ | ⟨u, key⟩
  · exact ⟨highest, rfl, unchanged fun u key h => by rw [he] at h; cases h⟩
  by_cases length : key.length = 8
  · obtain ⟨n, rfl⟩ := numbered u key he length
    refine ⟨highest.insert key (max (highest.get key n) n), ?_, ?_, ?_, ?_⟩
    · rw [countNumber, if_pos length, int_sequenceName]
      rfl
    · intro key' num h
      by_cases same : key' = key
      · subst same
        refine ⟨_, AList.lookup_insert _, ?_⟩
        rw [Dict.get, h]
        exact Nat.le_max_left _ _
      · exact ⟨num, (AList.lookup_insert_ne same).trans h, Nat.le_refl _⟩
    · intro e' he' n' key' h length'
      rw [List.mem_singleton.mp he', he] at h
      obtain ⟨hn, rfl⟩ := List.cons.inj h
      rw [sequenceName_injective hn]
      exact ⟨_, AList.lookup_insert _, Nat.le_max_right _ _⟩
    · intro key' num h
      by_cases same : key' = key
      · subst same
        rw [AList.lookup_insert, Option.some.injEq] at h
        subst h
        -- the maximum is the number that was there, or the new one
        rcases Nat.le_total (highest.get key' n) n with le | le
        · rw [Nat.max_eq_right le]
          exact .inr ⟨length, e, List.mem_singleton_self e, he⟩
        · rw [Nat.max_eq_left le]
          cases hl : highest.lookup key' with
          | some m =>
              left
              rw [Dict.get, hl]
              rfl
          | none =>
              right
              refine ⟨length, e, List.mem_singleton_self e, ?_⟩
              rw [he, Dict.get, hl]
              rfl
      · rw [AList.lookup_insert_ne same] at h
        exact .inl h
  · refine ⟨highest, ?_, unchanged ?_⟩
    · rw [countNumber, if_neg length]
      rfl
    · intro u' key' h
      rw [he] at h
      cases h
      exact length

theorem Counted.append {entries entries' : List (Sigma fun _ : ZPath => String)}
    {h₁ h₂ h₃ : Dict ZPath Nat} (c : Counted entries h₁ h₂) (c' : Counted entries' h₂ h₃) :
    Counted (entries ++ entries') h₁ h₃ where
  mono key num h := by
    obtain ⟨num', h', le⟩ := c.mono key num h
    obtain ⟨num'', h'', le'⟩ := c'.mono key num' h'
    exact ⟨num'', h'', Nat.le_trans le le'⟩
  counted e he n key hkey length := by
    rcases List.mem_append.mp he with he | he
    · obtain ⟨num, h, le⟩ := c.counted e he n key hkey length
      obtain ⟨num', h', le'⟩ := c'.mono key num h
      exact ⟨num', h', Nat.le_trans le le'⟩
    · exact c'.counted e he n key hkey length
  origin key num h := by
    rcases c'.origin key num h with h | ⟨length, e, he, hkey⟩
    · rcases c.origin key num h with h | ⟨length, e, he, hkey⟩
      · exact .inl h
      · exact .inr ⟨length, e, List.mem_append_left _ he, hkey⟩
    · exact .inr ⟨length, e, List.mem_append_right _ he, hkey⟩

theorem highestNum_counted (ok : Importable importData) :
    ∃ highest, highestNum importData = .ok highest ∧ Counted importData.entries ∅ highest := by
  have fold : ∀ (entries : List (Sigma fun _ : ZPath => String)) (highest : Dict ZPath Nat),
      (∀ e ∈ entries, ∀ u key, e.1 = u :: key → key.length = 8 → ∃ n, u = sequenceName n) →
      ∃ highest', entries.foldlM (fun highest e => countNumber highest e.1) highest =
        .ok highest' ∧ Counted entries highest highest' := by
    intro entries
    induction entries with
    | nil =>
        intro highest _
        exact ⟨highest, rfl, fun key num h => ⟨num, h, Nat.le_refl _⟩,
          fun e he => absurd he List.not_mem_nil, fun key num h => .inl h⟩
    | cons e entries ih =>
        intro highest numbered
        obtain ⟨h₁, hc₁, c₁⟩ := countNumber_counted e highest (numbered e List.mem_cons_self)
        obtain ⟨h₂, hc₂, c₂⟩ := ih h₁ fun e' he' => numbered e' (List.mem_cons_of_mem e he')
        refine ⟨h₂, ?_, c₁.append c₂⟩
        rw [List.foldlM_cons, hc₁]
        exact hc₂
  refine fold importData.entries ∅ fun e he u key hkey length => ?_
  refine ok.numbered u key ?_ length
  rw [← hkey]
  exact AList.mem_keys.mpr (List.mem_map_of_mem he)

/-! ### The records -/

/-- What restoring some entries makes of a tree. -/
structure Restored (entries : List (Sigma fun _ : ZPath => String)) (t t' : ZTree) : Prop where
  data : ∀ e ∈ entries, t'.data e.1 = some e.2
  others : ∀ q ∈ t, (∀ e ∈ entries, e.1 ≠ q) → t'.data q = t.data q
  created : ∀ q, t.created q ≤ t'.created q
  /-- An upload that was not there yet is counted. -/
  counted : ∀ e ∈ entries, ∀ u key, e.1 = u :: key → key.length = 8 → e.1 ∉ t →
    t.created key + 1 ≤ t'.created key
  absent : ∀ q, q.length = 9 → (∀ e ∈ entries, e.1 ≠ q) → q ∉ t → q ∉ t'

theorem restore_restored (ok : Importable importData) (within : Within importData t)
    (e : Sigma fun _ : ZPath => String) (mem : e.1 ∈ importData) :
    ∃ t', restore t e.1 e.2 = .ok t' ∧ Within importData t' ∧ Restored [e] t t' := by
  by_cases present : e.1 ∈ t
  · obtain ⟨t', hset, spec⟩ := set_updated (d := e.2) present
    refine ⟨t', (if_pos present).trans hset, ⟨spec.closed within.toClosed, ?_⟩, ?_, ?_, ?_, ?_, ?_⟩
    · exact fun q hq => within.within q ((spec.mem q).mp hq)
    · intro e' he'
      rw [List.mem_singleton.mp he']
      exact spec.data_self
    · exact fun q _ ne => spec.data q (ne e (List.mem_singleton_self e)).symm
    · exact fun q => Nat.le_of_eq (spec.created q).symm
    · intro e' he' u key hkey length absent
      rw [List.mem_singleton.mp he'] at absent
      exact absurd present absent
    · exact fun q _ _ hq h => hq ((spec.mem q).mp h)
  · rcases he : e.1 with _ | ⟨n, p⟩
    · rw [he] at present
      exact absurd within.root present
    rw [he] at present mem
    obtain ⟨t', hcreate, spec⟩ := create_new (d := e.2) within.toClosed present
    refine ⟨t', ?_, ⟨spec.toClosed, ?_⟩, ?_, ?_, spec.created, ?_, ?_⟩
    · exact (if_neg present).trans hcreate
    · intro q hq
      rcases (spec.mem q).mp hq with hq | hq
      · exact within.within q hq
      · exact .inr ⟨_, mem, hq⟩
    · intro e' he'
      rw [List.mem_singleton.mp he', he]
      exact spec.data_self
    · exact fun q hq _ => spec.data q hq
    · intro e' he' u key hkey length absent
      rw [List.mem_singleton.mp he', he] at hkey
      cases hkey
      exact Nat.le_of_eq spec.created_tail.symm
    · intro q length ne hq h
      rcases (spec.mem q).mp h with h | h
      · exact hq h
      · -- a path as deep as an upload is no ancestor of another one
        have := ok.length_le _ mem
        have := h.length_le
        have := eq_of_suffix h (by omega)
        exact ne e (List.mem_singleton_self e) (he.trans this.symm)

theorem Restored.append {e : Sigma fun _ : ZPath => String}
    {entries : List (Sigma fun _ : ZPath => String)} {t t' t'' : ZTree}
    (new : ∀ e' ∈ entries, e'.1 ≠ e.1) (r : Restored [e] t t') (r' : Restored entries t' t'') :
    Restored (e :: entries) t t'' where
  data e' he' := by
    rcases List.mem_cons.mp he' with rfl | he'
    · have hdata := r.data e' (List.mem_singleton_self e')
      exact (r'.others e'.1 (mem_of_data hdata) new).trans hdata
    · exact r'.data e' he'
  others q hq ne := by
    have first := r.others q hq fun e' he' => by
      rw [List.mem_singleton.mp he']
      exact ne e List.mem_cons_self
    have mem : q ∈ t' := by
      rw [← data_isSome, first, data_isSome]
      exact hq
    exact (r'.others q mem fun e' he' => ne e' (List.mem_cons_of_mem e he')).trans first
  created q := Nat.le_trans (r.created q) (r'.created q)
  counted e' he' u key hkey length absent := by
    rcases List.mem_cons.mp he' with rfl | he'
    · exact Nat.le_trans (r.counted e' (List.mem_singleton_self e') u key hkey length absent)
        (r'.created key)
    · refine Nat.le_trans (Nat.succ_le_succ (r.created key))
        (r'.counted e' he' u key hkey length (r.absent e'.1 ?_ ?_ absent))
      · rw [hkey, List.length_cons, length]
      · intro e'' he''
        rw [List.mem_singleton.mp he'']
        exact (new e' he').symm
  absent q length ne hq := by
    refine r'.absent q length (fun e' he' => ne e' (List.mem_cons_of_mem e he'))
      (r.absent q length ?_ hq)
    intro e' he'
    rw [List.mem_singleton.mp he']
    exact ne e List.mem_cons_self

theorem restores_restored (ok : Importable importData)
    {entries : List (Sigma fun _ : ZPath => String)} (nodup : (entries.map (·.1)).Nodup)
    (mem : ∀ e ∈ entries, e.1 ∈ importData) {t : ZTree} (within : Within importData t) :
    ∃ t', entries.foldlM (fun t e => restore t e.1 e.2) t = .ok t' ∧ Within importData t' ∧
      Restored entries t t' := by
  induction entries generalizing t with
  | nil =>
      refine ⟨t, rfl, within, ?_, fun _ _ _ => rfl, fun _ => Nat.le_refl _, ?_, fun _ _ _ h => h⟩
      · exact fun e he => absurd he List.not_mem_nil
      · exact fun e he => absurd he List.not_mem_nil
  | cons e entries ih =>
      obtain ⟨t₁, h₁, within₁, r₁⟩ := restore_restored ok within e (mem e List.mem_cons_self)
      rw [List.map_cons, List.nodup_cons] at nodup
      obtain ⟨t₂, h₂, within₂, r₂⟩ :=
        ih nodup.2 (fun e' he' => mem e' (List.mem_cons_of_mem e he')) within₁
      refine ⟨t₂, ?_, within₂, r₁.append ?_ r₂⟩
      · rw [List.foldlM_cons, h₁]
        exact h₂
      · exact fun e' he' same => nodup.1 (same ▸ List.mem_map_of_mem he')

/-! ### The import -/

/-- The tree that an import makes of an empty one. -/
structure Imported (importData : Dict ZPath String) (t : ZTree) : Prop extends
    Within importData t where
  data : ∀ p d, importData.lookup p = some d → t.data p = some d
  /-- The counter of a parent is past every imported number. -/
  counted : ∀ n key, sequenceName n :: key ∈ importData → key.length = 8 → n < t.created key

theorem importImageData_imported (ok : Importable importData) :
    ∃ t, importImageData ZTree.empty importData = .ok t ∧ Imported importData t := by
  obtain ⟨highest, hhighest, counted⟩ := highestNum_counted ok
  have attained : ∀ e ∈ highest.entries, Attained importData e.1 e.2 := by
    intro e he
    have hlookup : highest.lookup e.1 = some e.2 := AList.mem_lookup_iff.mpr he
    rcases counted.origin e.1 e.2 hlookup with h | ⟨length, e', he', hkey⟩
    · cases h
    · refine ⟨length, ?_⟩
      rw [← hkey]
      exact AList.mem_keys.mpr (List.mem_map_of_mem he')
  have absent : ∀ e ∈ highest.entries, e.1 ∉ ZTree.empty := by
    intro e he h
    have length := (attained e he).1
    rcases (AList.mem_insert _).mp h with h | h
    · rw [h] at length
      cases length
    · exact AList.notMem_empty _ h
  obtain ⟨t₁, h₁, within₁, filled, -⟩ :=
    fillers_filled ok (Dict.nodup_keys highest) attained within_empty absent
  obtain ⟨t₂, h₂, within₂, restored⟩ := restores_restored ok (Dict.nodup_keys importData)
    (fun e he => AList.mem_keys.mpr (List.mem_map_of_mem he)) within₁
  refine ⟨t₂, ?_, within₂, ?_, ?_⟩
  · unfold importImageData
    rw [hhighest]
    change (highest.entries.foldlM (fun t e => createFillers importData t e.1 e.2) ZTree.empty >>=
      fun t => importData.entries.foldlM (fun t e => restore t e.1 e.2) t) = _
    rw [h₁]
    exact h₂
  · intro p d h
    exact restored.data ⟨p, d⟩ (AList.mem_lookup_iff.mp h)
  · intro n key mem length
    -- the highest number of the parent was not created by its fillers
    obtain ⟨d, hd⟩ := Option.isSome_iff_exists.mp (AList.lookup_isSome.mpr mem)
    obtain ⟨num, hnum, le⟩ := counted.counted ⟨_, d⟩ (AList.mem_lookup_iff.mp hd) n key rfl length
    have he : (⟨key, num⟩ : Sigma fun _ : ZPath => Nat) ∈ highest.entries :=
      AList.mem_lookup_iff.mp hnum
    have f := filled _ he
    have new : sequenceName num :: key ∉ t₁ := by
      intro h
      obtain ⟨m, hm, same⟩ := f.numbers _ h
      have := sequenceName_injective same
      dsimp only at hm
      omega
    obtain ⟨d', hd'⟩ := Option.isSome_iff_exists.mp
      (AList.lookup_isSome.mpr (attained _ he).2)
    have step := restored.counted ⟨_, d'⟩ (AList.mem_lookup_iff.mp hd') _ key rfl length new
    have := f.created
    dsimp only at this
    omega

/-! ### Uploads after the import -/

/-- What may happen to the uploads after an import. -/
inductive UploadOp where
  | store (image buildId provider data : String) (uploadNumber : Option String)
  | deleteUpload (image buildId provider number : String)
  | deleteBuild (image buildId : String)
  /-- taking the lock of the uploads of a build creates its node -/
  | lock (image buildId provider : String)
deriving DecidableEq, Repr

/-- An operation that raises changes nothing. -/
def UploadOp.apply (t : ZTree) : UploadOp → ZTree
  | .store image buildId provider data number =>
      match storeImageUpload t image buildId provider data number with
      | .ok (_, t') => t'
      | .error _ => t
  | .deleteUpload image buildId provider number =>
      ImageData.deleteUpload t image buildId provider number
  | .deleteBuild image buildId => ImageData.deleteBuild t image buildId
  | .lock image buildId provider => ensurePath t (imageUploadLockPath image buildId provider)

/-- The tree is one, and a counter is past a number. -/
structure Past (key : ZPath) (num : Nat) (t : ZTree) : Prop extends Closed t where
  created : num < t.created key

/-- A new upload takes the counter of its parent as its number. -/
theorem storeImageUpload_new {image buildId provider data v : String} {t t' : ZTree}
    (closed : Closed t) (h : storeImageUpload t image buildId provider data none = .ok (v, t')) :
    v = sequenceName (t.created (imageUploadPath image buildId provider)) ∧
      Closed t' ∧ Extends t t' := by
  unfold storeImageUpload at h
  split at h
  · cases h
  by_cases new : sequenceName (t.created (imageUploadPath image buildId provider)) ::
      imageUploadPath image buildId provider ∈ t
  · exfalso
    have : createSequence t (imageUploadPath image buildId provider) data = .error .nodeExists := by
      unfold createSequence
      rw [created_ensurePath]
      dsimp only
      rw [create, if_pos new]
      rfl
    dsimp only at h
    rw [this] at h
    cases h
  · obtain ⟨t₁, h₁, spec⟩ := createSequence_new (d := data) closed new
    dsimp only at h
    rw [h₁] at h
    cases h
    exact ⟨rfl, spec.toClosed, spec.toExtends⟩

theorem storeImageUpload_update {image buildId provider data number v : String} {t t' : ZTree}
    (h : storeImageUpload t image buildId provider data (some number) = .ok (v, t')) :
    ∃ p, Updated t p data t' := by
  unfold storeImageUpload at h
  split at h
  · cases h
  by_cases mem : number :: imageUploadPath image buildId provider ∈ t
  · obtain ⟨t₁, h₁, spec⟩ := set_updated (d := data) mem
    dsimp only at h
    rw [h₁] at h
    cases h
    exact ⟨_, spec⟩
  · exfalso
    have : set t (number :: imageUploadPath image buildId provider) data = .error .noNode := by
      unfold ZTree.set
      rw [AList.lookup_eq_none.mpr mem]
    dsimp only at h
    rw [this] at h
    cases h

theorem past_apply {image buildId provider : String} {num : Nat} {op : UploadOp}
    (kept : op ≠ .deleteBuild image buildId)
    (h : Past (imageUploadPath image buildId provider) num t) :
    Past (imageUploadPath image buildId provider) num (op.apply t) := by
  cases op with
  | store image' buildId' provider' data number =>
      unfold UploadOp.apply
      dsimp only
      split
      · rename_i v t' hstore
        cases number with
        | none =>
            obtain ⟨-, closed, ext⟩ := storeImageUpload_new h.toClosed hstore
            exact ⟨closed, Nat.lt_of_lt_of_le h.created (ext.created _)⟩
        | some number =>
            obtain ⟨p, spec⟩ := storeImageUpload_update hstore
            exact ⟨spec.closed h.toClosed, by rw [spec.created]; exact h.created⟩
      · exact h
  | deleteUpload image' buildId' provider' number =>
      refine ⟨closed_deleteTree h.toClosed (by simp), ?_⟩
      have out : ¬ (number :: imageUploadPath image' buildId' provider') <:+
          imageUploadPath image buildId provider :=
        fun hs => absurd hs.length_le (show ¬ 9 ≤ 8 by decide)
      change num < (deleteTree t _).created _
      rw [created_deleteTree out]
      exact h.created
  | deleteBuild image' buildId' =>
      change Past _ _ (ImageData.deleteBuild t image' buildId')
      unfold ImageData.deleteBuild
      split
      · exact h
      refine ⟨closed_deleteTree h.toClosed (by simp [imageBuildIdPath]), ?_⟩
      have out : ¬ imageBuildIdPath image' buildId' <:+ imageUploadPath image buildId provider := by
        intro hs
        have same := (List.suffix_of_suffix_length_le hs
          (⟨["images", provider, "providers"], rfl⟩ : imageBuildIdPath image buildId <:+
            imageUploadPath image buildId provider) (Nat.le_refl _)).eq_of_length rfl
        unfold imageBuildIdPath imageBuildsPath imagePath at same
        injection same with hb hrest
        injection hrest with _ hrest
        injection hrest with hi
        exact kept (by rw [hb, hi])
      rw [created_deleteTree out]
      exact h.created
  | lock image' buildId' provider' =>
      refine ⟨closed_ensurePath h.toClosed, ?_⟩
      exact Nat.lt_of_lt_of_le h.created ((extends_ensurePath h.toClosed).created _)

theorem past_ops {image buildId provider : String} {num : Nat} (ops : List UploadOp)
    (kept : UploadOp.deleteBuild image buildId ∉ ops)
    (h : Past (imageUploadPath image buildId provider) num t) :
    Past (imageUploadPath image buildId provider) num (ops.foldl UploadOp.apply t) := by
  induction ops generalizing t with
  | nil => exact h
  | cons op ops ih =>
      rw [List.mem_cons, not_or] at kept
      exact ih kept.2 (past_apply (Ne.symm kept.1) h)

/-! ### The round trip -/

/-- The image data of a running system: a tree whose uploads have numbers of ZooKeeper. -/
structure ImageTree where
  tree : ZTree
  closed : Closed tree
  numbered : ∀ image buildId provider number,
    number ∈ getImageUploadNumbers tree image buildId provider → ∃ n, number = sequenceName n

theorem ImageTree.importable (t : ImageTree) : Importable (exportImageData t.tree) := by
  have entry : ∀ p ∈ exportImageData t.tree,
      Exportable p ∧ ∃ d, exportedData t.tree p = some d := by
    intro p hp
    obtain ⟨d, hd⟩ := Option.isSome_iff_exists.mp (AList.lookup_isSome.mpr hp)
    obtain ⟨exportable, h⟩ := (lookup_exportImageData t.closed).mp hd
    exact ⟨exportable, d, h⟩
  refine ⟨fun p hp => (entry p hp).1.length_le, ?_⟩
  intro u key hp length
  obtain ⟨exportable, d, hd⟩ := entry _ hp
  have mem := mem_of_exportedData hd
  generalize hq : u :: key = q at exportable
  cases exportable with
  | pause image => cases hq; cases length
  | build image lock => cases hq; cases length
  | upload image provider lock lock' =>
      cases hq
      exact t.numbered image _ provider u (mem_getImageUploadNumbers.mpr ⟨mem, lock'⟩)

/-- The image data of two trees are the same. -/
structure SameImageData (t t' : ZTree) : Prop where
  paused : ∀ image, getImagePaused t' image = getImagePaused t image
  builds : ∀ image buildId, buildId ∈ getBuildIds t' image ↔ buildId ∈ getBuildIds t image
  buildData : ∀ image, ∀ buildId ∈ getBuildIds t image,
    t'.data (imageBuildIdPath image buildId) = t.data (imageBuildIdPath image buildId)
  uploads : ∀ image, ∀ buildId ∈ getBuildIds t image, ∀ provider number,
    number ∈ getImageUploadNumbers t' image buildId provider ↔
      number ∈ getImageUploadNumbers t image buildId provider
  uploadData : ∀ image, ∀ buildId ∈ getBuildIds t image, ∀ provider,
    ∀ number ∈ getImageUploadNumbers t image buildId provider,
      t'.data (number :: imageUploadPath image buildId provider) =
        t.data (number :: imageUploadPath image buildId provider)

/-- At every path that is exported the import has what was exported. -/
theorem exportedData_import (t : ImageTree) {t' : ZTree}
    (imported : Imported (exportImageData t.tree) t') {p : ZPath} (exportable : Exportable p) :
    exportedData t' p = exportedData t.tree p := by
  cases hd : exportedData t.tree p with
  | some d =>
      have hdata : t'.data p = some d :=
        imported.data p d ((lookup_exportImageData t.closed).mpr ⟨exportable, hd⟩)
      unfold exportedData at hd ⊢
      split at hd
      · rename_i length
        obtain ⟨_, -, rfl⟩ := Option.map_eq_some_iff.mp hd
        rw [if_pos length, hdata]
        rfl
      · rename_i length
        rw [if_neg length]
        exact hdata
  | none =>
      have absent : p ∉ t.tree := by
        intro h
        obtain ⟨d, hd'⟩ := Option.isSome_iff_exists.mp (data_isSome.mpr h)
        unfold exportedData at hd
        rw [hd'] at hd
        split at hd <;> cases hd
      have absent' : p ∉ t' := by
        intro h
        rcases imported.within p h with rfl | ⟨q, hq, suffix⟩
        · exact absent t.closed.root
        · obtain ⟨d, hd⟩ := Option.isSome_iff_exists.mp (AList.lookup_isSome.mpr hq)
          have := mem_of_exportedData ((lookup_exportImageData t.closed).mp hd).2
          exact absent (t.closed.suffix this suffix)
      unfold exportedData
      rw [data_eq_none.mpr absent']
      split <;> rfl

theorem data_import (t : ImageTree) {t' : ZTree} (imported : Imported (exportImageData t.tree) t')
    {p : ZPath} (exportable : Exportable p) (length : p.length ≠ 4) :
    t'.data p = t.tree.data p := by
  have := exportedData_import t imported exportable
  unfold exportedData at this
  rwa [if_neg length, if_neg length] at this

theorem sameImageData_import (t : ImageTree) {t' : ZTree}
    (imported : Imported (exportImageData t.tree) t') : SameImageData t.tree t' := by
  have build : ∀ image buildId, buildId ≠ "lock" →
      t'.data (imageBuildIdPath image buildId) = t.tree.data (imageBuildIdPath image buildId) :=
    fun image buildId lock => data_import t imported (.build image lock) (show 5 ≠ 4 by decide)
  have upload : ∀ image buildId provider number, buildId ≠ "lock" → number ≠ "lock" →
      t'.data (number :: imageUploadPath image buildId provider) =
        t.tree.data (number :: imageUploadPath image buildId provider) :=
    fun image buildId provider number lock lock' =>
      data_import t imported (.upload image provider lock lock') (show 9 ≠ 4 by decide)
  refine ⟨?_, ?_, ?_, ?_, ?_⟩
  · intro image
    have := exportedData_import t imported (.pause image)
    rw [exportedData_pause, exportedData_pause] at this
    have := congrArg Option.isSome this
    rwa [Option.isSome_map, Option.isSome_map] at this
  · intro image buildId
    rw [mem_getBuildIds, mem_getBuildIds]
    refine and_congr_left fun lock => ?_
    rw [← data_isSome, build image buildId lock, data_isSome]
  · exact fun image buildId h => build image buildId (mem_getBuildIds.mp h).2
  · intro image buildId h provider number
    rw [mem_getImageUploadNumbers, mem_getImageUploadNumbers]
    refine and_congr_left fun lock => ?_
    rw [← data_isSome, upload image buildId provider number (mem_getBuildIds.mp h).2 lock,
      data_isSome]
  · intro image buildId h provider number h'
    exact upload image buildId provider number (mem_getBuildIds.mp h).2
      (mem_getImageUploadNumbers.mp h').2

/-- Importing what was exported gives the same image data; they are exported again as the
same value; and whatever happens to uploads of builds that are kept, a new upload gets a
number that is greater than those of its image, build and provider that were imported. -/
theorem import_export (t : ImageTree) :
    ∃ t', importImageData ZTree.empty (exportImageData t.tree) = .ok t' ∧
      SameImageData t.tree t' ∧
      (∀ p, (exportImageData t').lookup p = (exportImageData t.tree).lookup p) ∧
      ∀ image, ∀ buildId ∈ getBuildIds t.tree image, ∀ provider,
        ∀ number ∈ getImageUploadNumbers t.tree image buildId provider,
        ∀ ops : List UploadOp, UploadOp.deleteBuild image buildId ∉ ops →
        ∀ data v t'', storeImageUpload (ops.foldl UploadOp.apply t') image buildId provider data
          none = .ok (v, t'') →
          ∃ m n, number = sequenceName m ∧ v = sequenceName n ∧ m < n := by
  obtain ⟨t', himport, imported⟩ := importImageData_imported t.importable
  refine ⟨t', himport, sameImageData_import t imported, ?_, ?_⟩
  · intro p
    refine Option.ext fun d => ?_
    rw [lookup_exportImageData imported.toClosed, lookup_exportImageData t.closed]
    exact and_congr_right fun exportable => by rw [exportedData_import t imported exportable]
  · intro image buildId hbuild provider number hnumber ops kept data v t'' hstore
    obtain ⟨m, rfl⟩ := t.numbered image buildId provider number hnumber
    obtain ⟨mem, lock⟩ := mem_getImageUploadNumbers.mp hnumber
    have exported : sequenceName m :: imageUploadPath image buildId provider ∈
        exportImageData t.tree := by
      obtain ⟨d, hd⟩ := Option.isSome_iff_exists.mp (data_isSome.mpr mem)
      refine AList.lookup_isSome.mp (Option.isSome_iff_exists.mpr ⟨d, ?_⟩)
      exact (lookup_exportImageData t.closed).mpr
        ⟨.upload image provider (mem_getBuildIds.mp hbuild).2 lock, hd⟩
    have past := past_ops ops kept
      ⟨imported.toClosed, imported.counted m _ exported rfl⟩
    obtain ⟨hv, -, -⟩ := storeImageUpload_new past.toClosed hstore
    exact ⟨m, _, rfl, hv, past.created⟩

/-! ### A tree with a gap -/

/-- What of the tree is not an upload: a paused image with a build. -/
def exampleBuilds : Except ZkError ZTree := do
  let t ← create ZTree.empty (imagePausePath "debian") "not exported"
  create t (imageBuildIdPath "debian" "b1") "build"

/-- Three uploads, of which the second one is removed. -/
def exampleUploads : Except ZkError ZTree := do
  let t ← exampleBuilds
  let (_, t) ← storeImageUpload t "debian" "b1" "cloud" "first" none
  let (number, t) ← storeImageUpload t "debian" "b1" "cloud" "second" none
  let (_, t) ← storeImageUpload t "debian" "b1" "cloud" "third" none
  pure (deleteUpload t "debian" "b1" "cloud" number)

def exampleNodes : ZTree := exampleUploads.toOption.getD ZTree.empty

theorem closed_of_keys {t : ZTree} (root : [] ∈ t) (parent : ∀ p ∈ t.keys, p.tail ∈ t) :
    Closed t :=
  ⟨root, fun n p h => parent (n :: p) (AList.mem_keys.mpr h)⟩

def exampleTree : ImageTree where
  tree := exampleNodes
  closed := closed_of_keys (by decide +kernel) (by decide +kernel)
  numbered := by
    have numbers : ∀ p ∈ exampleNodes.keys, p.length = 9 →
        ∃ n < 3, p.head? = some (sequenceName n) := by decide +kernel
    intro image buildId provider number mem
    obtain ⟨mem, -⟩ := mem_getImageUploadNumbers.mp mem
    obtain ⟨n, -, head⟩ := numbers _ (AList.mem_keys.mpr mem) rfl
    exact ⟨n, Option.some.inj head⟩

example : (do
    let t ← importImageData ZTree.empty (exportImageData exampleTree.tree)
    let (number, _) ← storeImageUpload t "debian" "b1" "cloud" "fourth" none
    pure (getImageUploadNumbers t "debian" "b1" "cloud", number)).toOption =
      some ([sequenceName 2, sequenceName 0], sequenceName 3) := by
  decide +kernel

end ImageData

end Nodepool
