import Nodepool.Driver.HandlerFootprint
import Nodepool.StateMachine.CloudHistory

/-!
A scan deletes only orphaned resources. Whatever is remembered from the last scan
was stored before this one began, so what is then not among the known nodes and
uploads is gone; and it cannot come back.
-/

namespace Nodepool

open Effect Method CloudWorld

namespace CloudSystem

/-- The managers start with nothing remembered, in a world with any records,
launches and resources. -/
structure Initial (cfg : Config cloudSystem) : Prop where
  consistent : cfg.world.Consistent
  leaks : ∀ k provider, cfg.world.leaks k provider = Leaks.empty
  idle : ∀ i, cfg.thread i = .pure ()

/-- The context of one thread. -/
abbrev context (me : CloudThread) : Context LauncherSig CloudWorld :=
  cloudSystem.context (System.always cloudSystem) Consistent (Later me) (Req me) me

/-- An assertion that every later world keeps. -/
def Lasting (me : CloudThread) (B : CloudWorld → Prop) : Prop :=
  ∀ w w', B w → Later me w w' → B w'

/-- The calls on which there is no requirement. -/
def Free : Call → Prop
  | .newLauncher _ | .getCreateStateMachine _ _ _ _ _ | .uploadImage _ _ _
  | .createImageUpload _ _ _ _ | .deleteResource _ | .assignPossiblyLeaked _ => False
  | _ => True

theorem free_of_quiet {c : Call} (h : Quiet c) : Free c := by
  cases c <;> trivial

theorem quiet_of_readsRecords (c : Call) (h : c.readsRecords) : Quiet c := by
  cases c <;> trivial

theorem free_of_onNodes {c : Call} (h : c.onNodes) : Free c := by
  cases c <;> trivial

theorem req_of_free {me : CloudThread} {w : CloudWorld} {c : Call} (h : Free c) : Req me w c := by
  cases c <;> trivial

variable {me : CloudThread}

theorem stable_free {B : CloudWorld → Prop} (lasting : Lasting me B) :
    Stable (context me) Free B where
  rely h hl _ := lasting _ _ h hl
  req hc _ _ := req_of_free hc
  step hc h hi hs _ := by
    refine lasting _ _ h ((next_step hi (req_of_free hc) hs.1).2 me fun leaks e => ?_)
    subst e
    exact absurd hc id

theorem stable_quiet {B : CloudWorld → Prop} (lasting : Lasting me B) :
    Stable (context me) Quiet B :=
  (stable_free lasting).mono fun _ => free_of_quiet

variable {σ : Type} {s : σ} {w : CloudWorld}

/-- A call that only looks something up. -/
theorem wp_lookup {c : Call} (hc : Quiet c) {B : CloudWorld → Prop} (lasting : Lasting me B)
    (hB : B w) {Q : c.Val → σ → CloudWorld → Prop} {E : Err → σ → CloudWorld → Prop}
    (ok : ∀ v w', B w' → w'.Consistent → w' ∈ next me w' c (.ok v) → Q v s w')
    (error : ∀ e w', B w' → E e s w') :
    (perform c : Method LauncherSig σ _).wp (context me) Q E s w := by
  refine Method.wp_call (fun h hl _ => lasting _ _ h hl) hB
    (fun _ _ _ => req_of_free (free_of_quiet hc))
    ?_ ?_
  · intro v w₁ w₂ h hi hs _
    obtain rfl := next_quiet hc hs.1
    exact ok v w₂ h hi hs.1
  · intro e w₁ w₂ h _ hs _
    obtain rfl := next_quiet hc hs.1
    exact error e w₂ h

/-- A method all of whose calls are free. -/
abbrev IsFree {α : Type} (m : LauncherM σ α) : Prop := Within Free (fun s : σ => s) m

theorem wp_free {α : Type} {m : LauncherM σ α} (h : IsFree m) {B : CloudWorld → Prop}
    (lasting : Lasting me B) (hB : B w) {E : Err → σ → CloudWorld → Prop}
    (error : ∀ e s w', B w' → E e s w') :
    m.wp (context me) (fun _ _ w' => B w') E s w :=
  Method.wp_mono (h.wp (stable_free lasting) hB) (fun _ _ _ h => h.2) fun e s w' h =>
    error e s w' h.2

/-- A method that respects what is required of its calls; nothing is said of its end. -/
abbrev Respects (me : CloudThread) {α : Type} (m : LauncherM σ α) (s : σ) (w : CloudWorld) : Prop :=
  m.wp (context me) (fun _ _ _ => True) (fun _ _ _ => True) s w

theorem IsFree.respects {α : Type} {m : LauncherM σ α} (h : IsFree m) : Respects me m s w :=
  wp_free h (B := fun _ => True) (fun _ _ _ _ => trivial) trivial fun _ _ _ _ => trivial

/-- A lasting assertion goes past a method whose calls are free. -/
theorem respects_bind {α β : Type} {m : LauncherM σ α} {f : α → LauncherM σ β} (hm : IsFree m)
    {B : CloudWorld → Prop} (lasting : Lasting me B) (hB : B w)
    (hf : ∀ a s w, B w → Respects me (f a) s w) : Respects me (m >>= f) s w :=
  wp_bind.mpr (Method.wp_mono (wp_free hm lasting hB fun _ _ _ _ => trivial) hf fun _ _ _ h => h)

/-! ### Launching -/

theorem recorded_lasting (m : Metadata) : Lasting me (Recorded · m) :=
  fun _ _ h hl => h.later hl

theorem launchable_lasting (l : NodeLauncher) : Lasting me (Launchable · l) :=
  fun _ _ h hl => h.later hl

theorem storeNode_free (o : NodeRef) :
    IsFree (ZooKeeper.storeNode o : LauncherM σ Unit) :=
  (ZooKeeper.storeNode_within o).mono fun _ => free_of_onNodes

theorem imageExternalId_free (providerName : String) (label : PoolLabel) :
    IsFree (StateMachineNodeLauncher.imageExternalId providerName label : LauncherM σ _) := by
  unfold StateMachineNodeLauncher.imageExternalId
  split
  · exact .pure
  · refine .bind (.perform trivial) fun image => ?_
    split
    · exact .throw
    · exact .pure

/-- The metadata that is given to the cloud names the node that was just stored. -/
theorem startStateMachine_respects (l : Nat) :
    Respects me (StateMachineNodeLauncher.startStateMachine l) s w := by
  refine wp_bind.mpr (wp_lookup (B := fun _ => True) (by trivial) (fun _ _ _ _ => trivial)
    trivial ?_
    fun _ _ _ => trivial)
  intro launcher w₁ _ hc₁ hn
  have hl : w₁.Launchable launcher := by
    obtain ⟨h, -⟩ := of_mem_ite hn
    rw [h.2]
    exact hc₁.launchers l h.1
  have lasting : Lasting me (Launchable · launcher) := launchable_lasting launcher
  refine respects_bind (.perform (by trivial)) lasting hl fun object _ _ h => ?_
  refine respects_bind (.perform (by trivial)) lasting h fun label _ _ h => ?_
  refine respects_bind (imageExternalId_free _ _) lasting h fun image _ _ h => ?_
  refine respects_bind (.perform (by trivial)) lasting h fun quota _ _ h => ?_
  refine respects_bind (.perform (by trivial)) lasting h fun _ _ _ h => ?_
  refine respects_bind (storeNode_free _) lasting h fun _ s₂ w₂ h₂ => ?_
  refine wp_bind.mpr (wp_lookup (by trivial) lasting h₂ ?_ fun _ _ _ => trivial)
  intro object w₃ h₃ hc₃ hn₃
  have hobject : object = w₃.objects launcher.node := (of_mem_ite hn₃).1
  split
  · trivial
  · rename_i id hid
    obtain ⟨n, _, hnode, _, hprovider⟩ := h₃
    have recorded : w₃.Recorded { Metadata.empty with
        nodeId := some (sequenceName id)
        poolName := some launcher.poolName
        providerName := some launcher.providerName } := by
      obtain ⟨hlt, hof⟩ := hc₃.objects launcher.node id (hobject ▸ hid)
      refine Or.inl ⟨id, hlt, rfl, rfl, ?_⟩
      rw [← hof, hnode, hprovider]
    refine wp_bind.mpr (Method.wp_call (fun h hl _ => recorded_lasting _ _ _ h hl) recorded
      (fun _ h _ => h) ?_ fun _ _ _ _ _ _ _ => trivial)
    intro machine _ w₄ _ _ _ _
    exact IsFree.respects (.perform trivial)

theorem launch_respects (l : Nat) : Respects me (StateMachineNodeLauncher.launch l) s w := by
  have lasting : Lasting me fun _ => True := fun _ _ _ _ => trivial
  refine respects_bind (.perform (by trivial)) lasting trivial fun launcher _ _ _ => ?_
  refine respects_bind (.perform (by trivial)) lasting trivial fun _ _ _ _ => ?_
  split
  · exact IsFree.respects (.bind (.perform trivial) fun _ => .perform trivial)
  · exact startStateMachine_respects l

/-- The node object was made for a node of the provider. -/
def Made (n : Nat) (provider : Option String) (w : CloudWorld) : Prop :=
  n < w.nextObject ∧ (w.objects (.own n)).node.provider = provider

theorem made_lasting (n : Nat) (provider : Option String) : Lasting me (Made n provider) := by
  rintro w w' ⟨hn, hp⟩ hl
  exact ⟨hn.trans_le hl.nextObject, (hl.objects n hn).1.trans hp⟩

theorem made_stored_lasting (n : Nat) (provider : Option String) :
    Lasting me fun w => Made n provider w ∧ (w.objects (.own n)).id ≠ none := by
  rintro w w' ⟨hm, hid⟩ hl
  exact ⟨made_lasting n provider _ _ hm hl, (hl.objects n hm.1).2 hid⟩

/-- A node that was stored has a number. -/
theorem storeNode_wp {n : Nat} {provider : Option String} (h : Made n provider w) :
    (ZooKeeper.storeNode (.own n) : LauncherM σ Unit).wp (context me)
      (fun _ _ w' => Made n provider w' ∧ (w'.objects (.own n)).id ≠ none)
      (fun _ _ _ => True) s w := by
  refine wp_bind.mpr (wp_lookup (by trivial) (made_lasting n provider) h ?_ fun _ _ _ => trivial)
  intro object w₁ h₁ _ hn
  have hobject : object = w₁.objects (.own n) := (of_mem_ite hn).1
  split
  · refine Method.wp_call (fun h hl _ => made_lasting n provider _ _ h hl) h₁
      (fun _ _ _ => trivial) ?_ fun _ _ _ _ _ _ _ => trivial
    intro _ w₂ w₃ h₂ _ hs _
    obtain rfl := List.mem_singleton.mp hs.1
    refine ⟨made_lasting n provider _ _ h₂ (Later.createNode me (.own n)), ?_⟩
    simp
  · rename_i hid
    have stored : Made n provider w₁ ∧ (w₁.objects (.own n)).id ≠ none := ⟨h₁, hobject ▸ hid⟩
    exact wp_free (.perform (by trivial)) (made_stored_lasting n provider) stored
      fun _ _ _ _ => trivial

theorem storeAndLaunch_respects {node : Node} (handler : Nat) (poolName : String) (retries : Nat)
    (hprovider : node.provider.isSome = true) {s : Unit} :
    Respects me (LaunchOp.storeAndLaunch node handler poolName retries) s w := by
  obtain ⟨provider, hp⟩ := Option.isSome_iff_exists.mp hprovider
  refine wp_bind.mpr (Method.wp_call (P := fun _ => True) (fun _ _ _ => trivial) trivial
    (fun _ _ _ => trivial) ?_ fun _ _ _ _ _ _ _ => trivial)
  intro o w₁ w₂ _ _ hs _
  have made : ∃ n, o = .own n ∧ Made n node.provider w₂ := by
    cases o with
    | own n =>
        obtain ⟨rfl, rfl⟩ := of_mem_ite hs.1
        exact ⟨_, rfl, Nat.lt_succ_self _, by simp⟩
    | cached id => cases hs.1
  obtain ⟨n, rfl, hmade⟩ := made
  refine wp_bind.mpr (Method.wp_mono (storeNode_wp hmade) ?_ fun _ _ _ _ => trivial)
  rintro _ s₃ w₃ stored
  have launchable : ∀ w, Made n node.provider w ∧ (w.objects (.own n)).id ≠ none →
      w.Launchable (StateMachineNodeLauncher.init handler (.own n) (node.provider.getD "")
        poolName retries) := by
    rintro w ⟨⟨hn, hnode⟩, hid⟩
    exact ⟨n, hn, rfl, hid, by rw [hnode, hp]; rfl⟩
  refine wp_bind.mpr (Method.wp_call (fun h hl _ => made_stored_lasting n _ _ _ h hl) stored
    (fun w h _ => launchable w h) ?_ fun _ _ _ _ _ _ _ => trivial)
  exact fun l _ _ _ _ _ _ => launch_respects l

/-! ### Uploading -/

theorem born_lasting (p : UploadPath) : Lasting me fun w => p ∈ w.born :=
  fun _ _ h hl => hl.born h

theorem builds_lasting (b : String × String) : Lasting me fun w => b ∈ w.builds :=
  fun _ _ h hl => hl.builds h

theorem raiseUnless_free (b : Bool) (e : Err) : IsFree (raiseUnless b e : LauncherM σ Unit) :=
  raiseUnless_within b e

theorem runPostUploadHook_free (provider : UploadProvider) (name externalId format : String) :
    IsFree (UploadWorker.runPostUploadHook provider name externalId format : LauncherM σ _) :=
  UploadWorker.runPostUploadHook_within provider trivial trivial trivial

/-- The metadata of an image names the upload that was just recorded. -/
theorem uploadImage_respects {provider : UploadProvider} {path : UploadPath} {images : List String}
    (hp : path.provider = provider.name) (born : path ∈ w.born) {s : Unit} :
    Respects me (UploadWorker.uploadImage .external provider path images) s w := by
  have lasting : Lasting me fun w => path ∈ w.born := born_lasting path
  refine respects_bind (raiseUnless_free _ _) lasting born fun _ _ _ h => ?_
  refine respects_bind (.perform (by trivial)) lasting h fun timestamp _ _ h => ?_
  refine respects_bind (raiseUnless_free _ _) lasting h fun _ _ _ h => ?_
  have recorded : ∀ w : CloudWorld, path ∈ w.born → w.Recorded
      { Metadata.empty with
        buildId := some path.buildId
        uploadId := some path.number
        providerName := some provider.name } :=
    fun w h => Or.inr ⟨path, h, rfl, rfl, rfl, by rw [hp]⟩
  refine wp_bind.mpr (wp_attempt.mpr (Method.wp_call (fun h hl _ => lasting _ _ h hl) h
    (fun w h _ => recorded w h) ?_ ?_))
  · exact fun externalId _ _ _ _ _ _ => IsFree.respects (runPostUploadHook_free _ _ _ _)
  · exact fun e _ _ _ _ _ _ => IsFree.respects (.bind (.perform trivial) fun _ => .pure)

theorem uploadBuild_respects {provider : UploadProvider} {image : String} {build : ImageBuild}
    {images : List String} (known : (image, build.id) ∈ w.builds) {s : Unit} :
    Respects me (UploadWorker.uploadBuild .external provider image build images) s w := by
  have lasting : Lasting me fun w => (image, build.id) ∈ w.builds := builds_lasting _
  refine respects_bind (.perform (by trivial)) lasting known fun upload _ _ h => ?_
  split
  · trivial
  refine respects_bind (.perform (by trivial)) lasting h fun stored _ _ h => ?_
  split
  · trivial
  refine wp_bind.mpr (wp_bind.mpr (Method.wp_mono (wp_free (.perform (by trivial)) lasting h
    fun _ _ _ _ => trivial) ?_ fun _ _ _ h => h))
  intro exist _ w₁ h
  refine wp_bind.mpr (Method.wp_mono (wp_free (raiseUnless_free _ _) lasting h
    fun _ _ _ _ => trivial) ?_ fun _ _ _ h => h)
  intro _ _ w₂ h
  refine Method.wp_call (fun h hl _ => lasting _ _ h hl) h (fun _ h _ => h) ?_
    fun _ _ _ _ _ _ _ => trivial
  intro number w₃ w₄ _ _ hs _
  have born : (⟨image, build.id, provider.name, number⟩ : UploadPath) ∈ w₄.born := by
    obtain ⟨-, rfl⟩ := of_mem_ite_not hs.1
    exact List.mem_cons_self
  refine wp_bind.mpr (Method.wp_mono (uploadImage_respects rfl born) ?_ fun _ _ _ h => h)
  intro data _ w₅ _
  refine IsFree.respects (.bind ?_ fun _ => .pure)
  exact .bind (.perform trivial) fun _ => .bind (raiseUnless_free _ _) fun _ => .perform trivial

theorem checkProviderImageUpload_respects (provider : UploadProvider) (image : String)
    {s : Unit} :
    Respects me (UploadWorker.checkProviderImageUpload .external provider image) s w := by
  unfold UploadWorker.checkProviderImageUpload
  split
  · trivial
  refine wp_bind.mpr (wp_lookup (B := fun _ => True) (by trivial) (fun _ _ _ _ => trivial) trivial
    ?_ fun _ _ _ => trivial)
  intro builds w₁ _ _ hn
  split
  · trivial
  · rename_i build rest
    have known : (image, build.id) ∈ w₁.builds := by
      obtain ⟨h, -⟩ := of_mem_ite hn
      exact h build List.mem_cons_self
    have lasting : Lasting me fun w => (image, build.id) ∈ w.builds := builds_lasting _
    refine respects_bind (.perform (by trivial)) lasting known fun images _ _ h => ?_
    split
    · trivial
    refine respects_bind (.perform (by trivial)) lasting h fun upload _ _ h => ?_
    split
    · trivial
    split
    · trivial
    refine wp_tryCatch.mpr (Method.wp_mono (Q := fun _ _ _ => True) (E := fun _ _ _ => True) ?_
      (fun _ _ _ _ => trivial) fun e _ _ _ => ?_)
    · refine respects_bind (.perform (by trivial)) lasting h fun acquired _ _ h => ?_
      refine respects_bind (raiseUnless_free _ _) lasting h fun _ _ _ h => ?_
      refine wp_bind.mpr (wp_attempt.mpr (Method.wp_mono (uploadBuild_respects h) ?_ ?_))
      · exact fun _ _ _ _ => IsFree.respects (.bind (.perform trivial) fun _ => .pure)
      · exact fun _ _ _ _ => IsFree.respects (.bind (.perform trivial) fun _ => .throw)
    · split <;> trivial

/-! ### What a scan knows -/

section Scan

variable {k N : Nat} {provider : String} {B : List UploadPath}

/-- The scan began when `N` nodes and the uploads `B` had been stored. -/
structure Since (k : Nat) (provider : String) (N : Nat) (B : List UploadPath) (w : CloudWorld) :
    Prop where
  nextNode : N ≤ w.nextNode
  born : B ⊆ w.born
  leaks : Aged N B provider (w.leaks k provider)

theorem since_lasting : Lasting (.cleanup k provider) (Since k provider N B) := fun _ _ h hl =>
  ⟨h.nextNode.trans hl.nextNode, List.Subset.trans h.born hl.born,
    by rw [hl.leaks k provider rfl]; exact h.leaks⟩

/-- Of the nodes that the scan began with, those of the provider that are not known
are gone. -/
def NodesKnown (N : Nat) (provider : String) (known : List String) (w : CloudWorld) : Prop :=
  N ≤ w.nextNode ∧ ∀ n < N, w.providerOf n = some provider → sequenceName n ∉ known →
    w.nodes n = none

theorem nodesKnown_lasting (known : List String) : Lasting me (NodesKnown N provider known) := by
  rintro w w' ⟨hN, h⟩ hl
  refine ⟨hN.trans hl.nextNode, fun n hn hp hk => ?_⟩
  have hlt := hn.trans_le hN
  exact hl.nodes n hlt (h n hn (hl.providerOf n hlt ▸ hp) hk)

theorem knownNodes_wp (hN : N ≤ w.nextNode) :
    (StateMachineProvider.knownNodes provider : LauncherM σ _).wp (context me)
      (fun known _ w' => NodesKnown N provider known w') (fun _ _ _ => True) s w := by
  -- the numbers that are not listed are gone, and so are those found empty later
  let Listed (ids : List NodeId) (w : CloudWorld) : Prop :=
    N ≤ w.nextNode ∧ ∀ n < N, n ∉ ids → w.nodes n = none
  let Read (id : NodeId) (found : List (NodeId × Node)) (w : CloudWorld) : Prop :=
    N ≤ w.nextNode ∧ (id < N → (∃ node, (id, node) ∈ found ∧ node.provider = w.providerOf id) ∨
      w.nodes id = none)
  have listed : ∀ ids, Lasting me (Listed ids) := by
    rintro ids w w' ⟨hN, h⟩ hl
    exact ⟨hN.trans hl.nextNode, fun n hn hid => hl.nodes n (hn.trans_le hN) (h n hn hid)⟩
  have read : ∀ id found, Lasting me (Read id found) := by
    rintro id found w w' ⟨hN, h⟩ hl
    refine ⟨hN.trans hl.nextNode, fun hn => ?_⟩
    rcases h hn with ⟨node, hmem, hp⟩ | hnone
    · exact Or.inl ⟨node, hmem, hp.trans (hl.providerOf id (hn.trans_le hN)).symm⟩
    · exact Or.inr (hl.nodes id (hn.trans_le hN) hnone)
  refine wp_bind.mpr (wp_bind.mpr (wp_lookup (by trivial)
    (B := fun w => N ≤ w.nextNode) (fun _ _ h hl => h.trans hl.nextNode) hN ?_
    fun _ _ _ => trivial))
  intro ids w₁ hN₁ _ hn
  have hids : Listed ids w₁ := by
    refine ⟨hN₁, fun n hlt hnot => ?_⟩
    obtain ⟨rfl, -⟩ := of_mem_ite hn
    by_contra hne
    refine hnot (List.mem_filter.mpr ⟨List.mem_range.mpr (hlt.trans_le hN₁), ?_⟩)
    exact Option.isSome_iff_ne_none.mpr hne
  refine Method.wp_mono (Within.wp_gather (P := Quiet) (π := fun s : σ => s)
    (fun id => .bind (.perform trivial) fun _ => .pure) (stable_quiet (listed ids))
    (fun id found => stable_quiet (read id found)) (fun id _ s w h => ?_) hids) ?_ fun _ _ _ h => h
  · refine wp_bind.mpr (wp_lookup (by trivial) (listed ids) h ?_ fun _ _ _ => trivial)
    intro node w₂ h₂ hc₂ hn₂
    refine ⟨h₂.1, fun _ => ?_⟩
    obtain ⟨e, -⟩ := of_mem_ite hn₂
    cases hnode : w₂.nodes id with
    | none => exact Or.inr rfl
    | some r =>
        rw [e, hnode]
        exact Or.inl ⟨r, List.mem_singleton.mpr rfl, (hc₂.nodes id r hnode).2⟩
  · rintro nodes s₂ w₂ ⟨hlisted, hread⟩
    refine ⟨hlisted.1, fun n hlt hp hk => ?_⟩
    by_contra hne
    have hmem : n ∈ ids := by
      by_contra hnot
      exact hne (hlisted.2 n hlt hnot)
    obtain ⟨found, hsub, -, hfound⟩ := hread n hmem
    rcases hfound hlt with ⟨node, hnode, hprovider⟩ | hnone
    · refine hk (List.mem_map.mpr ⟨(n, node), List.mem_filter.mpr ⟨hsub hnode, ?_⟩, rfl⟩)
      simpa [hprovider] using hp
    · exact hne hnone

/-- The uploads of `B` that satisfy `sel` are all found, or gone. -/
def Covered (B : List UploadPath) (sel : UploadPath → Prop) (found : List UploadPath)
    (w : CloudWorld) : Prop :=
  B ⊆ w.born ∧ ∀ p ∈ B, sel p → p ∈ found ∨ p ∉ w.uploads

theorem covered_lasting (sel : UploadPath → Prop) (found : List UploadPath) :
    Lasting me (Covered B sel found) := by
  rintro w w' ⟨hB, h⟩ hl
  exact ⟨List.Subset.trans hB hl.born, fun p hp hsel =>
    (h p hp hsel).imp_right (hl.uploads p (hB hp))⟩

theorem subset_born_lasting : Lasting me fun w => B ⊆ w.born :=
  fun _ _ h hl => List.Subset.trans h hl.born

/-- A loop over the values of `key` covers what its rounds cover. -/
theorem wp_gather_covered {κ : Type} (key : UploadPath → κ) {keys : List κ}
    {f : κ → LauncherM σ (List UploadPath)} (within : ∀ a, Within Quiet (fun s : σ => s) (f a))
    {sel : UploadPath → Prop}
    (round : ∀ a s w, B ⊆ w.born → (f a).wp (context me)
      (fun found _ w' => Covered B (fun p => sel p ∧ key p = a) found w') (fun _ _ _ => True) s w)
    (h : Covered B (fun p => sel p ∧ key p ∉ keys) [] w) :
    (gather keys f).wp (context me) (fun found _ w' => Covered B sel found w')
      (fun _ _ _ => True) s w := by
  refine Method.wp_mono (Within.wp_gather within (stable_quiet (covered_lasting _ _))
    (fun a found => stable_quiet (covered_lasting (fun p => sel p ∧ key p = a) found))
    (fun a _ s w h => round a s w h.1) h) ?_ fun _ _ _ h => h
  rintro found s' w' ⟨⟨hB, rest⟩, rounds⟩
  refine ⟨hB, fun p hp hsel => ?_⟩
  by_cases hkey : key p ∈ keys
  · obtain ⟨found', hsub, -, hcov⟩ := rounds (key p) hkey
    exact (hcov p hp ⟨hsel, rfl⟩).imp_left fun hmem => hsub hmem
  · exact (rest p hp ⟨hsel, hkey⟩).imp_left fun hmem => absurd hmem List.not_mem_nil

theorem getUploads_wp (image buildId : String) (hB : B ⊆ w.born) :
    (ZooKeeper.getUploads image buildId provider : LauncherM σ _).wp (context me)
      (fun found _ w' => Covered B (fun p => p = ⟨image, buildId, provider, p.number⟩) found w')
      (fun _ _ _ => True) s w := by
  refine wp_bind.mpr (wp_lookup (by trivial) subset_born_lasting hB ?_ fun _ _ _ => trivial)
  intro numbers w₁ hB₁ _ hn
  refine wp_gather_covered (·.number) (fun _ => .bind (.perform (by trivial)) fun _ => .pure) ?_ ?_
  · intro number s w hB
    refine wp_bind.mpr (wp_lookup (by trivial) subset_born_lasting hB ?_ fun _ _ _ => trivial)
    intro data w₂ hB₂ _ hn₂
    obtain ⟨hdata, -⟩ := of_mem_ite hn₂
    refine ⟨hB₂, fun p _ hp => ?_⟩
    obtain ⟨hpath, rfl⟩ := hp
    rw [← hpath] at hdata
    by_cases hmem : p ∈ w₂.uploads
    · exact Or.inl (by rw [if_pos (hdata.mpr hmem), ← hpath]; exact List.mem_singleton_self p)
    · exact Or.inr hmem
  · refine ⟨hB₁, fun p _ hp => Or.inr fun hmem => hp.2 ?_⟩
    obtain ⟨hnumbers, -⟩ := of_mem_ite hn
    have := hp.1
    exact hnumbers p hmem (by rw [this]) (by rw [this]) (by rw [this])

theorem getProviderUploads_wp (hB : B ⊆ w.born) :
    (ZooKeeper.getProviderUploads provider : LauncherM σ _).wp (context me)
      (fun found _ w' => Covered B (fun p => p.provider = provider) found w')
      (fun _ _ _ => True) s w := by
  refine wp_bind.mpr (wp_lookup (by trivial) subset_born_lasting hB ?_ fun _ _ _ => trivial)
  intro images w₁ hB₁ _ hn
  refine wp_gather_covered (·.image) (fun _ => .bind (.perform (by trivial)) fun _ =>
    .gather (fun _ => .bind (.perform (by trivial)) fun _ =>
      .ite (ZooKeeper.getUploads_within quiet_of_readsRecords _ _ _) .pure) _) ?_ ?_
  · intro image s w hB
    refine wp_bind.mpr (wp_lookup (by trivial) subset_born_lasting hB ?_ fun _ _ _ => trivial)
    intro builds w₂ hB₂ _ hn₂
    refine wp_gather_covered (·.buildId) (fun _ => .bind (.perform (by trivial)) fun _ =>
      .ite (ZooKeeper.getUploads_within quiet_of_readsRecords _ _ _) .pure) ?_ ?_
    · intro buildId s w hB
      refine wp_bind.mpr (wp_lookup (by trivial) subset_born_lasting hB ?_ fun _ _ _ => trivial)
      intro providers w₃ hB₃ _ hn₃
      split
      · refine Method.wp_mono (getUploads_wp image buildId hB₃) ?_ fun _ _ _ h => h
        rintro found s' w' ⟨hB', hfound⟩
        refine ⟨hB', fun p hp hsel => hfound p hp ?_⟩
        obtain ⟨⟨hprovider, himage⟩, hbuild⟩ := hsel
        rw [← hprovider, ← himage, ← hbuild]
      · rename_i hnot
        refine ⟨hB₃, fun p _ hsel => Or.inr fun hmem => hnot ?_⟩
        obtain ⟨⟨hprovider, himage⟩, hbuild⟩ := hsel
        obtain ⟨hproviders, -⟩ := of_mem_ite hn₃
        exact hprovider ▸ hproviders p hmem himage hbuild
    · refine ⟨hB₂, fun p _ hsel => Or.inr fun hmem => hsel.2 ?_⟩
      obtain ⟨hbuilds, -⟩ := of_mem_ite hn₂
      exact hbuilds p hmem hsel.1.2
  · refine ⟨hB₁, fun p _ hsel => Or.inr fun hmem => hsel.2 ?_⟩
    obtain ⟨himages, -⟩ := of_mem_ite hn
    exact himages p hmem

/-! ### What a scan deletes -/

/-- What holds while the resources are looked at: of the nodes and the uploads that
the scan began with, those that are not known are gone. -/
structure Scanning (k : Nat) (provider : String) (N : Nat) (B : List UploadPath) (known : Known)
    (newly : Leaks) (w : CloudWorld) : Prop where
  since : Since k provider N B w
  nodes : NodesKnown N provider known.nodes w
  uploads : ∀ p ∈ B, p.provider = provider → (some p.buildId, p.number) ∉ known.uploads →
    p ∉ w.uploads
  newly : Aged w.nextNode w.born provider newly

variable {known : Known} {newly : Leaks}

theorem scanning_lasting : Lasting (.cleanup k provider) (Scanning k provider N B known newly) :=
  fun _ _ h hl =>
  { since := since_lasting _ _ h.since hl
    nodes := nodesKnown_lasting _ _ _ h.nodes hl
    uploads := fun p hp hprovider hk =>
      hl.uploads p (h.since.born hp) (h.uploads p hp hprovider hk)
    newly := h.newly.mono hl.nextNode hl.born }

theorem given_eq_some {text : Option String} {value : String} (h : given text = some value) :
    text = some value ∧ value ≠ "" := by
  unfold given at h
  obtain ⟨htext, hne⟩ := Option.filter_eq_some_iff.mp h
  exact ⟨htext, by simpa using hne⟩

/-- The resource names a node that was remembered and is not known. -/
theorem Scanning.orphaned_node (h : Scanning k provider N B known newly w) {m : Metadata}
    (recorded : w.Recorded m) (hprovider : m.providerName = some provider) {nodeId : String}
    (hid : m.nodeId = some nodeId) (unknown : nodeId ∉ known.nodes)
    (leaked : nodeId ∈ (w.leaks k provider).nodes) : w.Orphaned m := by
  rcases recorded with ⟨n, hn, hm, hup, hp⟩ | ⟨p, _, hm, _⟩
  · obtain ⟨n', hn', rfl⟩ := h.since.leaks.nodes nodeId leaked
    have e : n = n' := sequenceName_injective (Option.some.inj (hm.symm.trans hid))
    subst e
    refine ⟨Or.inl (by rw [hid]; exact Option.some_ne_none _), fun n₂ h₂ => ?_, ?_⟩
    · have e : n = n₂ := sequenceName_injective (Option.some.inj (hid.symm.trans h₂))
      subst e
      exact h.nodes.2 n hn' (hp.symm.trans hprovider) unknown
    · intro p _ _ _
      rw [hup]
      exact (Option.some_ne_none _).symm
  · rw [hid] at hm
    cases hm

/-- The resource names an upload that was remembered and is not known. -/
theorem Scanning.orphaned_upload (h : Scanning k provider N B known newly w)
    (consistent : w.Consistent) {m : Metadata} (recorded : w.Recorded m)
    (hprovider : m.providerName = some provider) {uploadId : String}
    (hid : m.uploadId = some uploadId) (unknown : (m.buildId, uploadId) ∉ known.uploads)
    (leaked : (m.buildId, uploadId) ∈ (w.leaks k provider).uploads) : w.Orphaned m := by
  rcases recorded with ⟨_, _, _, hup, _⟩ | ⟨p, hp, hm, hbuild, hup, hpp⟩
  · rw [hid] at hup
    cases hup
  · obtain ⟨q, hq, hqp, hkey⟩ := h.since.leaks.uploads _ leaked
    obtain ⟨hqb, hqn⟩ := Prod.mk.inj hkey
    refine ⟨Or.inr (by rw [hid]; exact Option.some_ne_none _), fun n hn => ?_, ?_⟩
    · rw [hm] at hn
      cases hn
    · intro u hu hup' hub hun
      have e : u = q := consistent.born_inj (consistent.uploads hu) (h.since.born hq)
        (Option.some.inj (hub.symm.trans hqb))
        (Option.some.inj (hup'.symm.trans (hprovider.trans (congrArg some hqp.symm))))
        (Option.some.inj (hun.symm.trans (hid.trans (congrArg some hqn))))
      subst e
      exact h.uploads u hq hqp (hkey ▸ unknown) hu

theorem deleteLeaked_wp {A : CloudWorld → Prop} (lasting : Lasting (.cleanup k provider) A)
    (h : A w) {r : Resource} (hprovider : r.metadata.providerName = some provider)
    (orphaned : ∀ w, A w → w.Consistent → w.Orphaned r.metadata) :
    (StateMachineProvider.deleteLeaked r : LauncherM σ Unit).wp (context (.cleanup k provider))
      (fun _ _ w' => A w') (fun _ _ _ => True) s w := by
  have after : ∀ reply w₁ w₂, A w₁ → w₁.Consistent →
      w₂ ∈ next (.cleanup k provider) w₁ (.deleteResource r) reply → A w₂ := by
    intro reply w₁ w₂ h₁ hc hn
    have req : Req (.cleanup k provider) w₁ (.deleteResource r) :=
      ⟨k, provider, rfl, hprovider, orphaned w₁ h₁ hc⟩
    exact lasting _ _ h₁ ((next_step hc req hn).2 _ fun _ e => (nomatch e))
  refine wp_tryCatch.mpr (Method.wp_call (fun h hl _ => lasting _ _ h hl) h ?_ ?_ ?_)
  · exact fun w h hc => ⟨k, provider, rfl, hprovider, orphaned w h hc⟩
  · exact fun v w₁ w₂ h₁ hc hs _ => after (.ok v) w₁ w₂ h₁ hc hs.1
  · intro e w₁ w₂ h₁ hc hs _
    exact wp_free (.perform (by trivial)) lasting (after (.error e) w₁ w₂ h₁ hc hs.1)
      fun _ _ _ _ => trivial

/-- The remembered resources are those of the last scan. -/
theorem possiblyLeaked_wp {A : CloudWorld → Prop} (lasting : Lasting (.cleanup k provider) A)
    (h : A w) {Q : Leaks → σ → CloudWorld → Prop}
    (ok : ∀ w', A w' → Q (w'.leaks k provider) s w') :
    (call .possiblyLeaked : LauncherM σ Leaks).wp (context (.cleanup k provider)) Q
      (fun _ _ _ => True) s w := by
  refine wp_lookup (by trivial) lasting h ?_ fun _ _ _ => trivial
  intro leaks w' h' _ hn
  obtain ⟨rfl, -⟩ := of_mem_ite hn
  exact ok w' h'

/-- A scan that has listed a page of resources. -/
def Checking (k : Nat) (provider : String) (N : Nat) (B : List UploadPath) (known : Known)
    (resources : List Resource) (newly : Leaks) (w : CloudWorld) : Prop :=
  Scanning k provider N B known newly w ∧ ∀ r ∈ resources, w.Recorded r.metadata

variable {resources : List Resource} {r : Resource}

theorem checking_lasting :
    Lasting (.cleanup k provider) (Checking k provider N B known resources newly) :=
  fun _ _ h hl => ⟨scanning_lasting _ _ h.1 hl, fun r hr => (h.2 r hr).later hl⟩

theorem checkNode_wp (h : Checking k provider N B known resources newly w) (hr : r ∈ resources)
    (hprovider : r.metadata.providerName = some provider) :
    (StateMachineProvider.checkNode known newly r : LauncherM σ Leaks).wp
      (context (.cleanup k provider))
      (fun newly' _ w' => Checking k provider N B known resources newly' w')
      (fun _ _ _ => True) s w := by
  unfold StateMachineProvider.checkNode
  split
  · exact h
  · rename_i nodeId hgiven
    obtain ⟨hid, _⟩ := given_eq_some hgiven
    split
    · exact h
    · rename_i unknown
      refine wp_bind.mpr (possiblyLeaked_wp checking_lasting h fun w₁ h₁ => ?_)
      have insert : ∀ w, Checking k provider N B known resources newly w →
          Checking k provider N B known resources
            { newly with nodes := newly.nodes.insert nodeId r } w := by
        rintro w ⟨hscan, hrec⟩
        refine ⟨{ hscan with newly := ⟨fun key hkey => ?_, hscan.newly.uploads⟩ }, hrec⟩
        rcases (AList.mem_insert _).mp hkey with rfl | hkey
        · rcases hrec r hr with ⟨n, hn, hm, _⟩ | ⟨_, _, hm, _⟩
          · exact ⟨n, hn, Option.some.inj (hid.symm.trans hm)⟩
          · rw [hid] at hm
            cases hm
        · exact hscan.newly.nodes key hkey
      unfold Nodepool.when
      split
      · rename_i leaked
        refine wp_bind.mpr (Method.wp_mono (deleteLeaked_wp
          (A := fun w => Checking k provider N B known resources newly w ∧
            nodeId ∈ (w.leaks k provider).nodes) ?_ ⟨h₁, leaked⟩ hprovider ?_) ?_ fun _ _ _ h => h)
        · exact fun _ _ h hl => ⟨checking_lasting _ _ h.1 hl, by
            rw [hl.leaks k provider rfl]; exact h.2⟩
        · exact fun w h _ => h.1.1.orphaned_node (h.1.2 r hr) hprovider hid unknown h.2
        · exact fun _ _ w h => insert w h.1
      · exact insert w₁ h₁

theorem checkUpload_wp (h : Checking k provider N B known resources newly w) (hr : r ∈ resources)
    (hprovider : r.metadata.providerName = some provider) :
    (StateMachineProvider.checkUpload known newly r : LauncherM σ Leaks).wp
      (context (.cleanup k provider))
      (fun newly' _ w' => Checking k provider N B known resources newly' w')
      (fun _ _ _ => True) s w := by
  unfold StateMachineProvider.checkUpload
  split
  · exact h
  · rename_i uploadId hgiven
    obtain ⟨hid, _⟩ := given_eq_some hgiven
    dsimp only
    split
    · exact h
    · rename_i unknown
      refine wp_bind.mpr (possiblyLeaked_wp checking_lasting h fun w₁ h₁ => ?_)
      have insert : ∀ w, Checking k provider N B known resources newly w →
          Checking k provider N B known resources
            { newly with uploads := newly.uploads.insert (r.metadata.buildId, uploadId) r } w := by
        rintro w ⟨hscan, hrec⟩
        refine ⟨{ hscan with newly := ⟨hscan.newly.nodes, fun key hkey => ?_⟩ }, hrec⟩
        rcases (AList.mem_insert _).mp hkey with rfl | hkey
        · rcases hrec r hr with ⟨_, _, _, hup, _⟩ | ⟨p, hp, _, hbuild, hup, hpp⟩
          · rw [hid] at hup
            cases hup
          · refine ⟨p, hp, Option.some.inj (hpp.symm.trans hprovider), ?_⟩
            rw [hbuild, Option.some.inj (hid.symm.trans hup)]
        · exact hscan.newly.uploads key hkey
      unfold Nodepool.when
      split
      · rename_i leaked
        refine wp_bind.mpr (Method.wp_mono (deleteLeaked_wp
          (A := fun w => Checking k provider N B known resources newly w ∧
            (r.metadata.buildId, uploadId) ∈ (w.leaks k provider).uploads) ?_ ⟨h₁, leaked⟩
          hprovider ?_) ?_ fun _ _ _ h => h)
        · exact fun _ _ h hl => ⟨checking_lasting _ _ h.1 hl, by
            rw [hl.leaks k provider rfl]; exact h.2⟩
        · exact fun w h hc => h.1.1.orphaned_upload hc (h.1.2 r hr) hprovider hid unknown h.2
        · exact fun _ _ w h => insert w h.1
      · exact insert w₁ h₁

theorem checkResource_wp (h : Checking k provider N B known resources newly w)
    (hr : r ∈ resources) :
    (StateMachineProvider.checkResource provider known newly r : LauncherM σ Leaks).wp
      (context (.cleanup k provider))
      (fun newly' _ w' => Checking k provider N B known resources newly' w')
      (fun _ _ _ => True) s w := by
  unfold StateMachineProvider.checkResource
  split
  · exact h
  · rename_i hprovider
    have hprovider := not_not.mp hprovider
    exact wp_bind.mpr (Method.wp_mono (checkNode_wp h hr hprovider)
      (fun _ _ _ h' => checkUpload_wp h' hr hprovider) fun _ _ _ h => h)

theorem checkPage_wp (h : Scanning k provider N B known newly w) (page : Nat) :
    (StateMachineProvider.checkPage provider known newly page : LauncherM σ Leaks).wp
      (context (.cleanup k provider))
      (fun newly' _ w' => Scanning k provider N B known newly' w') (fun _ _ _ => True) s w := by
  refine wp_bind.mpr (wp_lookup (by trivial) scanning_lasting h ?_ fun _ _ _ => trivial)
  intro resources w₁ h₁ hc₁ hn
  have recorded : ∀ r ∈ resources, w₁.Recorded r.metadata := by
    intro r hr
    obtain ⟨hsub, -⟩ := of_mem_ite hn
    exact hc₁.given _ (hc₁.resources r (hsub r hr))
  refine Method.wp_mono (Method.wp_fold
    (J := fun newly _ w => Checking k provider N B known resources newly w)
    (E := fun _ _ _ => True) ?_ ⟨h₁, recorded⟩) (fun _ _ _ h => h.1) fun _ _ _ _ => trivial
  exact fun r hr newly s w h => checkResource_wp h hr

/-- What the scan reads before it lists the resources. -/
theorem scanning_wp (h : Since k provider N B w) {f : Known → LauncherM σ Unit}
    (hf : ∀ known s w, Scanning k provider N B known .empty w →
      Respects (.cleanup k provider) (f known) s w) :
    Respects (.cleanup k provider) (do
      let nodes ← StateMachineProvider.knownNodes provider
      let uploads ← StateMachineProvider.knownUploads provider
      f ⟨nodes, uploads⟩ : LauncherM σ Unit) s w := by
  refine wp_bind.mpr (Method.wp_mono (wp_and (knownNodes_wp h.nextNode)
    ((StateMachineProvider.knownNodes_within (π := id) quiet_of_readsRecords provider).wp
      (stable_quiet since_lasting) h)) ?_ fun _ _ _ _ => trivial)
  rintro nodes s₁ w₁ ⟨hnodes, -, h₁⟩
  have lasting : Lasting (.cleanup k provider) fun w =>
      Since k provider N B w ∧ NodesKnown N provider nodes w :=
    fun _ _ h hl => ⟨since_lasting _ _ h.1 hl, nodesKnown_lasting nodes _ _ h.2 hl⟩
  refine wp_bind.mpr (wp_bind.mpr (Method.wp_mono (wp_and (getProviderUploads_wp (s := s₁) h₁.born)
    ((ZooKeeper.getProviderUploads_within (π := id) quiet_of_readsRecords provider).wp
      (stable_quiet lasting) ⟨h₁, hnodes⟩)) ?_
    fun _ _ _ _ => trivial))
  rintro found s₂ w₂ ⟨⟨_, covered⟩, -, h₂, hnodes₂⟩
  refine hf _ s₂ w₂ ⟨h₂, hnodes₂, fun p hp hprovider unknown => ?_, .empty⟩
  rcases covered p hp hprovider with hmem | hgone
  · exact absurd (List.mem_map.mpr ⟨p, hmem, rfl⟩) unknown
  · exact hgone

theorem cleanupLeakedResources_respects (hc : w.Consistent) :
    Respects (.cleanup k provider)
      (StateMachineProvider.cleanupLeakedResources provider : LauncherM σ Unit) s w := by
  have since : Since k provider w.nextNode w.born w :=
    ⟨le_rfl, List.Subset.refl _, hc.leaks k provider⟩
  refine scanning_wp (f := fun known => do
    let pages ← call .listResources
    let newly ← fold (StateMachineProvider.checkPage provider known) pages Leaks.empty
    call (.assignPossiblyLeaked newly)) since fun known s₁ w₁ h₁ => ?_
  refine wp_bind.mpr (wp_lookup (by trivial) scanning_lasting h₁ ?_ fun _ _ _ => trivial)
  intro pages w₂ h₂ _ _
  refine wp_bind.mpr (Method.wp_mono (Method.wp_fold
    (J := fun newly _ w' => Scanning k provider w.nextNode w.born known newly w')
    (E := fun _ _ _ => True) ?_ h₂) ?_ fun _ _ _ _ => trivial)
  · exact fun page _ newly s w h => checkPage_wp h page
  · intro newly s₃ w₃ h₃
    exact Method.wp_call (fun h hl _ => scanning_lasting _ _ h hl) h₃
      (fun _ h _ => ⟨k, provider, rfl, h.newly⟩) (fun _ _ _ _ _ _ _ => trivial)
      fun _ _ _ _ _ _ _ => trivial

end Scan

/-! ### Every run -/

def outline : Outline cloudSystem (System.always cloudSystem) where
  inv := Consistent
  rely := Later
  req := Req
  linv _ _ _ := True
  rely_refl := Later.refl
  rely_trans _ _ _ _ := Later.trans
  linv_stable _ _ _ _ _ _ _ := trivial
  entry i op s w _ enabled hinv _ := by
    cases i with
    | cleanup k provider =>
      exact wp_toBody_of_respects (fun _ s => s) (cleanupLeakedResources_respects hinv)
    | launcher k =>
        cases op with
        | launchNode node handler poolName retries =>
            exact wp_toBody_of_respects (fun _ s => s)
              (storeAndLaunch_respects handler poolName retries enabled)
        | startStateMachine l =>
          exact wp_toBody_of_respects (fun _ s => s) (startStateMachine_respects l)
        | launch l => exact wp_toBody_of_respects (fun _ s => s) (launch_respects l)
    | uploader k =>
        obtain ⟨provider, image⟩ := op
        exact wp_toBody_of_respects (fun _ s => s)
          (checkProviderImageUpload_respects provider image)
  call_inv _ _ _ _ _ hinv hreq _ hn := (next_step hinv hreq hn).1
  call_rely i j _ _ _ _ hij hinv hreq _ hn :=
    (next_step hinv hreq hn).2 j fun _ _ => Ne.symm hij
  env_inv hinv henv := (henv.step hinv).1
  env_rely j _ _ hinv henv := (henv.step hinv).2 j

/-- **Only orphaned resources are deleted.** Whatever scans, launches, uploads and
deletions are under way, a resource that is passed to `deleteResource` has the
provider of the scanner in its metadata, and the node or the upload that it names
is stored no longer. -/
theorem deleteResource_orphaned {init cfg cfg' : Config cloudSystem} (start : Initial init)
    (run : cloudSystem.Run (System.always cloudSystem) init cfg) {i : CloudThread} {r : Resource}
    {reply : LauncherSig.Reply (.deleteResource r)}
    (step : cloudSystem.Step cfg (.call i (.deleteResource r) reply) cfg') :
    ∃ k provider, i = .cleanup k provider ∧ r.metadata.providerName = some provider ∧
      cfg.world.Orphaned r.metadata := by
  have safe : outline.Safe init := Outline.Safe.of_idle start.consistent fun i =>
    ⟨(), start.idle i, trivial⟩
  cases step with
  | call _ _ next _ => exact (outline.sound safe run).req next

/-- An instance of a node that was stored and is deleted. -/
def leakedResource : Resource where
  metadata := { Metadata.empty with
    nodeId := some (sequenceName 0)
    poolName := some "main"
    providerName := some "cloud" }
  type := .typeInstance
  name := "np0000000000"
  id := "instance-1"

def leakedInit : Config cloudSystem where
  world :=
    { nodes := fun _ => none
      nextNode := 1
      providerOf := fun _ => some "cloud"
      objects := fun _ => ⟨none, ⟨.init, 0, [], none, none, none, none, none, none, none, none⟩,
        false, false, false⟩
      nextObject := 0
      launchers := fun _ => StateMachineNodeLauncher.init 0 (.own 0) "cloud" "main" 3
      nextLauncher := 0
      builds := []
      uploads := []
      born := []
      given := [leakedResource.metadata]
      resources := [leakedResource]
      leaks := fun _ _ => Leaks.empty }
  thread _ := .pure ()

theorem leakedInit_initial : Initial leakedInit where
  consistent :=
    { nodes := fun _ _ h => nomatch h
      objects := fun _ _ h => nomatch h
      launchers := fun _ h => absurd h (Nat.not_lt_zero _)
      builds := fun _ h => absurd h List.not_mem_nil
      uploads := List.Subset.refl _
      born := fun _ h => absurd h List.not_mem_nil
      given := by
        intro m hm
        obtain rfl := List.mem_singleton.mp hm
        exact Or.inl ⟨0, Nat.zero_lt_one, rfl, rfl, rfl⟩
      resources := by
        intro r hr
        obtain rfl := List.mem_singleton.mp hr
        exact List.mem_singleton_self _
      leaks := fun _ _ => .empty }
  leaks _ _ := rfl
  idle _ := rfl

/-- Answers for a scan that lists the one resource, and remembers what it is given. -/
def leakedAnswer (leaks : Leaks) : (c : Call) → LauncherSig.Reply c
  | .getNodeIds => .ok []
  | .getImageNames => .ok []
  | .listResources => .ok [0]
  | .listPage _ => .ok [leakedResource]
  | .possiblyLeaked => .ok leaks
  | .assignPossiblyLeaked _ => .ok ()
  | .deleteResource _ => .ok ()
  | _ => .error .other

def leakedOnce : Leaks := ⟨(∅ : Dict _ _).insert (sequenceName 0) leakedResource, ∅⟩

/-- One scan, and a second one up to the call that deletes the resource. -/
def leakedSchedule : List (System.Action cloudSystem) :=
  .start (.cleanup 0 "cloud") () ::
    List.replicate 6 (.reply (.cleanup 0 "cloud") (leakedAnswer .empty) 0) ++
    .start (.cleanup 0 "cloud") () ::
    List.replicate 5 (.reply (.cleanup 0 "cloud") (leakedAnswer leakedOnce) 0)

theorem leakedSchedule_deletes : ∃ cfg cfg' reply,
    System.exec (fun _ _ => true) leakedInit leakedSchedule = some cfg ∧
      cloudSystem.Step cfg (.call (.cleanup 0 "cloud") (.deleteResource leakedResource) reply)
        cfg' :=
  ⟨_, _, .ok (), rfl, .call _ _ rfl List.mem_cons_self⟩

/-- The second scan deletes the resource, whose node is gone. -/
theorem deleteResource_orphaned_leakedSchedule :
    ∃ cfg, System.exec (fun _ _ => true) leakedInit leakedSchedule = some cfg ∧
      cfg.world.Orphaned leakedResource.metadata := by
  obtain ⟨cfg, cfg', reply, run, step⟩ := leakedSchedule_deletes
  obtain ⟨_, _, _, _, h⟩ := deleteResource_orphaned leakedInit_initial
    (System.exec_run _ (fun _ _ _ => trivial) run) step
  exact ⟨cfg, run, h⟩

end CloudSystem

end Nodepool
