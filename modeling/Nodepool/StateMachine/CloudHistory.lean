import Nodepool.StateMachine.CloudSystem

/-!
What every step of the cloud system preserves. Records that are gone stay gone,
since no identifier is given twice; all metadata in the cloud belongs to a node or
an upload whose record was stored before; and what a scanner remembers was stored
before its last scan ended.
-/

namespace Nodepool

open Effect Method

namespace CloudWorld

/-- The metadata of a node or of an upload whose record was stored at some time. -/
def Recorded (w : CloudWorld) (m : Metadata) : Prop :=
  (∃ n < w.nextNode, m.nodeId = some (sequenceName n) ∧ m.uploadId = none ∧
    m.providerName = w.providerOf n) ∨
  ∃ p ∈ w.born, m.nodeId = none ∧ m.buildId = some p.buildId ∧ m.uploadId = some p.number ∧
    m.providerName = some p.provider

/-- The node of the launcher was stored, with the provider of the launcher. -/
def Launchable (w : CloudWorld) (l : NodeLauncher) : Prop :=
  ∃ n < w.nextObject, l.node = .own n ∧ (w.objects (.own n)).id ≠ none ∧
    (w.objects (.own n)).node.provider = some l.providerName

/-- The nodes and uploads among the first `N` numbers and the paths `B` are all that
a scanner of the provider remembers. -/
structure Aged (N : NodeId) (B : List UploadPath) (provider : String) (leaks : Leaks) : Prop where
  nodes : ∀ key ∈ leaks.nodes, ∃ n < N, key = sequenceName n
  uploads : ∀ key ∈ leaks.uploads, ∃ p ∈ B, p.provider = provider ∧
    key = (some p.buildId, p.number)

theorem Aged.mono {N N' : NodeId} {B B' : List UploadPath} {provider : String} {leaks : Leaks}
    (h : Aged N B provider leaks) (hN : N ≤ N') (hB : B ⊆ B') : Aged N' B' provider leaks where
  nodes key hk := by
    obtain ⟨n, hn, e⟩ := h.nodes key hk
    exact ⟨n, hn.trans_le hN, e⟩
  uploads key hk := by
    obtain ⟨p, hp, e⟩ := h.uploads key hk
    exact ⟨p, hB hp, e⟩

theorem Aged.empty {N : NodeId} {B : List UploadPath} {provider : String} :
    Aged N B provider Leaks.empty :=
  ⟨fun _ h => absurd h (AList.notMem_empty _), fun _ h => absurd h (AList.notMem_empty _)⟩

structure Consistent (w : CloudWorld) : Prop where
  nodes : ∀ n node, w.nodes n = some node → n < w.nextNode ∧ node.provider = w.providerOf n
  objects : ∀ o n, (w.objects o).id = some n → n < w.nextNode ∧
    (w.objects o).node.provider = w.providerOf n
  launchers : ∀ l < w.nextLauncher, w.Launchable (w.launchers l)
  builds : ∀ b ∈ w.builds, ∀ b' ∈ w.builds, b.2 = b'.2 → b = b'
  uploads : w.uploads ⊆ w.born
  born : ∀ p ∈ w.born, (p.image, p.buildId) ∈ w.builds ∧ p.number ≠ ""
  given : ∀ m ∈ w.given, w.Recorded m
  resources : ∀ r ∈ w.resources, r.metadata ∈ w.given
  leaks : ∀ k provider, Aged w.nextNode w.born provider (w.leaks k provider)

/-- The record of a path is determined by its build, its provider and its number. -/
theorem Consistent.born_inj {w : CloudWorld} (h : w.Consistent) {p q : UploadPath}
    (hp : p ∈ w.born) (hq : q ∈ w.born) (build : p.buildId = q.buildId)
    (provider : p.provider = q.provider) (number : p.number = q.number) : p = q := by
  have image := h.builds _ (h.born p hp).1 _ (h.born q hq).1 build
  cases p
  cases q
  simp_all

/-- What `me` can rely on while the others work. -/
structure Later (me : CloudThread) (w w' : CloudWorld) : Prop where
  nextNode : w.nextNode ≤ w'.nextNode
  providerOf : ∀ n < w.nextNode, w'.providerOf n = w.providerOf n
  nodes : ∀ n < w.nextNode, w.nodes n = none → w'.nodes n = none
  nextObject : w.nextObject ≤ w'.nextObject
  objects : ∀ n < w.nextObject,
    (w'.objects (.own n)).node.provider = (w.objects (.own n)).node.provider ∧
    ((w.objects (.own n)).id ≠ none → (w'.objects (.own n)).id ≠ none)
  nextLauncher : w.nextLauncher ≤ w'.nextLauncher
  builds : w.builds ⊆ w'.builds
  born : w.born ⊆ w'.born
  uploads : ∀ p ∈ w.born, p ∉ w.uploads → p ∉ w'.uploads
  leaks : ∀ k provider, me = .cleanup k provider → w'.leaks k provider = w.leaks k provider

theorem Later.refl (me : CloudThread) (w : CloudWorld) : Later me w w where
  nextNode := le_rfl
  providerOf _ _ := rfl
  nodes _ _ h := h
  nextObject := le_rfl
  objects _ _ := ⟨rfl, id⟩
  nextLauncher := le_rfl
  builds := List.Subset.refl _
  born := List.Subset.refl _
  uploads _ _ h := h
  leaks _ _ _ := rfl

theorem Later.trans {me : CloudThread} {a b c : CloudWorld} (h : Later me a b)
    (h' : Later me b c) : Later me a c where
  nextNode := h.nextNode.trans h'.nextNode
  providerOf n hn := (h'.providerOf n (hn.trans_le h.nextNode)).trans (h.providerOf n hn)
  nodes n hn hnone := h'.nodes n (hn.trans_le h.nextNode) (h.nodes n hn hnone)
  nextObject := h.nextObject.trans h'.nextObject
  objects n hn := by
    obtain ⟨hp, hid⟩ := h.objects n hn
    obtain ⟨hp', hid'⟩ := h'.objects n (hn.trans_le h.nextObject)
    exact ⟨hp'.trans hp, fun hne => hid' (hid hne)⟩
  nextLauncher := h.nextLauncher.trans h'.nextLauncher
  builds := List.Subset.trans h.builds h'.builds
  born := List.Subset.trans h.born h'.born
  uploads p hp hgone := h'.uploads p (h.born hp) (h.uploads p hp hgone)
  leaks k provider hme := (h'.leaks k provider hme).trans (h.leaks k provider hme)

theorem Recorded.later {me : CloudThread} {w w' : CloudWorld} {m : Metadata} (h : w.Recorded m)
    (hl : Later me w w') : w'.Recorded m := by
  rcases h with ⟨n, hn, hid, hup, hp⟩ | ⟨p, hp, rest⟩
  · exact Or.inl ⟨n, hn.trans_le hl.nextNode, hid, hup, hp.trans (hl.providerOf n hn).symm⟩
  · exact Or.inr ⟨p, hl.born hp, rest⟩

theorem Launchable.later {me : CloudThread} {w w' : CloudWorld} {l : NodeLauncher}
    (h : w.Launchable l) (hl : Later me w w') : w'.Launchable l := by
  obtain ⟨n, hn, hnode, hid, hp⟩ := h
  obtain ⟨hp', hid'⟩ := hl.objects n hn
  exact ⟨n, hn.trans_le hl.nextObject, hnode, hid' hid, hp'.trans hp⟩

/-- No record that the metadata names is stored. -/
structure Orphaned (w : CloudWorld) (m : Metadata) : Prop where
  named : m.nodeId ≠ none ∨ m.uploadId ≠ none
  node : ∀ n, m.nodeId = some (sequenceName n) → w.nodes n = none
  upload : ∀ p ∈ w.uploads, m.providerName = some p.provider → m.buildId = some p.buildId →
    m.uploadId ≠ some p.number

/-- What a thread must respect when it makes a call. -/
def Req (me : CloudThread) (w : CloudWorld) : Call → Prop
  | .newLauncher launcher => w.Launchable launcher
  | .getCreateStateMachine _ _ _ _ m => w.Recorded m
  | .uploadImage _ _ m => w.Recorded m
  | .createImageUpload image buildId _ _ => (image, buildId) ∈ w.builds
  | .deleteResource r => ∃ k provider, me = .cleanup k provider ∧
      r.metadata.providerName = some provider ∧ w.Orphaned r.metadata
  | .assignPossiblyLeaked leaks => ∃ k provider, me = .cleanup k provider ∧
      Aged w.nextNode w.born provider leaks
  | _ => True

/-- The calls that change nothing in this world. -/
def Quiet : Call → Prop
  | .newNode _ | .assignNode _ _ | .createNode _ | .setNode _ | .createImageUpload _ _ _ _
  | .newLauncher _ | .assignLauncher _ _ | .getCreateStateMachine _ _ _ _ _ | .uploadImage _ _ _
  | .deleteResource _ | .assignPossiblyLeaked _ => False
  | _ => True

/-! ### One step -/

/-- A step that stores or changes the record of a node, and keeps the rest. -/
theorem Consistent.setNode {w : CloudWorld} (h : w.Consistent) (id : NodeId) {node : Option Node}
    (hn : ∀ r, node = some r → w.nodes id ≠ none ∧ r.provider = w.providerOf id) :
    (w.setNode id node).Consistent :=
  { h with
    nodes := by
      intro n r hr
      simp only [setNode_nodes] at hr
      by_cases e : n = id
      · subst e
        rw [Function.update_self] at hr
        obtain ⟨hold, hp⟩ := hn r hr
        obtain ⟨old, hold⟩ := Option.ne_none_iff_exists'.mp hold
        exact ⟨(h.nodes n old hold).1, hp⟩
      · rw [Function.update_of_ne e] at hr
        exact h.nodes n r hr }

theorem Later.setNode (me : CloudThread) {w : CloudWorld} (id : NodeId) {node : Option Node}
    (hn : ∀ r, node = some r → w.nodes id ≠ none) : Later me w (w.setNode id node) :=
  { Later.refl me w with
    nodes := by
      intro n _ hnone
      simp only [setNode_nodes]
      by_cases e : n = id
      · subst e
        rw [Function.update_self]
        exact Option.eq_none_iff_forall_ne_some.mpr fun r hr => hn r hr hnone
      · rw [Function.update_of_ne e]
        exact hnone }

theorem Later.addNode (me : CloudThread) {w : CloudWorld} (node : Node) :
    Later me w (w.addNode node) :=
  { Later.refl me w with
    nextNode := Nat.le_succ _
    providerOf := fun n hn => by
      simp only [addNode_providerOf]
      rw [Function.update_of_ne (Nat.ne_of_lt hn)]
    nodes := fun n hn hnone => by
      simp only [addNode_nodes]
      rw [Function.update_of_ne (Nat.ne_of_lt hn)]
      exact hnone }

theorem Consistent.addNode {w : CloudWorld} (h : w.Consistent) (node : Node) :
    (w.addNode node).Consistent := by
  have later := Later.addNode (.launcher 0) (w := w) node
  exact
  { h with
    nodes := by
      intro n r hr
      simp only [addNode_nodes] at hr
      by_cases e : n = w.nextNode
      · subst e
        rw [Function.update_self, Option.some.injEq] at hr
        subst hr
        exact ⟨Nat.lt_succ_self _, by simp⟩
      · rw [Function.update_of_ne e] at hr
        obtain ⟨hlt, hp⟩ := h.nodes n r hr
        exact ⟨Nat.lt_succ_of_lt hlt, hp.trans (later.providerOf n hlt).symm⟩
    objects := by
      intro o n hid
      obtain ⟨hlt, hp⟩ := h.objects o n hid
      exact ⟨Nat.lt_succ_of_lt hlt, hp.trans (later.providerOf n hlt).symm⟩
    given := fun m hm => (h.given m hm).later later
    leaks := fun k provider => (h.leaks k provider).mono later.nextNode later.born }

theorem Later.addUpload (me : CloudThread) {w : CloudWorld} {path : UploadPath}
    (fresh : path ∉ w.born) : Later me w (w.addUpload path) :=
  { Later.refl me w with
    born := List.subset_cons_self _ _
    uploads := fun p hp hgone => by
      simp only [addUpload_uploads, List.mem_cons, not_or]
      exact ⟨fun e => fresh (e ▸ hp), hgone⟩ }

theorem Consistent.addUpload {w : CloudWorld} (h : w.Consistent) {path : UploadPath}
    (fresh : path ∉ w.born) (build : (path.image, path.buildId) ∈ w.builds)
    (number : path.number ≠ "") : (w.addUpload path).Consistent := by
  have later := Later.addUpload (.launcher 0) fresh
  exact
  { h with
    uploads := List.cons_subset_cons path h.uploads
    born := List.forall_mem_cons.mpr ⟨⟨build, number⟩, h.born⟩
    given := fun m hm => (h.given m hm).later later
    leaks := fun k provider => (h.leaks k provider).mono later.nextNode later.born }

/-- Attributes of a node object are assigned, but not its number. -/
theorem Later.assignNode (me : CloudThread) {w : CloudWorld} (o : NodeRef) (a : NodeAttr) :
    Later me w (w.setObject o ((w.objects o).assign a)) :=
  { Later.refl me w with
    objects := by
      intro n _
      simp only [setObject_objects]
      by_cases e : .own n = o
      · subst e
        rw [Function.update_self]
        cases a <;> exact ⟨rfl, id⟩
      · rw [Function.update_of_ne e]
        exact ⟨rfl, id⟩ }

theorem Consistent.assignNode {w : CloudWorld} (h : w.Consistent) (o : NodeRef) (a : NodeAttr) :
    (w.setObject o ((w.objects o).assign a)).Consistent := by
  have later := Later.assignNode (.launcher 0) (w := w) o a
  exact
  { h with
    objects := by
      intro o' n hid
      simp only [setObject_objects] at hid ⊢
      by_cases e : o' = o
      · subst e
        rw [Function.update_self] at hid ⊢
        have := h.objects o' n
        cases a <;> exact this hid
      · rw [Function.update_of_ne e] at hid ⊢
        exact h.objects o' n hid
    launchers := fun l hl => (h.launchers l hl).later later }

/-- A node object gets the number of the node that was just stored from it. -/
theorem Later.createNode (me : CloudThread) {w : CloudWorld} (o : NodeRef) :
    Later me w ((w.addNode (w.objects o).node).setObject o
      { w.objects o with id := some w.nextNode }) := by
  refine (Later.addNode me (w.objects o).node).trans { Later.refl me _ with objects := ?_ }
  intro n _
  simp only [setObject_objects, addNode_objects]
  by_cases e : .own n = o
  · subst e
    rw [Function.update_self]
    exact ⟨rfl, fun _ => Option.some_ne_none _⟩
  · rw [Function.update_of_ne e]
    exact ⟨rfl, id⟩

theorem Consistent.createNode {w : CloudWorld} (h : w.Consistent) (o : NodeRef) :
    ((w.addNode (w.objects o).node).setObject o
      { w.objects o with id := some w.nextNode }).Consistent := by
  have later := Later.createNode (.launcher 0) (w := w) o
  have h' := h.addNode (w.objects o).node
  exact
  { h' with
    objects := by
      intro o' n hid
      simp only [setObject_objects, addNode_objects] at hid ⊢
      by_cases e : o' = o
      · subst e
        rw [Function.update_self, Option.some.injEq] at hid
        subst hid
        rw [Function.update_self]
        exact ⟨Nat.lt_succ_self _, by simp⟩
      · rw [Function.update_of_ne e] at hid ⊢
        exact h'.objects o' n hid
    launchers := fun l hl => (h.launchers l hl).later later }

theorem Later.newNode (me : CloudThread) {w : CloudWorld} (object : NodeObject) :
    Later me w { w.setObject (.own w.nextObject) object with nextObject := w.nextObject + 1 } :=
  { Later.refl me w with
    nextObject := Nat.le_succ _
    objects := by
      intro n hn
      have e : NodeRef.own n ≠ .own w.nextObject := fun e => absurd (NodeRef.own.inj e) hn.ne
      simp only [setObject_objects]
      rw [Function.update_of_ne e]
      exact ⟨rfl, id⟩ }

theorem Consistent.newNode {w : CloudWorld} (h : w.Consistent) (node : Node) :
    CloudWorld.Consistent { w.setObject (.own w.nextObject) ⟨none, node, false, false, false⟩ with
      nextObject := w.nextObject + 1 } := by
  have later := Later.newNode (.launcher 0) (w := w) ⟨none, node, false, false, false⟩
  exact
  { h with
    objects := by
      intro o n hid
      simp only [setObject_objects] at hid ⊢
      by_cases e : o = .own w.nextObject
      · subst e
        rw [Function.update_self] at hid
        cases hid
      · rw [Function.update_of_ne e] at hid ⊢
        exact h.objects o n hid
    launchers := fun l hl => (h.launchers l hl).later later }

theorem Consistent.stored {w w' : CloudWorld} (h : w.Consistent) {o : NodeRef}
    (hn : w' ∈ w.stored o) : w'.Consistent ∧ ∀ j, Later j w w' := by
  unfold CloudWorld.stored at hn
  split at hn
  · cases hn
  · rename_i id hid
    split at hn
    · cases hn
    · rename_i hex
      obtain rfl := List.mem_singleton.mp hn
      refine ⟨h.setNode id fun r hr => ⟨hex, ?_⟩, fun j => Later.setNode j id fun _ _ => hex⟩
      cases hr
      exact (h.objects o id hid).2

theorem Consistent.newLauncher {w : CloudWorld} (h : w.Consistent) {launcher : NodeLauncher}
    (hl : w.Launchable launcher) :
    CloudWorld.Consistent { w with
      launchers := Function.update w.launchers w.nextLauncher launcher
      nextLauncher := w.nextLauncher + 1 } :=
  { h with
    launchers := by
      intro l hlt
      change w.Launchable (Function.update w.launchers w.nextLauncher launcher l)
      by_cases e : l = w.nextLauncher
      · rw [e, Function.update_self]
        exact hl
      · rw [Function.update_of_ne e]
        exact h.launchers l (by have : l < w.nextLauncher + 1 := hlt; omega) }

theorem Consistent.assignLauncher {w : CloudWorld} (h : w.Consistent) (l : Nat)
    (a : LauncherAttr) :
    CloudWorld.Consistent { w with
      launchers := Function.update w.launchers l ((w.launchers l).assign a) } :=
  { h with
    launchers := by
      intro l' hlt
      change w.Launchable (Function.update w.launchers l ((w.launchers l).assign a) l')
      by_cases e : l' = l
      · subst e
        rw [Function.update_self]
        obtain ⟨n, hn, hnode, rest⟩ := h.launchers l' hlt
        exact ⟨n, hn, by rw [NodeLauncher.assign_node, hnode], by
          rw [NodeLauncher.assign_providerName]; exact rest⟩
      · rw [Function.update_of_ne e]
        exact h.launchers l' hlt }

theorem Consistent.give {w w' : CloudWorld} (h : w.Consistent) {m : Metadata}
    (hm : w.Recorded m) (hn : w' ∈ [w, w.give m]) {P : CloudThread → Prop} :
    w'.Consistent ∧ ∀ j, P j → Later j w w' := by
  have cases_ : w' = w ∨ w' = w.give m := by simpa using hn
  rcases cases_ with rfl | rfl
  · exact ⟨h, fun j _ => Later.refl j _⟩
  · refine ⟨{ h with
      given := List.forall_mem_cons.mpr ⟨hm, h.given⟩
      resources := fun r hr => List.mem_cons_of_mem m (h.resources r hr) }, fun j _ => ?_⟩
    exact { Later.refl j w with }

theorem Consistent.remove {w : CloudWorld} (h : w.Consistent) (r : Resource) :
    (w.remove r).Consistent :=
  { h with resources := fun r' hr' => h.resources r' (List.mem_of_mem_filter hr') }

theorem Consistent.setLeaks {w : CloudWorld} (h : w.Consistent) {k : Nat} {provider : String}
    {leaks : Leaks} (aged : Aged w.nextNode w.born provider leaks) :
    (w.setLeaks k provider leaks).Consistent :=
  { h with
    leaks := by
      intro k' provider'
      simp only [setLeaks_leaks]
      by_cases e : k' = k
      · subst e
        rw [Function.update_self]
        by_cases e' : provider' = provider
        · subst e'
          rw [Function.update_self]
          exact aged
        · rw [Function.update_of_ne e']
          exact h.leaks k' provider'
      · rw [Function.update_of_ne e]
        exact h.leaks k' provider' }

theorem Later.setLeaks {j : CloudThread} {w : CloudWorld} {k : Nat} {provider : String}
    {leaks : Leaks} (hj : j ≠ .cleanup k provider) : Later j w (w.setLeaks k provider leaks) :=
  { Later.refl j w with
    leaks := by
      rintro k' provider' rfl
      simp only [setLeaks_leaks]
      by_cases e : k' = k
      · subst e
        rw [Function.update_self, Function.update_of_ne]
        exact fun e' => hj (e' ▸ rfl)
      · rw [Function.update_of_ne e] }

theorem next_quiet {me : CloudThread} {w w' : CloudWorld} {c : Call} {r : LauncherSig.Reply c}
    (hc : Quiet c) (hn : w' ∈ next me w c r) : w' = w := by
  cases c <;> cases r <;> first | exact absurd hc id | skip
  all_goals
    simp only [next] at hn
    first
      | exact List.mem_singleton.mp hn
      | cases hn
      | (split at hn
         · exact List.mem_singleton.mp hn
         · cases hn)
      | (split at hn
         · split at hn
           · exact List.mem_singleton.mp hn
           · cases hn
         · cases hn)

/-- **Step lemma.** A call that respects `Req` keeps the world consistent, and every
thread sees a later world, except for what the caller itself assigns. -/
theorem next_step {me : CloudThread} {w w' : CloudWorld} {c : Call} {r : LauncherSig.Reply c}
    (h : w.Consistent) (hreq : Req me w c) (hn : w' ∈ next me w c r) :
    w'.Consistent ∧ ∀ j, (∀ leaks, c = .assignPossiblyLeaked leaks → j ≠ me) → Later j w w' := by
  cases c with
  | newNode node =>
      rcases r with e | (n | id)
      · cases hn
      · obtain ⟨rfl, rfl⟩ := of_mem_ite hn
        exact ⟨h.newNode node, fun j _ => Later.newNode j _⟩
      · cases hn
  | assignNode o a =>
      cases r with
      | error e => cases hn
      | ok v =>
          obtain rfl := List.mem_singleton.mp hn
          exact ⟨h.assignNode o a, fun j _ => Later.assignNode j o a⟩
  | createNode o =>
      cases r with
      | error e =>
          obtain rfl := List.mem_singleton.mp hn
          exact ⟨h, fun j _ => Later.refl j _⟩
      | ok v =>
          obtain rfl := List.mem_singleton.mp hn
          exact ⟨h.createNode o, fun j _ => Later.createNode j o⟩
  | setNode o =>
      have cases_ : w' = w ∨ w' ∈ w.stored o := by
        cases r with
        | error e => exact List.mem_cons.mp hn
        | ok v => exact Or.inr hn
      rcases cases_ with rfl | hs
      · exact ⟨h, fun j _ => Later.refl j _⟩
      · obtain ⟨hc, hl⟩ := h.stored hs
        exact ⟨hc, fun j _ => hl j⟩
  | createImageUpload image buildId provider data =>
      cases r with
      | error e =>
          obtain rfl := List.mem_singleton.mp hn
          exact ⟨h, fun j _ => Later.refl j _⟩
      | ok number =>
          obtain ⟨hfresh, rfl⟩ := of_mem_ite_not hn
          obtain ⟨fresh, hnumber⟩ := not_or.mp hfresh
          exact ⟨h.addUpload fresh hreq hnumber, fun j _ => Later.addUpload j fresh⟩
  | newLauncher launcher =>
      cases r with
      | error e => cases hn
      | ok l =>
          obtain ⟨rfl, rfl⟩ := of_mem_ite hn
          exact ⟨h.newLauncher hreq, fun j _ =>
            { Later.refl j w with nextLauncher := Nat.le_succ _ }⟩
  | assignLauncher l a =>
      cases r with
      | error e => cases hn
      | ok v =>
          obtain rfl := List.mem_singleton.mp hn
          exact ⟨h.assignLauncher l a, fun j _ => { Later.refl j w with }⟩
  | getCreateStateMachine l hostname label image m => exact h.give hreq hn
  | uploadImage name filename m => exact h.give hreq hn
  | deleteResource res =>
      have cases_ : w' = w ∨ w' = w.remove res := by simpa [next] using hn
      rcases cases_ with rfl | rfl
      · exact ⟨h, fun j _ => Later.refl j _⟩
      · exact ⟨h.remove res, fun j _ => { Later.refl j w with }⟩
  | assignPossiblyLeaked leaks =>
      obtain ⟨k, provider, rfl, aged⟩ := hreq
      cases r with
      | error e => cases hn
      | ok v =>
          obtain rfl := List.mem_singleton.mp hn
          exact ⟨h.setLeaks aged, fun j hj => Later.setLeaks (hj leaks rfl)⟩
  | _ =>
      obtain rfl := next_quiet (by trivial) hn
      exact ⟨h, fun j _ => Later.refl j _⟩

/-- What happens beside the threads keeps the world consistent too. -/
theorem Env.step {w w' : CloudWorld} (h : w.Consistent) (henv : Env w w') :
    w'.Consistent ∧ ∀ j, Later j w w' := by
  cases henv with
  | addNode node => exact ⟨h.addNode node, fun j => Later.addNode j node⟩
  | storeNode id node exists_ provider =>
      refine ⟨h.setNode id fun r hr => ?_, fun j => Later.setNode j id fun _ _ => exists_⟩
      cases hr
      exact ⟨exists_, provider⟩
  | deleteNode id =>
      exact ⟨h.setNode id fun _ hr => (nomatch hr),
        fun j => Later.setNode j id fun _ hr => (nomatch hr)⟩
  | addBuild image buildId fresh =>
      refine ⟨{ h with
        builds := ?_
        born := fun p hp => ⟨List.mem_cons_of_mem _ (h.born p hp).1, (h.born p hp).2⟩ },
        fun j => { Later.refl j w with builds := List.subset_cons_self _ _ }⟩
      intro b hb b' hb' e
      rcases List.mem_cons.mp hb with rfl | hb <;> rcases List.mem_cons.mp hb' with rfl | hb'
      · rfl
      · exact absurd e.symm (fresh b' hb')
      · exact absurd e (fresh b hb)
      · exact h.builds b hb b' hb' e
  | addUpload path fresh number build =>
      exact ⟨h.addUpload fresh build number, fun j => Later.addUpload j fresh⟩
  | deleteUpload path =>
      refine ⟨{ h with uploads := fun p hp => h.uploads (List.mem_of_mem_filter hp) }, fun j =>
        { Later.refl j w with uploads := fun p _ hgone hp => ?_ }⟩
      exact hgone (List.mem_of_mem_filter hp)
  | addResource r given =>
      exact ⟨{ h with resources := List.forall_mem_cons.mpr ⟨given, h.resources⟩ },
        fun j => { Later.refl j w with }⟩
  | removeResource r => exact ⟨h.remove r, fun j => { Later.refl j w with }⟩

end CloudWorld

end Nodepool
