import Mathlib.Data.List.Infix
import Nodepool.Zk.Models

/-!
A tree of znodes. Each znode counts the children that were ever created under it, and the
count names the next sequential child.

A path is written from the leaf to the root, so its parent is its tail. `Closed` is what
holds of every tree, and `Extends` says what an operation that creates nodes leaves alone.
-/

namespace Nodepool

inductive ZkError where
  | nodeExists
  | noNode
  | notEmpty
  /-- `int` of what is no number -/
  | valueError
deriving DecidableEq, Repr

abbrev ZPath : Type := List String

structure ZNode where
  data : String
  /-- the number of children that were ever created -/
  created : Nat
deriving DecidableEq, Repr

abbrev ZTree : Type := Dict ZPath ZNode

namespace ZTree

/-- A tree with nothing but its root. -/
def empty : ZTree := (∅ : Dict _ _).insert [] ⟨"", 0⟩

def data (t : ZTree) (p : ZPath) : Option String := (t.lookup p).map (·.data)

def created (t : ZTree) (p : ZPath) : Nat := (t.lookup p).elim 0 (·.created)

/-- The names of the children of a node. -/
def children (t : ZTree) (p : ZPath) : List String :=
  t.keys.filterMap fun
    | [] => none
    | n :: q => if q = p then some n else none

/-- One more child was created under a node. -/
def countChild (t : ZTree) (p : ZPath) : ZTree :=
  match t.lookup p with
  | none => t
  | some node => t.insert p { node with created := node.created + 1 }

def addNode (t : ZTree) (p : ZPath) (data : String) : ZTree :=
  (countChild t p.tail).insert p ⟨data, 0⟩

/-- Create a node and its ancestors where they are missing. -/
def ensurePath (t : ZTree) : ZPath → ZTree
  | [] => t
  | n :: p => if n :: p ∈ t then t else addNode (ensurePath t p) (n :: p) ""

/-- `create(path, value, makepath=True)` -/
def create (t : ZTree) (p : ZPath) (data : String) : Except ZkError ZTree :=
  if p ∈ t then .error .nodeExists else .ok (addNode (ensurePath t p.tail) p data)

/-- `create(path + '/', makepath=True, sequence=True)`, with the path of the new node -/
def createSequence (t : ZTree) (p : ZPath) (data : String) : Except ZkError (ZPath × ZTree) := do
  let node := sequenceName ((ensurePath t p).created p) :: p
  let t ← create t node data
  pure (node, t)

def set (t : ZTree) (p : ZPath) (data : String) : Except ZkError ZTree :=
  match t.lookup p with
  | none => .error .noNode
  | some node => .ok (t.insert p { node with data := data })

def deleteNode (t : ZTree) (p : ZPath) : Except ZkError ZTree :=
  if p ∉ t then .error .noNode
  else if children t p ≠ [] then .error .notEmpty
  else .ok (t.erase p)

/-- `delete(path, recursive=True)` of a node that exists -/
def deleteTree (t : ZTree) (p : ZPath) : ZTree :=
  (t.keys.filter (p <:+ ·)).foldl (fun t q => t.erase q) t

variable {t : ZTree} {p q : ZPath} {d : String}

/-! ### What there is -/

theorem data_isSome : (t.data p).isSome ↔ p ∈ t := by
  rw [data, Option.isSome_map, AList.lookup_isSome]

theorem data_eq_none : t.data p = none ↔ p ∉ t := by
  rw [← data_isSome, Option.not_isSome_iff_eq_none]

theorem mem_of_data {d : String} (h : t.data p = some d) : p ∈ t :=
  data_isSome.mp (by rw [h]; rfl)

theorem mem_children {n : String} : n ∈ t.children p ↔ n :: p ∈ t := by
  unfold children
  rw [List.mem_filterMap]
  constructor
  · rintro ⟨q, hq, h⟩
    cases q with
    | nil => cases h
    | cons m q =>
        dsimp only at h
        split at h
        case isTrue same =>
          cases h
          exact AList.mem_keys.mpr (same ▸ hq)
        case isFalse => cases h
  · intro h
    exact ⟨n :: p, AList.mem_keys.mp h, if_pos rfl⟩

/-! ### Adding a node -/

theorem data_countChild : (countChild t p).data q = t.data q := by
  unfold countChild
  split
  · rfl
  · rename_i node h
    unfold data
    by_cases same : q = p
    · subst same
      rw [AList.lookup_insert, h]
      rfl
    · rw [AList.lookup_insert_ne same]

theorem mem_countChild : q ∈ countChild t p ↔ q ∈ t := by
  rw [← data_isSome, data_countChild, data_isSome]

theorem created_countChild : (countChild t p).created q =
    if q = p ∧ p ∈ t then t.created p + 1 else t.created q := by
  unfold countChild
  split
  · rename_i h
    rw [if_neg fun both => AList.lookup_eq_none.mp h both.2]
  · rename_i node h
    have mem : p ∈ t := AList.lookup_isSome.mp (by rw [h]; rfl)
    unfold created
    by_cases same : q = p
    · subst same
      rw [AList.lookup_insert, if_pos ⟨rfl, mem⟩, h]
      rfl
    · rw [AList.lookup_insert_ne same, if_neg fun both => same both.1]

theorem data_addNode_self : (addNode t p d).data p = some d := by
  rw [addNode, data, AList.lookup_insert]
  rfl

theorem data_addNode_of_ne (ne : q ≠ p) : (addNode t p d).data q = t.data q := by
  rw [addNode, data, AList.lookup_insert_ne ne]
  exact data_countChild

theorem mem_addNode : q ∈ addNode t p d ↔ q = p ∨ q ∈ t := by
  rw [addNode, AList.mem_insert, mem_countChild]

/-- The parent of a new node counts it. -/
theorem created_addNode_tail {n : String} (h : p ∈ t) :
    (addNode t (n :: p) d).created p = t.created p + 1 := by
  rw [addNode, created, AList.lookup_insert_ne (List.cons_ne_self n p).symm]
  refine created_countChild.trans ?_
  rw [List.tail_cons, if_pos ⟨rfl, h⟩]

theorem created_eq_zero (h : p ∉ t) : t.created p = 0 := by
  rw [created, AList.lookup_eq_none.mpr h]
  rfl

/-! ### Creating nodes -/

/-- Every node but the root has a parent. -/
structure Closed (t : ZTree) : Prop where
  root : [] ∈ t
  parent : ∀ n p, n :: p ∈ t → p ∈ t

theorem Closed.suffix (h : Closed t) (hp : p ∈ t) (hq : q <:+ p) : q ∈ t := by
  induction p with
  | nil =>
      rw [List.suffix_nil.mp hq]
      exact hp
  | cons n p ih =>
      rcases List.suffix_cons_iff.mp hq with rfl | hq
      · exact hp
      · exact ih (h.parent n p hp) hq

theorem closed_empty : Closed empty where
  root := (AList.mem_insert _).mpr (.inl rfl)
  parent n p h := by
    rcases (AList.mem_insert _).mp h with h | h
    · cases h
    · exact absurd h (AList.notMem_empty _)

theorem closed_addNode {n : String} (h : Closed t) (hp : p ∈ t) :
    Closed (addNode t (n :: p) d) where
  root := mem_addNode.mpr (.inr h.root)
  parent m q hq := by
    rcases mem_addNode.mp hq with hq | hq
    · cases hq
      exact mem_addNode.mpr (.inr hp)
    · exact mem_addNode.mpr (.inr (h.parent m q hq))

/-- A later tree has all nodes of an earlier one, with their data, and has counted on. -/
structure Extends (t t' : ZTree) : Prop where
  data : ∀ q ∈ t, t'.data q = t.data q
  created : ∀ q, t.created q ≤ t'.created q

theorem Extends.refl (t : ZTree) : Extends t t := ⟨fun _ _ => rfl, fun _ => Nat.le_refl _⟩

theorem Extends.mem {t' : ZTree} (h : Extends t t') (hq : q ∈ t) : q ∈ t' := by
  rw [← data_isSome, h.data q hq, data_isSome]
  exact hq

theorem Extends.trans {t' t'' : ZTree} (h : Extends t t') (h' : Extends t' t'') :
    Extends t t'' where
  data q hq := (h'.data q (h.mem hq)).trans (h.data q hq)
  created q := Nat.le_trans (h.created q) (h'.created q)

theorem extends_addNode (new : p ∉ t) : Extends t (addNode t p d) where
  data q hq := data_addNode_of_ne fun same => new (same ▸ hq)
  created q := by
    by_cases same : q = p
    · rw [same, created_eq_zero new]
      exact Nat.zero_le _
    rw [addNode, created, created, AList.lookup_insert_ne same]
    refine Nat.le_trans ?_ (Nat.le_of_eq created_countChild.symm)
    split
    · rename_i both
      rw [both.1]
      exact Nat.le_succ _
    · exact Nat.le_refl _

theorem not_cons_suffix (n : String) (p : ZPath) : ¬ (n :: p) <:+ p := by
  intro h
  have := h.length_le
  rw [List.length_cons] at this
  omega

theorem mem_ensurePath (h : Closed t) : q ∈ ensurePath t p ↔ q ∈ t ∨ q <:+ p := by
  induction p with
  | nil =>
      rw [ensurePath, List.suffix_nil]
      exact ⟨.inl, fun hq => hq.elim id fun hq => hq ▸ h.root⟩
  | cons n p ih =>
      rw [ensurePath]
      split
      case isTrue mem => exact ⟨.inl, fun hq => hq.elim id (h.suffix mem)⟩
      case isFalse =>
        rw [mem_addNode, ih, List.suffix_cons_iff]
        tauto

theorem extends_ensurePath (h : Closed t) : Extends t (ensurePath t p) := by
  induction p with
  | nil => exact .refl t
  | cons n p ih =>
      rw [ensurePath]
      split
      case isTrue => exact .refl t
      case isFalse new =>
        refine ih.trans (extends_addNode ?_)
        rw [mem_ensurePath h]
        exact fun both => both.elim new (not_cons_suffix n p)

theorem closed_ensurePath (h : Closed t) : Closed (ensurePath t p) where
  root := (mem_ensurePath h).mpr (.inl h.root)
  parent n q hq := by
    rw [mem_ensurePath h] at hq ⊢
    exact hq.imp (h.parent n q) fun hq => (List.suffix_cons n q).trans hq

theorem created_ensurePath : (ensurePath t p).created p = t.created p := by
  cases p with
  | nil => rfl
  | cons n p =>
      rw [ensurePath]
      split
      case isTrue => rfl
      case isFalse new =>
        rw [created_eq_zero new, addNode, created, AList.lookup_insert]
        rfl

/-- What comes of creating a node that does not exist. -/
structure Created (t : ZTree) (n : String) (p : ZPath) (d : String) (t' : ZTree) : Prop extends
    Closed t', Extends t t' where
  mem : ∀ q, q ∈ t' ↔ q ∈ t ∨ q <:+ n :: p
  data_self : t'.data (n :: p) = some d
  created_tail : t'.created p = t.created p + 1

theorem create_new (h : Closed t) {n : String} (new : n :: p ∉ t) :
    ∃ t', create t (n :: p) d = .ok t' ∧ Created t n p d t' := by
  have new' : n :: p ∉ ensurePath t p := by
    rw [mem_ensurePath h]
    exact fun both => both.elim new (not_cons_suffix n p)
  have parent : p ∈ ensurePath t p := (mem_ensurePath h).mpr (.inr (List.suffix_refl p))
  refine ⟨_, if_neg new, closed_addNode (closed_ensurePath h) parent,
    (extends_ensurePath h).trans (extends_addNode new'), ?_, data_addNode_self, ?_⟩
  · intro q
    rw [mem_addNode, List.tail_cons, mem_ensurePath h, List.suffix_cons_iff]
    tauto
  · exact (created_addNode_tail parent).trans (by rw [created_ensurePath])

theorem createSequence_new (h : Closed t) (new : sequenceName (t.created p) :: p ∉ t) :
    ∃ t', createSequence t p d = .ok (sequenceName (t.created p) :: p, t') ∧
      Created t (sequenceName (t.created p)) p d t' := by
  obtain ⟨t', created, spec⟩ := create_new (d := d) h new
  refine ⟨t', ?_, spec⟩
  unfold createSequence
  rw [created_ensurePath]
  dsimp only
  rw [created]
  rfl

/-! ### Changing and deleting nodes -/

/-- What comes of setting the data of a node. -/
structure Updated (t : ZTree) (p : ZPath) (d : String) (t' : ZTree) : Prop where
  mem : ∀ q, q ∈ t' ↔ q ∈ t
  data_self : t'.data p = some d
  data : ∀ q, q ≠ p → t'.data q = t.data q
  created : ∀ q, t'.created q = t.created q

theorem set_updated (h : p ∈ t) : ∃ t', set t p d = .ok t' ∧ Updated t p d t' := by
  obtain ⟨node, hnode⟩ := Option.isSome_iff_exists.mp (AList.lookup_isSome.mpr h)
  refine ⟨t.insert p { node with data := d }, ?_, ?_, ?_, ?_, ?_⟩
  · rw [set, hnode]
  · intro q
    rw [AList.mem_insert]
    exact ⟨fun hq => hq.elim (fun same => same ▸ h) id, .inr⟩
  · rw [ZTree.data, AList.lookup_insert]
    rfl
  · intro q ne
    rw [ZTree.data, AList.lookup_insert_ne ne]
    rfl
  · intro q
    rw [ZTree.created, ZTree.created]
    by_cases same : q = p
    · subst same
      rw [AList.lookup_insert, hnode]
      rfl
    · rw [AList.lookup_insert_ne same]

theorem Updated.closed {t' : ZTree} (u : Updated t p d t') (h : Closed t) : Closed t' where
  root := (u.mem _).mpr h.root
  parent n q hq := (u.mem _).mpr (h.parent n q ((u.mem _).mp hq))

theorem deleteNode_leaf (h : p ∈ t) (leaf : ∀ n, n :: p ∉ t) :
    deleteNode t p = .ok (t.erase p) := by
  have none : children t p = [] :=
    List.eq_nil_iff_forall_not_mem.mpr fun n hn => leaf n (mem_children.mp hn)
  rw [deleteNode, if_neg (not_not.mpr h), if_neg (not_not.mpr none)]

theorem created_erase_of_ne (ne : q ≠ p) : ZTree.created (t.erase p) q = t.created q := by
  rw [created, AList.lookup_erase_ne ne]
  rfl

theorem closed_erase (h : Closed t) (leaf : ∀ n, n :: p ∉ t) (ne : p ≠ []) :
    Closed (t.erase p) where
  root := AList.mem_erase.mpr ⟨ne.symm, h.root⟩
  parent n q hq := by
    have mem := (AList.mem_erase.mp hq).2
    refine AList.mem_erase.mpr ⟨?_, h.parent n q mem⟩
    rintro rfl
    exact leaf n mem

theorem lookup_deleteTree (out : ¬ p <:+ q) : (deleteTree t p).lookup q = t.lookup q := by
  have fold : ∀ (ps : List ZPath) (t : ZTree), q ∉ ps →
      (ps.foldl (fun t q => t.erase q) t).lookup q = t.lookup q := by
    intro ps
    induction ps with
    | nil => exact fun _ _ => rfl
    | cons p ps ih =>
        intro t h
        rw [List.foldl_cons, ih _ fun hq => h (List.mem_cons_of_mem p hq)]
        exact AList.lookup_erase_ne fun same => h (same ▸ List.mem_cons_self)
  refine fold _ t fun hq => out ?_
  simpa using (List.mem_filter.mp hq).2

theorem mem_deleteTree : q ∈ deleteTree t p ↔ q ∈ t ∧ ¬ p <:+ q := by
  have fold : ∀ (ps : List ZPath) (t : ZTree),
      q ∈ ps.foldl (fun t q => t.erase q) t ↔ q ∈ t ∧ q ∉ ps := by
    intro ps
    induction ps with
    | nil => simp
    | cons p ps ih =>
        intro t
        rw [List.foldl_cons, ih, AList.mem_erase, List.mem_cons, not_or]
        tauto
  refine (fold _ t).trans (and_congr_right fun hq => not_congr ?_)
  rw [List.mem_filter, decide_eq_true_iff]
  exact and_iff_right (AList.mem_keys.mp hq)

theorem closed_deleteTree (h : Closed t) (ne : p ≠ []) : Closed (deleteTree t p) where
  root := mem_deleteTree.mpr ⟨h.root, fun hp => ne (List.suffix_nil.mp hp)⟩
  parent n q hq := by
    obtain ⟨hq, out⟩ := mem_deleteTree.mp hq
    exact mem_deleteTree.mpr
      ⟨h.parent n q hq, fun hp => out (hp.trans (List.suffix_cons n q))⟩

theorem created_deleteTree (out : ¬ p <:+ q) : (deleteTree t p).created q = t.created q := by
  rw [created, lookup_deleteTree out]
  rfl

end ZTree

end Nodepool
