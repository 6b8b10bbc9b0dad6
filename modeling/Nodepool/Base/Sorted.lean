import Mathlib.Data.List.Sort
import Mathlib.Order.WithBot

/-!
Python's `sorted` with a key that may raise, and insertion sort as its result.

The keys of all elements are computed first, so a single one that raises leaves nothing sorted.
-/

namespace Nodepool.Sorted

variable {ε α κ : Type}

/-- `sorted(l, key=key)` -/
def sorted [LE κ] [DecidableLE κ] (key : α → Except ε κ) (l : List α) : Except ε (List α) := do
  let keyed ← l.mapM fun a => do
    let k ← key a
    pure (k, a)
  pure ((keyed.insertionSort fun a b => a.1 ≤ b.1).map (·.2))

section Keys

variable [LinearOrder κ] {key : α → Except ε κ} {l l' : List α}

omit [LinearOrder κ] in
/-- The keys of all elements. -/
theorem mapM_key_ok (ok : ∀ a ∈ l, ∃ k, key a = .ok k) :
    ∃ keyed : List (κ × α), (l.mapM fun a => do
        let k ← key a
        pure (k, a)) = .ok keyed ∧
      keyed.map (·.2) = l ∧ ∀ p ∈ keyed, p.2 ∈ l ∧ key p.2 = .ok p.1 := by
  induction l with
  | nil => exact ⟨[], rfl, rfl, fun _ mem => absurd mem List.not_mem_nil⟩
  | cons a l ih =>
      obtain ⟨k, hk⟩ := ok a List.mem_cons_self
      obtain ⟨keyed, rest, elements, keys⟩ := ih fun b mem => ok b (List.mem_cons_of_mem a mem)
      refine ⟨(k, a) :: keyed, ?_, by rw [List.map_cons, elements], ?_⟩
      · rw [List.mapM_cons, hk, rest]
        rfl
      · intro p mem
        rcases List.mem_cons.mp mem with rfl | mem
        · exact ⟨List.mem_cons_self, hk⟩
        · exact ⟨List.mem_cons_of_mem a (keys p mem).1, (keys p mem).2⟩

/-- If no key raises, the elements are sorted by any relation that is the order of the keys. -/
theorem sorted_ok {r : α → α → Prop} [DecidableRel r] (ok : ∀ a ∈ l, ∃ k, key a = .ok k)
    (agree : ∀ a ∈ l, ∀ b ∈ l, ∀ k k', key a = .ok k → key b = .ok k' → (r a b ↔ k ≤ k')) :
    sorted key l = .ok (l.insertionSort r) := by
  obtain ⟨keyed, computed, elements, keys⟩ := mapM_key_ok ok
  rw [sorted, computed]
  change Except.ok _ = _
  have byKey : (keyed.insertionSort fun a b => a.1 ≤ b.1).map (·.2) =
      (keyed.map (·.2)).insertionSort r := by
    refine List.map_insertionSort (fun a b : κ × α => a.1 ≤ b.1) r _ _ fun a ha b hb => ?_
    exact (agree a.2 (keys a ha).1 b.2 (keys b hb).1 a.1 b.1 (keys a ha).2 (keys b hb).2).symm
  rw [byKey, elements]

variable (key) in
theorem sorted_raises {a : α} {e : ε} (mem : a ∈ l) (raises : key a = .error e) :
    ∃ e', sorted key l = .error e' := by
  have computed : ∃ e', (l.mapM fun a => do
      let k ← key a
      pure (k, a)) = .error e' := by
    induction l with
    | nil => cases mem
    | cons b l ih =>
        rw [List.mapM_cons]
        rcases List.mem_cons.mp mem with rfl | mem
        · rw [raises]
          exact ⟨e, rfl⟩
        · obtain ⟨e', rest⟩ := ih mem
          rw [rest]
          cases key b with
          | error e => exact ⟨e, rfl⟩
          | ok k => exact ⟨e', rfl⟩
  obtain ⟨e', computed⟩ := computed
  rw [sorted, computed]
  exact ⟨e', rfl⟩

theorem key_ok_of_sorted (h : sorted key l = .ok l') : ∀ a ∈ l, ∃ k, key a = .ok k := by
  intro a mem
  cases hk : key a with
  | ok k => exact ⟨k, rfl⟩
  | error e =>
      obtain ⟨e', raised⟩ := sorted_raises key mem hk
      rw [raised] at h
      cases h

theorem exists_key_error {e : ε} (h : sorted key l = .error e) :
    ∃ a ∈ l, ∃ e', key a = .error e' := by
  by_contra none
  have ok : ∀ a ∈ l, ∃ k, key a = .ok k := fun a mem => by
    cases hk : key a with
    | ok k => exact ⟨k, rfl⟩
    | error e' => exact absurd ⟨a, mem, e', hk⟩ none
  obtain ⟨keyed, computed, -⟩ := mapM_key_ok ok
  rw [sorted, computed] at h
  cases h

variable (key) in
/-- The key of an element, above all others if it raises. -/
def rank (a : α) : WithTop κ :=
  match key a with
  | .ok k => k
  | .error _ => ⊤

instance : IsTrans α fun a b => rank key a ≤ rank key b := ⟨fun _ _ _ => le_trans⟩

instance : Std.Total fun a b : α => rank key a ≤ rank key b := ⟨fun _ _ => le_total _ _⟩

theorem sorted_eq_rank (h : sorted key l = .ok l') :
    l' = l.insertionSort fun a b => rank key a ≤ rank key b := by
  have byRank : sorted key l = .ok (l.insertionSort fun a b => rank key a ≤ rank key b) := by
    refine sorted_ok (key_ok_of_sorted h) fun a _ b _ k k' hk hk' => ?_
    rw [rank, rank, hk, hk', WithTop.coe_le_coe]
  rw [h] at byRank
  exact Except.ok.inj byRank

theorem sorted_perm (h : sorted key l = .ok l') : l'.Perm l :=
  sorted_eq_rank h ▸ List.perm_insertionSort _ _

end Keys

/-! ### Insertion sort -/

section Insertion

variable {r : α → α → Prop} [DecidableRel r] [IsTrans α r] [Std.Total r]

omit [Std.Total r] in
theorem filter_orderedInsert_of_pos (p : α → Bool) {a : α} (ha : p a = true) {l : List α}
    (pairwise : l.Pairwise r) :
    (l.orderedInsert r a).filter p = (l.filter p).orderedInsert r a := by
  induction l with
  | nil => simp [ha]
  | cons b l ih =>
      rw [List.pairwise_cons] at pairwise
      by_cases hab : r a b
      · have first : ∀ c ∈ (b :: l).filter p, r a c := by
          intro c hc
          rcases List.mem_cons.mp (List.mem_of_mem_filter hc) with rfl | hc
          · exact hab
          · exact IsTrans.trans a b c hab (pairwise.1 c hc)
        rw [List.orderedInsert_cons_of_le _ _ hab, List.filter_cons_of_pos ha]
        cases hl : (b :: l).filter p with
        | nil => rfl
        | cons c l' =>
            rw [List.orderedInsert_cons_of_le]
            exact first c (hl ▸ List.mem_cons_self)
      · rw [List.orderedInsert_of_not_le _ _ hab]
        by_cases hb : p b = true
        · rw [List.filter_cons_of_pos hb, List.filter_cons_of_pos hb, ih pairwise.2,
            List.orderedInsert_of_not_le _ _ hab]
        · rw [List.filter_cons_of_neg hb, List.filter_cons_of_neg hb, ih pairwise.2]

omit [IsTrans α r] [Std.Total r] in
theorem filter_orderedInsert_of_neg (p : α → Bool) {a : α} (ha : ¬ p a = true) (l : List α) :
    (l.orderedInsert r a).filter p = l.filter p := by
  induction l with
  | nil => simp [ha]
  | cons b l ih =>
      rw [List.orderedInsert_cons]
      split
      · rw [List.filter_cons_of_neg ha]
      · rw [List.filter_cons, List.filter_cons, ih]

theorem filter_insertionSort (p : α → Bool) (l : List α) :
    (l.insertionSort r).filter p = (l.filter p).insertionSort r := by
  induction l with
  | nil => rfl
  | cons a l ih =>
      rw [List.insertionSort_cons]
      by_cases ha : p a = true
      · rw [filter_orderedInsert_of_pos p ha (List.pairwise_insertionSort r l), ih,
          List.filter_cons_of_pos ha, List.insertionSort_cons]
      · rw [filter_orderedInsert_of_neg p ha, ih, List.filter_cons_of_neg ha]

end Insertion

/-- Some of the elements are sorted as they are among all of them. -/
theorem sorted_filter [LinearOrder κ] {key : α → Except ε κ} {l l' : List α} (p : α → Bool)
    (h : sorted key l = .ok l') : sorted key (l.filter p) = .ok (l'.filter p) := by
  have ok : ∀ a ∈ l.filter p, ∃ k, key a = .ok k := fun a mem =>
    key_ok_of_sorted h a (List.mem_of_mem_filter mem)
  rw [sorted_eq_rank h, filter_insertionSort]
  refine sorted_ok ok fun a _ b _ k k' hk hk' => ?_
  rw [rank, rank, hk, hk', WithTop.coe_le_coe]

/-- A list that is sorted by one key is sorted by another if and only if no two elements
contradict it. -/
theorem pairwise_insertionSort_iff {κ' : Type} [LinearOrder κ] [LinearOrder κ'] {l : List α}
    {f : α → κ} {g : α → κ'} (same : ∀ a ∈ l, ∀ b ∈ l, f a = f b → g a = g b) :
    (l.insertionSort fun a b => f a ≤ f b).Pairwise (fun a b => g a ≤ g b) ↔
      ∀ a ∈ l, ∀ b ∈ l, f a < f b → g a ≤ g b := by
  have byKey : (l.insertionSort fun a b => f a ≤ f b).Pairwise fun a b => f a ≤ f b :=
    List.pairwise_insertionSort _ _
  constructor
  · intro pairwise a ha b hb less
    have sorted {a : α} (mem : a ∈ l) : a ∈ l.insertionSort fun a b => f a ≤ f b :=
      (List.mem_insertionSort _).mpr mem
    obtain ⟨i, hi, rfl⟩ := List.getElem_of_mem (sorted ha)
    obtain ⟨j, hj, rfl⟩ := List.getElem_of_mem (sorted hb)
    rcases lt_trichotomy i j with before | rfl | after
    · exact List.pairwise_iff_getElem.mp pairwise i j hi hj before
    · exact absurd less (lt_irrefl _)
    · exact absurd (List.pairwise_iff_getElem.mp byKey j i hj hi after) (not_le.mpr less)
  · intro agree
    refine byKey.imp_of_mem fun {a b} ha hb le => ?_
    have ha := (List.mem_insertionSort fun a b => f a ≤ f b).mp ha
    have hb := (List.mem_insertionSort fun a b => f a ≤ f b).mp hb
    rcases lt_or_eq_of_le le with less | equal
    · exact agree a ha b hb less
    · exact le_of_eq (same a ha b hb equal)

end Nodepool.Sorted
