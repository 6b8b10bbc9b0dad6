import Mathlib.Algebra.BigOperators.Group.List.Basic
import Mathlib.Data.Rat.Defs
import Mathlib.Tactic.NormNum
import Nodepool.Quota.Information

/-!
`QuotaInformation` as objects. The amounts of an object lie in a dictionary that
`add` and `subtract` update in place, entry by entry; `from_resources` and
`get_resources` share that dictionary with others.

The loops are the same for amounts of any kind. `Refines.addSubtract` says what the loops of
`_add_subtract` leave behind for integers and infinity: the value that
`QuotaInformation.addSubtract` computes, unless the operand has the very dictionary that is being
updated. Sums of floats, which the `gpu` of a label may be, are rounded, and the last section shows
what becomes of the laws.
-/

namespace Nodepool.QuotaObjects

variable {α : Type}

/-- The dictionaries of amounts, by their addresses. -/
abbrev Heap (α : Type) : Type := ℕ → Dict String α

structure QuotaObject (α : Type) where
  /-- the address of `quota['compute']` -/
  compute : ℕ
  default : α
deriving DecidableEq

namespace QuotaObject

/-- `QuotaInformation.from_resources`, which takes over the dictionary it is given. -/
def fromResources [Zero α] (resources : ℕ) : QuotaObject α := ⟨resources, 0⟩

/-- The amount stored for a resource, or the default. -/
def reading (heap : Heap α) (q : QuotaObject α) (resource : String) : α :=
  (heap q.compute).get resource q.default

/-- What the object holds at present. -/
def value (heap : Heap Number) (q : QuotaObject Number) : QuotaInformation :=
  ⟨heap q.compute, q.default⟩

end QuotaObject

open QuotaObject

/-- `self.quota[category].setdefault(resource, self.default)` -/
def setdefault (self : QuotaObject α) (heap : Heap α) (resource : String) : Heap α :=
  Function.update heap self.compute
    (Dict.setdefault (heap self.compute) resource self.default)

/-- `self.quota[category][resource] += second_value`, or `-=`. -/
def combine (op : α → α → α) (self other : QuotaObject α) (heap : Heap α)
    (resource : String) : Heap α :=
  let second := other.reading heap resource
  Function.update heap self.compute
    ((heap self.compute).insert resource (op (self.reading heap resource) second))

/-- `_add_subtract`: the two loops over the resources, of `other` and then of `self`. -/
def addSubtract (op : α → α → α) (self other : QuotaObject α) (heap : Heap α) : Heap α :=
  let filled := (heap other.compute).keys.foldl (setdefault self) heap
  (filled self.compute).keys.foldl (combine op self other) filled

inductive Operation (α : Type) where
  | add (other : QuotaObject α)
  | subtract (other : QuotaObject α)

namespace Operation

def operand : Operation α → QuotaObject α
  | add other | subtract other => other

def apply [Add α] [Sub α] (self : QuotaObject α) (heap : Heap α) : Operation α → Heap α
  | add other => addSubtract (· + ·) self other heap
  | subtract other => addSubtract (· - ·) self other heap

/-- The amount that an operation adds to a resource. -/
def addedBy (heap : Heap Number) (resource : String) : Operation Number → ℤ
  | add other => (other.value heap).amount resource
  | subtract _ => 0

/-- The amount that an operation subtracts from a resource. -/
def subtractedBy (heap : Heap Number) (resource : String) : Operation Number → ℤ
  | add _ => 0
  | subtract other => (other.value heap).amount resource

end Operation

open Operation

/-- A sequence of operations on one receiver. -/
def run [Add α] [Sub α] (self : QuotaObject α) (ops : List (Operation α))
    (heap : Heap α) : Heap α :=
  ops.foldl (apply self) heap

/-! ### The loops of one operation -/

theorem foldl_setdefault (self : QuotaObject α) (ks : List String) (heap : Heap α) :
    ks.foldl (setdefault self) heap =
      Function.update heap self.compute
        (Dict.setdefaults (heap self.compute) ks self.default) := by
  induction ks generalizing heap with
  | nil => exact (Function.update_eq_self _ _).symm
  | cons k ks ih =>
      rw [List.foldl_cons, ih, setdefault, Function.update_idem, Function.update_self]
      rfl

/-- No operation writes to a dictionary other than the receiver's. -/
theorem foldl_combine_other (op : α → α → α) (self other : QuotaObject α)
    {a : ℕ} (ha : a ≠ self.compute) (ks : List String) (heap : Heap α) :
    ks.foldl (combine op self other) heap a = heap a := by
  induction ks generalizing heap with
  | nil => rfl
  | cons k ks ih =>
      rw [List.foldl_cons, ih]
      exact Function.update_of_ne ha _ _

/-- The second loop goes over each resource once and combines what the receiver had
there with what the operand reads. -/
theorem lookup_foldl_combine (op : α → α → α) {self other : QuotaObject α}
    (separate : other.compute ≠ self.compute) {ks : List String} (nodup : ks.Nodup)
    (heap : Heap α) (r : String) :
    (ks.foldl (combine op self other) heap self.compute).lookup r =
      if r ∈ ks then some (op (self.reading heap r) (other.reading heap r))
      else (heap self.compute).lookup r := by
  induction ks generalizing heap with
  | nil => simp
  | cons k ks ih =>
      obtain ⟨fresh, nodup⟩ := List.nodup_cons.mp nodup
      rw [List.foldl_cons, ih nodup]
      have operand : other.reading (combine op self other heap k) r = other.reading heap r := by
        unfold QuotaObject.reading combine
        rw [Function.update_of_ne separate]
      by_cases hk : r = k
      · subst hk
        rw [if_neg fresh, if_pos List.mem_cons_self, combine, Function.update_self,
          AList.lookup_insert]
      · have kept : (combine op self other heap k self.compute).lookup r =
            (heap self.compute).lookup r := by
          rw [combine, Function.update_self, AList.lookup_insert_ne hk]
        have read : self.reading (combine op self other heap k) r = self.reading heap r := by
          unfold QuotaObject.reading Dict.get
          rw [kept]
        simp only [List.mem_cons, hk, false_or, operand, kept, read]

/-- The object holds the given value. The order of the entries is left open. -/
structure Refines (heap : Heap Number) (object : QuotaObject Number) (q : QuotaInformation) :
    Prop where
  default : object.default = q.default
  lookup : ∀ r, (heap object.compute).lookup r = q.compute.lookup r

namespace Refines

variable {heap : Heap Number} {self other : QuotaObject Number} {q : QuotaInformation}

theorem reading (h : Refines heap self q) (r : String) :
    (self.value heap).reading r = q.reading r := by
  unfold QuotaInformation.reading Dict.get QuotaObject.value
  dsimp only
  rw [h.lookup r, h.default]

theorem mem (h : Refines heap self q) (r : String) :
    r ∈ heap self.compute ↔ r ∈ q.compute := by
  rw [← AList.lookup_isSome, ← AList.lookup_isSome, h.lookup r]

/-- With an operand in a dictionary of its own, the loops compute the value of
`QuotaInformation.addSubtract`. -/
theorem addSubtract (heap : Heap Number) (op : Number → Number → Number)
    (separate : other.compute ≠ self.compute) :
    Refines (addSubtract op self other heap) self
      ((self.value heap).addSubtract (other.value heap) op) := by
  refine ⟨rfl, fun r => ?_⟩
  unfold QuotaObjects.addSubtract
  rw [foldl_setdefault]
  set filled := Dict.setdefaults (heap self.compute) (heap other.compute).keys self.default
    with hfilled
  set heap' := Function.update heap self.compute filled with hheap
  have atSelf : heap' self.compute = filled := Function.update_self ..
  have operand : other.reading heap' r = other.reading heap r := by
    unfold QuotaObject.reading
    rw [hheap, Function.update_of_ne separate]
  rw [lookup_foldl_combine op separate (heap' self.compute).keys_nodup, operand, atSelf]
  unfold QuotaInformation.addSubtract
  rw [Dict.lookup_mapVals]
  change _ = (filled.lookup r).map _
  by_cases hr : r ∈ filled
  · rw [if_pos (AList.mem_keys.mp hr), Dict.lookup_eq_get_of_mem hr self.default]
    unfold QuotaObject.reading
    rw [atSelf]
    rfl
  · rw [if_neg fun h => hr (AList.mem_keys.mpr h), AList.lookup_eq_none.mpr hr]
    rfl

end Refines

/-! ### Sequences of operations -/

section Sequences

variable {self : QuotaObject Number}

theorem addSubtract_other (op : Number → Number → Number) (other : QuotaObject Number)
    (heap : Heap Number) {a : ℕ} (ha : a ≠ self.compute) :
    addSubtract op self other heap a = heap a := by
  unfold addSubtract
  rw [foldl_setdefault, foldl_combine_other op self other ha]
  exact Function.update_of_ne ha _ _

theorem apply_other (op : Operation Number) (heap : Heap Number) {a : ℕ} (ha : a ≠ self.compute) :
    op.apply self heap a = heap a := by
  cases op with
  | add other => exact addSubtract_other _ other heap ha
  | subtract other => exact addSubtract_other _ other heap ha

theorem run_other (ops : List (Operation Number)) (heap : Heap Number) {a : ℕ}
    (ha : a ≠ self.compute) :
    run self ops heap a = heap a := by
  induction ops generalizing heap with
  | nil => rfl
  | cons op ops ih => exact (ih _).trans (apply_other op heap ha)

theorem value_of_eq {q : QuotaObject Number} {heap heap' : Heap Number}
    (h : heap' q.compute = heap q.compute) :
    q.value heap' = q.value heap := by
  unfold QuotaObject.value
  rw [h]

theorem reading_apply {op : Operation Number} {heap : Heap Number}
    (separate : op.operand.compute ≠ self.compute) (finite : (op.operand.value heap).Finite)
    (r : String) :
    (self.value (op.apply self heap)).reading r =
      (self.value heap).reading r + .int (op.addedBy heap r) - .int (op.subtractedBy heap r) := by
  cases op with
  | add other =>
      have refined := Refines.addSubtract heap (· + ·) separate
      refine (refined.reading r).trans ?_
      refine (QuotaInformation.reading_add finite.default r).trans ?_
      rw [finite.reading_eq r]
      exact (Number.sub_int_zero _).symm
  | subtract other =>
      have refined := Refines.addSubtract heap (· - ·) separate
      refine (refined.reading r).trans ?_
      refine (QuotaInformation.reading_subtract finite.default r).trans ?_
      rw [finite.reading_eq r]
      exact congrArg (· - _) (Number.add_int_zero _).symm

theorem mem_apply {op : Operation Number} {heap : Heap Number}
    (separate : op.operand.compute ≠ self.compute)
    (r : String) :
    r ∈ op.apply self heap self.compute ↔
      r ∈ heap op.operand.compute ∨ r ∈ heap self.compute := by
  cases op with
  | add other =>
      have refined := Refines.addSubtract heap (· + ·) separate
      exact (refined.mem r).trans QuotaInformation.mem_addSubtract
  | subtract other =>
      have refined := Refines.addSubtract heap (· - ·) separate
      exact (refined.mem r).trans QuotaInformation.mem_addSubtract

/-- What an operation adds and subtracts depends on its operand only. -/
theorem amounts_congr {op : Operation Number} {heap heap' : Heap Number}
    (h : op.operand.value heap' = op.operand.value heap) (r : String) :
    op.addedBy heap' r = op.addedBy heap r ∧ op.subtractedBy heap' r = op.subtractedBy heap r := by
  cases op with
  | add other => exact ⟨congrArg (·.amount r) h, rfl⟩
  | subtract other => exact ⟨rfl, congrArg (·.amount r) h⟩

/-- The total of what a sequence of operations does with each resource. -/
theorem reading_run {ops : List (Operation Number)} {heap : Heap Number}
    (separate : ∀ op ∈ ops, op.operand.compute ≠ self.compute)
    (finite : ∀ op ∈ ops, (op.operand.value heap).Finite) (r : String) :
    (self.value (run self ops heap)).reading r =
      (self.value heap).reading r + .int (ops.map (addedBy heap r)).sum -
        .int (ops.map (subtractedBy heap r)).sum := by
  induction ops generalizing heap with
  | nil => simp [run]
  | cons op ops ih =>
      rw [List.forall_mem_cons] at separate finite
      -- the operands that follow are as they were
      have kept : ∀ o ∈ ops, o.operand.value (op.apply self heap) = o.operand.value heap :=
        fun o ho => value_of_eq (apply_other op heap (separate.2 o ho))
      have adds : ops.map (addedBy (op.apply self heap) r) = ops.map (addedBy heap r) :=
        List.map_congr_left fun o ho => (amounts_congr (kept o ho) r).1
      have subtracts : ops.map (subtractedBy (op.apply self heap) r) =
          ops.map (subtractedBy heap r) :=
        List.map_congr_left fun o ho => (amounts_congr (kept o ho) r).2
      have rest := ih separate.2 fun o ho => (kept o ho).symm ▸ finite.2 o ho
      refine rest.trans ?_
      rw [reading_apply separate.1 finite.1, adds, subtracts, List.map_cons, List.map_cons,
        List.sum_cons, List.sum_cons]
      exact Number.add_sub_add_sub_int _ _ _ _ _

theorem mem_run {ops : List (Operation Number)} {heap : Heap Number}
    (separate : ∀ op ∈ ops, op.operand.compute ≠ self.compute) (r : String) :
    r ∈ run self ops heap self.compute ↔
      (∃ op ∈ ops, r ∈ heap op.operand.compute) ∨ r ∈ heap self.compute := by
  induction ops generalizing heap with
  | nil => simp [run]
  | cons op ops ih =>
      rw [List.forall_mem_cons] at separate
      refine (ih separate.2).trans ?_
      have kept : (∃ o ∈ ops, r ∈ op.apply self heap o.operand.compute) ↔
          ∃ o ∈ ops, r ∈ heap o.operand.compute := by
        refine exists_congr fun o => and_congr_right fun ho => ?_
        rw [apply_other op heap (separate.2 o ho)]
      rw [kept, mem_apply separate.1, List.exists_mem_cons_iff, ← or_assoc]
      exact or_congr_left or_comm

/-- After subtracting usages, no listed amount is negative exactly when the usages of
each resource fit into the limit. -/
theorem nonNegative_run_iff {usages : List (QuotaObject Number)} {heap : Heap Number}
    (separate : ∀ u ∈ usages, u.compute ≠ self.compute)
    (finite : ∀ u ∈ usages, (u.value heap).Finite)
    (numbers : ∀ r, (self.value heap).reading r ≠ .nan) :
    (self.value (run self (usages.map .subtract) heap)).nonNegative = true ↔
      ∀ r, r ∈ heap self.compute ∨ (∃ u ∈ usages, r ∈ heap u.compute) →
        ((self.value heap).reading r).isAtLeast
          (usages.map fun u => (u.value heap).amount r).sum = true := by
  have separate' : ∀ op ∈ usages.map Operation.subtract, op.operand.compute ≠ self.compute :=
    List.forall_mem_map.mpr separate
  have finite' : ∀ op ∈ usages.map Operation.subtract, (op.operand.value heap).Finite :=
    List.forall_mem_map.mpr finite
  have reading : ∀ r, (self.value (run self (usages.map .subtract) heap)).reading r =
      (self.value heap).reading r - .int (usages.map fun u => (u.value heap).amount r).sum := by
    intro r
    rw [reading_run separate' finite' r, List.map_map, List.map_map]
    have none : (usages.map (addedBy heap r ∘ Operation.subtract)).sum = 0 :=
      List.sum_eq_zero fun x hx => by
        obtain ⟨u, -, rfl⟩ := List.mem_map.mp hx
        rfl
    rw [none, Number.add_int_zero]
    rfl
  have listed : ∀ r, r ∈ (self.value (run self (usages.map .subtract) heap)).compute ↔
      r ∈ heap self.compute ∨ ∃ u ∈ usages, r ∈ heap u.compute := by
    intro r
    refine (mem_run separate' r).trans ?_
    rw [or_comm]
    refine or_congr_right ⟨?_, ?_⟩
    · rintro ⟨op, hop, hr⟩
      obtain ⟨u, hu, rfl⟩ := List.mem_map.mp hop
      exact ⟨u, hu, hr⟩
    · rintro ⟨u, hu, hr⟩
      exact ⟨_, List.mem_map_of_mem hu, hr⟩
  constructor
  · intro h r hr
    have := QuotaInformation.not_isNeg_of_nonNegative h ((listed r).mpr hr)
    rwa [reading, Number.isNeg_sub_int_iff (numbers r)] at this
  · intro h
    refine QuotaInformation.nonNegative_of_forall fun r hr => ?_
    rw [reading, Number.isNeg_sub_int_iff (numbers r)]
    exact h r ((listed r).mp hr)

end Sequences

/-! ### The laws -/

/-- Operations on an object whose operands have dictionaries of their own: what they
make of each resource, that their order does not matter, that the operands stay as they
are, and what `non_negative` says after subtracting. -/
theorem operations_sum (heap : Heap Number) (self : QuotaObject Number)
    (ops : List (Operation Number))
    (separate : ∀ op ∈ ops, op.operand.compute ≠ self.compute)
    (finite : ∀ op ∈ ops, (op.operand.value heap).Finite)
    (numbers : ∀ r, (self.value heap).reading r ≠ .nan) :
    (∀ r, (self.value (run self ops heap)).reading r =
      (self.value heap).reading r + .int (ops.map (addedBy heap r)).sum -
        .int (ops.map (subtractedBy heap r)).sum) ∧
    (∀ ops' : List (Operation Number), ops'.Perm ops → ∀ r,
      (self.value (run self ops' heap)).reading r = (self.value (run self ops heap)).reading r ∧
      (r ∈ run self ops' heap self.compute ↔ r ∈ run self ops heap self.compute)) ∧
    (∀ op ∈ ops, op.operand.value (run self ops heap) = op.operand.value heap) ∧
    (∀ usages : List (QuotaObject Number), ops = usages.map .subtract →
      ((self.value (run self ops heap)).nonNegative = true ↔
        ∀ r, r ∈ heap self.compute ∨ (∃ u ∈ usages, r ∈ heap u.compute) →
          ((self.value heap).reading r).isAtLeast
            (usages.map fun u => (u.value heap).amount r).sum = true)) := by
  refine ⟨reading_run separate finite, ?_, ?_, ?_⟩
  · intro ops' perm r
    have separate' : ∀ op ∈ ops', op.operand.compute ≠ self.compute :=
      fun op hop => separate op (perm.mem_iff.mp hop)
    have finite' : ∀ op ∈ ops', (op.operand.value heap).Finite :=
      fun op hop => finite op (perm.mem_iff.mp hop)
    constructor
    · rw [reading_run separate finite, reading_run separate' finite',
        (perm.map _).sum_eq, (perm.map (subtractedBy heap r)).sum_eq]
    · rw [mem_run separate, mem_run separate']
      exact or_congr_left (exists_congr fun op => and_congr_left fun _ => perm.mem_iff)
  · exact fun op hop => value_of_eq (run_other ops heap (separate op hop))
  · rintro usages rfl
    exact nonNegative_run_iff (fun u hu => separate _ (List.mem_map_of_mem hu))
      (fun u hu => finite _ (List.mem_map_of_mem hu)) numbers

/-- Two dictionaries: the amounts of a limit and of a usage. -/
def exampleHeap : Heap Number := fun a =>
  if a = 0 then Dict.ofPairs [("instances", .int 3)]
  else Dict.ofPairs [("instances", .int 1), ("gpus", .int 2)]

theorem exampleHeap_finite (a : ℕ) : ((fromResources a).value exampleHeap).Finite := by
  refine (QuotaInformation.Natural.of_entries rfl ?_).toFinite
  change (exampleHeap a).entries.all _ = true
  unfold exampleHeap
  split <;> decide

theorem operations_sum_example :
    (QuotaObject.value (run ⟨0, .inf⟩ [.subtract (fromResources 1)] exampleHeap)
      ⟨0, .inf⟩).nonNegative = true := by
  have read : ∀ r, (QuotaObject.value exampleHeap ⟨0, .inf⟩).reading r =
      if r = "instances" then .int 3 else .inf := by
    intro r
    by_cases hr : r = "instances"
    · subst hr
      rfl
    · rw [if_neg hr]
      refine Dict.get_of_notMem (fun h => hr ?_) _
      exact ((AList.mem_insert ∅).mp h).resolve_right (AList.notMem_empty r)
  have laws := operations_sum exampleHeap ⟨0, .inf⟩ [.subtract (fromResources 1)]
    (by simp [operand, fromResources]) (List.forall_mem_singleton.mpr (exampleHeap_finite 1))
    fun r => by rw [read r]; split <;> simp
  refine (laws.2.2.2 [fromResources 1] rfl).mpr fun r _ => ?_
  rw [read r]
  by_cases hr : r = "instances"
  · subst hr
    decide
  · rw [if_neg hr]
    rfl

/-! ### Amounts that are floats -/

/-- A finite float, `mantissa * 2 ^ exponent`. -/
structure Double where
  mantissa : ℤ
  exponent : ℤ
deriving DecidableEq

namespace Double

def value (x : Double) : ℚ := x.mantissa * (2 : ℚ) ^ x.exponent

/-- The nearest number of 53 bits, and of two the even one. The bounds of the exponent, which
amounts do not come near, are left out. -/
def round (x : Double) : Double :=
  let excess := Nat.log2 x.mantissa.natAbs - 52
  let high := x.mantissa / 2 ^ excess
  let low := x.mantissa % 2 ^ excess
  let up := 2 ^ excess < 2 * low ∨ 2 ^ excess = 2 * low ∧ high % 2 = 1
  ⟨if up then high + 1 else high, x.exponent + excess⟩

/-- The mantissa for a smaller exponent. -/
def scaled (x : Double) (exponent : ℤ) : ℤ := x.mantissa * 2 ^ (x.exponent - exponent).toNat

instance : Zero Double := ⟨⟨0, 0⟩⟩

instance : Neg Double := ⟨fun x => ⟨-x.mantissa, x.exponent⟩⟩

instance : Add Double where
  add x y :=
    let exponent := min x.exponent y.exponent
    round ⟨x.scaled exponent + y.scaled exponent, exponent⟩

instance : Sub Double := ⟨fun x y => x + -y⟩

end Double

/-- The resources of nodes with 0.1, 0.2 and 0.3 of a GPU. -/
def exampleGpus : Heap Double := fun a =>
  if a = 0 then ∅
  else if a = 1 then Dict.ofPairs [("gpu", ⟨3602879701896397, -55⟩)]
  else if a = 2 then Dict.ofPairs [("gpu", ⟨3602879701896397, -54⟩)]
  else Dict.ofPairs [("gpu", ⟨5404319552844595, -54⟩)]

/-- The three nodes are counted. -/
def exampleUsages : List (Operation Double) :=
  [.add (fromResources 1), .add (fromResources 2), .add (fromResources 3)]

/-- The sum of floats depends on their order, and an object that is its own operand is changed. -/
theorem not_forall_operations_sum :
    (¬ ∀ (heap : Heap Double) (self : QuotaObject Double) (ops ops' : List (Operation Double)),
      (∀ op ∈ ops, op.operand.compute ≠ self.compute ∧ op.operand.default = 0) →
      ops'.Perm ops → ∀ r,
        (self.reading (run self ops' heap) r).value = (self.reading (run self ops heap) r).value) ∧
    ¬ ∀ (heap : Heap Number) (self : QuotaObject Number) (ops : List (Operation Number)),
      (∀ op ∈ ops, (op.operand.value heap).Finite) →
      ∀ op ∈ ops, op.operand.value (run self ops heap) = op.operand.value heap := by
  constructor
  · intro h
    have same := h exampleGpus (fromResources 0) exampleUsages exampleUsages.reverse
      (by simp [exampleUsages, operand, fromResources]) (List.reverse_perm _) "gpu"
    have ascending : reading (run (fromResources 0) exampleUsages exampleGpus)
        (fromResources 0) "gpu" = ⟨5404319552844596, -53⟩ := by decide
    have descending : reading (run (fromResources 0) exampleUsages.reverse exampleGpus)
        (fromResources 0) "gpu" = ⟨5404319552844595, -53⟩ := by decide
    rw [ascending, descending, Double.value, Double.value] at same
    norm_num at same
  · intro h
    have kept := h exampleHeap (fromResources 0) [.add (fromResources 0)]
      (List.forall_mem_singleton.mpr (exampleHeap_finite 0)) _ List.mem_cons_self
    have amount := congrArg (fun q => q.reading "instances") kept
    exact absurd amount (by decide)

end Nodepool.QuotaObjects
