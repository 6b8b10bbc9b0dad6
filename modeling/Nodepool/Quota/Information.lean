import Mathlib.Algebra.Order.Group.Int
import Mathlib.Algebra.Ring.Int.Defs
import Nodepool.Base.Dict

/-!
`QuotaInformation` of `nodepool/driver/utils.py`: amounts of named resources
with a default for the names it does not list.

The amounts are Python numbers, integers or the floats `inf`, `-inf` and `nan`
that arithmetic with `math.inf` can produce. Other floats are left out: only the `gpu` of a
label in a cluster may be one, and what becomes of their sums is shown next to
`QuotaObjects`. Every object the source builds has
the one category `compute`, so the dictionary of categories is left out.
-/

namespace Nodepool

/-- An integer, or a float that arithmetic with `math.inf` can produce. -/
inductive Number where
  | int (z : ℤ)
  | inf
  | negInf
  | nan
deriving DecidableEq, Repr

namespace Number

instance : Zero Number := ⟨.int 0⟩

def add : Number → Number → Number
  | .int a, .int b => .int (a + b)
  | .nan, _ => .nan
  | _, .nan => .nan
  | .inf, .negInf => .nan
  | .negInf, .inf => .nan
  | .inf, _ => .inf
  | _, .inf => .inf
  | .negInf, _ => .negInf
  | _, .negInf => .negInf

def neg : Number → Number
  | .int a => .int (-a)
  | .inf => .negInf
  | .negInf => .inf
  | .nan => .nan

instance : Add Number := ⟨add⟩

instance : Sub Number := ⟨fun a b => add a (neg b)⟩

/-- `value < 0`, which is false of `nan`. -/
def isNeg : Number → Bool
  | .int a => decide (a < 0)
  | .negInf => true
  | .inf | .nan => false

/-- `value <= 0` -/
def isNonPositive : Number → Bool
  | .int a => decide (a ≤ 0)
  | .negInf => true
  | .inf | .nan => false

/-- `value > 0`, which is false of `nan`. -/
def isPositive : Number → Bool
  | .int a => decide (0 < a)
  | .inf => true
  | .negInf | .nan => false

/-- `z <= value` -/
def isAtLeast : Number → ℤ → Bool
  | .int a, z => decide (z ≤ a)
  | .inf, _ => true
  | .negInf, _ | .nan, _ => false

/-- The integer a finite number is; `0` of the others. -/
def toInt : Number → ℤ
  | .int a => a
  | _ => 0

def isFinite : Number → Bool
  | .int _ => true
  | _ => false

theorem eq_int_of_isFinite {a : Number} (h : a.isFinite = true) : a = .int a.toInt := by
  cases a <;> first | rfl | cases h

@[simp] theorem zero_def : (0 : Number) = .int 0 := rfl

@[simp] theorem int_add (a b : ℤ) : (.int a + .int b : Number) = .int (a + b) := rfl

@[simp] theorem int_sub (a b : ℤ) : (.int a - .int b : Number) = .int (a - b) := by
  rw [sub_eq_add_neg]; rfl

@[simp] theorem inf_sub_int (b : ℤ) : (.inf - .int b : Number) = .inf := rfl

@[simp] theorem add_int_zero (a : Number) : a + .int 0 = a := by
  cases a with
  | int a => simp
  | inf => rfl
  | negInf => rfl
  | nan => rfl

@[simp] theorem sub_int_zero (a : Number) : a - .int 0 = a := by
  cases a with
  | int a => simp
  | inf => rfl
  | negInf => rfl
  | nan => rfl

@[simp] theorem isNeg_int (a : ℤ) : (Number.int a).isNeg = decide (a < 0) := rfl

theorem sub_sub_int (a : Number) (b c : ℤ) : a - .int b - .int c = a - .int (b + c) := by
  cases a with
  | int a => simp [sub_sub]
  | inf => rfl
  | negInf => rfl
  | nan => rfl

theorem isNeg_sub_int_of_le {a : Number} {b c : ℤ} (h : c ≤ b)
    (hb : (a - .int b).isNeg = false) : (a - .int c).isNeg = false := by
  cases a with
  | int a =>
      simp only [int_sub, isNeg_int, decide_eq_false_iff_not, not_lt] at hb ⊢
      omega
  | inf => rfl
  | negInf => exact hb
  | nan => rfl

theorem isNeg_sub_int_iff {a : Number} (h : a ≠ .nan) (z : ℤ) :
    (a - .int z).isNeg = false ↔ a.isAtLeast z = true := by
  cases a with
  | int a =>
      simp only [int_sub, isNeg_int, isAtLeast, decide_eq_false_iff_not, decide_eq_true_eq]
      omega
  | inf => exact iff_of_true rfl rfl
  | negInf =>
      refine iff_of_false ?_ (by simp [isAtLeast])
      simp [isNeg, HSub.hSub, Sub.sub, neg, add]
  | nan => exact absurd rfl h

/-- Amounts may be added first and subtracted afterwards. -/
theorem add_sub_add_sub_int (a : Number) (b c d e : ℤ) :
    a + .int b - .int c + .int d - .int e = a + .int (b + d) - .int (c + e) := by
  cases a with
  | int a =>
      simp only [int_add, int_sub, Number.int.injEq]
      omega
  | inf => rfl
  | negInf => rfl
  | nan => rfl

/-- A number that is not positive does not become so by subtracting. -/
theorem isPositive_sub_one {a : Number} (h : a.isPositive = false) :
    (a - .int 1).isPositive = false := by
  cases a with
  | int a =>
      simp only [isPositive, int_sub, decide_eq_false_iff_not] at h ⊢
      omega
  | inf => cases h
  | negInf => rfl
  | nan => rfl

end Number

/-- A map from the names of resources to amounts, as stored on a node. -/
abbrev Resources : Type := Dict String Number

structure QuotaInformation where
  compute : Resources
  default : Number

namespace QuotaInformation

/-- `QuotaInformation(**args)`. The parameters `cores`, `instances` and `ram`
take the default when they are not given or given as `None`; every further
argument, which no caller gives as `None`, becomes a resource of its name. -/
def ofArgs (args : Dict String (Option Number)) : QuotaInformation :=
  let default := (args.get "default" none).getD 0
  { compute := Dict.setdefaults (Dict.mapVals (fun _ v => v.getD default) (args.erase "default"))
      ["cores", "instances", "ram"] default
    default }

/-- `QuotaInformation.from_resources` -/
def fromResources (resources : Resources) : QuotaInformation :=
  { compute := resources, default := 0 }

/-- `QuotaInformation()` -/
def zero : QuotaInformation := ofArgs ∅

/-- The amount stored for a resource, or the default. -/
def reading (q : QuotaInformation) (resource : String) : Number := q.compute.get resource q.default

/-- `_add_subtract`: first every resource of `other` is filled in with the
default, then each amount is combined with what `other` reads there. -/
def addSubtract (q other : QuotaInformation) (op : Number → Number → Number) : QuotaInformation :=
  { q with
    compute := (q.compute.setdefaults other.compute.keys q.default).mapVals
      fun resource value => op value (other.reading resource) }

def add (q other : QuotaInformation) : QuotaInformation := q.addSubtract other (· + ·)

def subtract (q other : QuotaInformation) : QuotaInformation := q.addSubtract other (· - ·)

def nonNegative (q : QuotaInformation) : Bool := q.compute.entries.all fun e => !e.2.isNeg

/-! ### What the operations do to a reading -/

@[simp] theorem default_addSubtract (q other : QuotaInformation) (op : Number → Number → Number) :
    (q.addSubtract other op).default = q.default := rfl

theorem mem_addSubtract {q other : QuotaInformation} {op : Number → Number → Number}
    {r : String} : r ∈ (q.addSubtract other op).compute ↔ r ∈ other.compute ∨ r ∈ q.compute := by
  rw [addSubtract, Dict.mem_mapVals, Dict.mem_setdefaults]
  exact or_congr_left AList.mem_keys.symm

/-- With an operand of default `0`, every resource is combined pointwise, also
those that neither side lists. -/
theorem reading_addSubtract {q other : QuotaInformation} {op : Number → Number → Number}
    (unit : ∀ a, op a (.int 0) = a) (h : other.default = 0) (r : String) :
    (q.addSubtract other op).reading r = op (q.reading r) (other.reading r) := by
  unfold reading
  by_cases hr : r ∈ (q.addSubtract other op).compute
  · have hmem : r ∈ q.compute.setdefaults other.compute.keys q.default := by
      simpa [addSubtract] using hr
    have hl := Dict.lookup_eq_get_of_mem hmem q.default
    rw [Dict.get_setdefaults] at hl
    simp only [Dict.get, addSubtract, Dict.lookup_mapVals, hl, Option.map_some, Option.getD_some]
    rfl
  · have hq : r ∉ q.compute := fun h => hr (mem_addSubtract.mpr (Or.inr h))
    have ho : r ∉ other.compute := fun h => hr (mem_addSubtract.mpr (Or.inl h))
    rw [Dict.get_of_notMem hr, Dict.get_of_notMem hq, Dict.get_of_notMem ho, h]
    exact (unit _).symm

theorem reading_add {q other : QuotaInformation} (h : other.default = 0) (r : String) :
    (q.add other).reading r = q.reading r + other.reading r :=
  reading_addSubtract Number.add_int_zero h r

theorem reading_subtract {q other : QuotaInformation} (h : other.default = 0) (r : String) :
    (q.subtract other).reading r = q.reading r - other.reading r :=
  reading_addSubtract Number.sub_int_zero h r

@[simp] theorem default_add (q other : QuotaInformation) : (q.add other).default = q.default := rfl

@[simp] theorem default_subtract (q other : QuotaInformation) :
    (q.subtract other).default = q.default := rfl

theorem not_isNeg_of_nonNegative {q : QuotaInformation} (h : q.nonNegative = true) {r : String}
    (hr : r ∈ q.compute) : (q.reading r).isNeg = false := by
  have hl := Dict.lookup_eq_get_of_mem hr q.default
  have hmem := AList.mem_lookup_iff.mp hl
  simpa [reading] using List.all_eq_true.mp h _ hmem

theorem nonNegative_of_forall {q : QuotaInformation}
    (h : ∀ r ∈ q.compute, (q.reading r).isNeg = false) : q.nonNegative = true := by
  refine List.all_eq_true.mpr ?_
  rintro ⟨r, v⟩ hmem
  have hl : q.compute.lookup r = some v := AList.mem_lookup_iff.mpr hmem
  have hr : r ∈ q.compute := AList.lookup_isSome.mp (by simp [hl])
  have := h r hr
  rw [reading, Dict.get, hl] at this
  simpa using this

/-- What the keyword arguments are read back as. -/
theorem reading_ofArgs (args : Dict String (Option Number)) {r : String} (hr : r ≠ "default") :
    (ofArgs args).reading r = (args.get r none).getD ((args.get "default" none).getD 0) := by
  unfold reading ofArgs
  rw [Dict.get_setdefaults]
  simp only [Dict.get, Dict.lookup_mapVals, AList.lookup_erase_ne hr]
  cases args.lookup r <;> rfl

/-- Only the name `default` is read back as the default itself. -/
theorem reading_ofArgs_default (args : Dict String (Option Number)) :
    (ofArgs args).reading "default" = (ofArgs args).default := by
  unfold reading ofArgs
  rw [Dict.get_setdefaults, Dict.get_of_notMem]
  rw [Dict.mem_mapVals, AList.mem_erase]
  exact fun h => h.1 rfl

theorem mem_ofArgs {args : Dict String (Option Number)} {r : String} :
    r ∈ (ofArgs args).compute ↔
      r ∈ ["cores", "instances", "ram"] ∨ (r ≠ "default" ∧ r ∈ args) := by
  rw [ofArgs, Dict.mem_setdefaults, Dict.mem_mapVals, AList.mem_erase]

theorem default_ofArgs (args : Dict String (Option Number)) :
    (ofArgs args).default = (args.get "default" none).getD 0 := rfl

/-- What is read for a resource depends on its argument and on the default. -/
theorem reading_ofArgs_congr {args args' : Dict String (Option Number)} {r : String}
    (h : args.lookup r = args'.lookup r)
    (hd : args.lookup "default" = args'.lookup "default") :
    (ofArgs args).reading r = (ofArgs args').reading r := by
  have default : (ofArgs args).default = (ofArgs args').default := by
    rw [default_ofArgs, default_ofArgs, Dict.get, Dict.get, hd]
  by_cases hr : r = "default"
  · rw [hr, reading_ofArgs_default, reading_ofArgs_default, default]
  · rw [reading_ofArgs _ hr, reading_ofArgs _ hr, ← default_ofArgs, ← default_ofArgs, default,
      Dict.get, Dict.get, h]

theorem mem_ofArgs_congr {args args' : Dict String (Option Number)} {r : String}
    (h : args.lookup r = args'.lookup r) :
    r ∈ (ofArgs args).compute ↔ r ∈ (ofArgs args').compute := by
  rw [mem_ofArgs, mem_ofArgs, ← AList.lookup_isSome (s := args),
    ← AList.lookup_isSome (s := args'), h]

@[simp] theorem default_zero : zero.default = 0 := rfl

@[simp] theorem reading_zero (r : String) : zero.reading r = .int 0 := by
  by_cases hr : r = "default"
  · subst hr; rfl
  · rw [zero, reading_ofArgs _ hr]; rfl

/-! ### Finite quotas -/

/-- A quota as the adapters report it for a label and as nodes record it: listed
amounts are finite and the others are zero. -/
structure Finite (q : QuotaInformation) : Prop where
  default : q.default = 0
  reading : ∀ r, (q.reading r).isFinite = true

/-- The amount of a finite quota. -/
def amount (q : QuotaInformation) (r : String) : ℤ := (q.reading r).toInt

theorem Finite.reading_eq {q : QuotaInformation} (h : q.Finite) (r : String) :
    q.reading r = .int (q.amount r) :=
  Number.eq_int_of_isFinite (h.reading r)

theorem Finite.zero : zero.Finite := ⟨rfl, fun r => by rw [reading_zero]; rfl⟩

theorem Finite.add {q other : QuotaInformation} (h : q.Finite) (h' : other.Finite) :
    (q.add other).Finite :=
  ⟨h.default, fun r => by rw [reading_add h'.default, h.reading_eq, h'.reading_eq]; rfl⟩

@[simp] theorem amount_zero (r : String) : zero.amount r = 0 := by simp [amount, Number.toInt]

theorem amount_add {q other : QuotaInformation} (h : q.Finite) (h' : other.Finite) (r : String) :
    (q.add other).amount r = q.amount r + other.amount r := by
  rw [amount, reading_add h'.default, h.reading_eq, h'.reading_eq]
  rfl

/-! ### Quotas of natural numbers against limits -/

/-- A quota whose amounts are natural numbers, as a label needs them. -/
structure Natural (q : QuotaInformation) : Prop extends Finite q where
  nonneg : ∀ r, 0 ≤ q.amount r

theorem Natural.zero : zero.Natural := ⟨Finite.zero, fun r => by simp⟩

theorem Natural.add {q other : QuotaInformation} (h : q.Natural) (h' : other.Natural) :
    (q.add other).Natural :=
  ⟨h.toFinite.add h'.toFinite, fun r => by
    rw [amount_add h.toFinite h'.toFinite]
    exact add_nonneg (h.nonneg r) (h'.nonneg r)⟩

/-- Listed amounts decide whether a quota is one of natural numbers. -/
theorem Natural.of_entries {q : QuotaInformation} (default : q.default = 0)
    (h : (q.compute.entries.all fun e => e.2.isFinite && !e.2.isNeg) = true) : q.Natural := by
  have key : ∀ r, (q.reading r).isFinite = true ∧ (q.reading r).isNeg = false := by
    intro r
    by_cases hr : r ∈ q.compute
    · have hmem := AList.mem_lookup_iff.mp (Dict.lookup_eq_get_of_mem hr q.default)
      simpa [reading] using List.all_eq_true.mp h _ hmem
    · rw [reading, Dict.get_of_notMem hr, default]
      exact ⟨rfl, rfl⟩
  refine ⟨⟨default, fun r => (key r).1⟩, fun r => ?_⟩
  have hneg := (key r).2
  rw [Number.eq_int_of_isFinite (key r).1] at hneg
  simpa [amount] using hneg

/-- A sum of quotas is taken resource by resource. -/
theorem amount_foldl_add {qs : List QuotaInformation} (h : ∀ q ∈ qs, q.Natural)
    {start : QuotaInformation} (hs : start.Natural) :
    (qs.foldl add start).Natural ∧ ∀ r, (qs.foldl add start).amount r =
      start.amount r + (qs.map fun q => q.amount r).sum := by
  induction qs generalizing start with
  | nil => exact ⟨hs, fun r => by simp⟩
  | cons q qs ih =>
      rw [List.forall_mem_cons] at h
      obtain ⟨natural, sum⟩ := ih h.2 (hs.add h.1)
      refine ⟨natural, fun r => ?_⟩
      rw [List.foldl_cons, sum r, amount_add hs.toFinite h.1.toFinite, List.map_cons,
        List.sum_cons]
      exact add_assoc _ _ _

/-- The limits `q` leave room for a demand when every resource that one of the
two lists does. -/
theorem nonNegative_subtract_iff {q demand : QuotaInformation} (h : demand.Finite) :
    (q.subtract demand).nonNegative = true ↔
      ∀ r, r ∈ demand.compute ∨ r ∈ q.compute →
        (q.reading r - .int (demand.amount r)).isNeg = false := by
  constructor
  · intro hn r hr
    have := not_isNeg_of_nonNegative hn (mem_addSubtract.mpr hr)
    rwa [reading_subtract h.default, h.reading_eq] at this
  · intro hn
    refine nonNegative_of_forall fun r hr => ?_
    rw [reading_subtract h.default, h.reading_eq]
    exact hn r (mem_addSubtract.mp hr)

/-- Subtracting what is used and then what is needed leaves room when
subtracting their sum does. -/
theorem nonNegative_subtract_subtract {q used needed : QuotaInformation} (hu : used.Finite)
    (hn : needed.Finite) :
    ((q.subtract used).subtract needed).nonNegative =
      (q.subtract (used.add needed)).nonNegative := by
  rw [Bool.eq_iff_iff, nonNegative_subtract_iff hn, nonNegative_subtract_iff (hu.add hn)]
  refine forall_congr' fun r => ?_
  have hmem : r ∈ needed.compute ∨ r ∈ (q.subtract used).compute ↔
      r ∈ (used.add needed).compute ∨ r ∈ q.compute := by
    rw [subtract, add, mem_addSubtract, mem_addSubtract, or_assoc]
  rw [hmem, reading_subtract hu.default, hu.reading_eq, amount_add hu hn, Number.sub_sub_int]

/-- A smaller demand fits wherever a larger one does. -/
theorem nonNegative_subtract_of_le {q demand demand' : QuotaInformation} (h : demand.Finite)
    (h' : demand'.Finite) (sub : ∀ r, r ∈ demand'.compute → r ∈ demand.compute)
    (le : ∀ r, demand'.amount r ≤ demand.amount r)
    (hn : (q.subtract demand).nonNegative = true) :
    (q.subtract demand').nonNegative = true := by
  rw [nonNegative_subtract_iff h] at hn
  rw [nonNegative_subtract_iff h']
  intro r hr
  exact Number.isNeg_sub_int_of_le (le r) (hn r (hr.imp_left (sub r)))

end QuotaInformation

end Nodepool
