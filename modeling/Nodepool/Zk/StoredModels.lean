import Mathlib.Data.List.Sort
import Mathlib.Data.Rat.Floor
import Nodepool.Base.Dict
import Nodepool.Base.Text
import Nodepool.Launcher.Calls

/-!
`toDict`, `fromDict` and `updateFromDict` of the models of `nodepool/zk/zookeeper.py` that are
stored as JSON: `Node`, `NodeRequest`, `ImageBuild` and `ImageUpload`.

Most attributes are written under a name of their own and read back with `d.get`; a `Table`
lists those of a class, with the default for each. The attributes that are treated otherwise
(the state, the type and the hold of a node, the formats of a build) have their own
definitions, in the `Special` part of the class.
-/

namespace Nodepool.StoredModels

/-- A value that `json` writes and reads: beside the finite floats also `Infinity`, `-Infinity`
and `NaN`. -/
inductive Json where
  | null
  | bool (b : Bool)
  | int (z : ℤ)
  | float (q : ℚ)
  | infinity (negative : Bool)
  | nan
  | str (s : String)
  | list (l : List Json)
  | object (entries : List (String × Json))

namespace Json

def isNull : Json → Bool
  | null => true
  | _ => false

/-- The truth value of a value. -/
def truthy : Json → Bool
  | null => false
  | bool b => b
  | int z => z ≠ 0
  | float q => q ≠ 0
  | infinity _ | nan => true
  | str s => s ≠ ""
  | list l => !l.isEmpty
  | object entries => !entries.isEmpty

/-- `as_list` -/
def asList : Json → List Json
  | list l => l
  | value => if value.truthy then [value] else []

/-- `int(value)`, with 0 where it raises a `ValueError`; `int` of a text is `parseInt`. -/
def toInt (parseInt : String → Option ℤ) : Json → Except Err ℤ
  | bool b => .ok (if b then 1 else 0)
  | int z => .ok z
  | float q => .ok (if 0 ≤ q then ⌊q⌋ else ⌈q⌉)
  | nan => .ok 0
  | str s => .ok ((parseInt s).getD 0)
  -- an `OverflowError`, which is not a `ValueError`
  | infinity _ => .error .other
  -- a `TypeError`
  | null | list _ | object _ => .error .other

end Json

/-! ### Attributes under a name of their own -/

/-- The attributes of a class that are written with `d[key] = self.attribute` and read with
`self.attribute = d.get(key, default)`. -/
structure Table (F : Type) where
  fields : List F
  key : F → String
  /-- written only if it is not `None` -/
  optional : F → Bool
  default : F → Dict String Json → Json

namespace Table

variable {F : Type} (T : Table F)

def write (attr : F → Json) : List (String × Json) :=
  T.fields.filterMap fun f =>
    if T.optional f && (attr f).isNull then none else some (T.key f, attr f)

def read (d : Dict String Json) : F → Json := fun f => d.get (T.key f) (T.default f d)

end Table

/-- A class of stored models: `F` are its plain attributes, and `X` are the others. -/
structure StoredClass (F X : Type) where
  validStates : List String
  table : Table F
  specialKeys : List String
  writeSpecial : (F → Json) → X → List (String × Json)
  readSpecial : Dict String Json → X → Except Err X
  /-- what a new object has -/
  initial : F → Json
  initialSpecial : X

/-- An object, without its identifier and what else is not serialised. -/
structure Stored (F X : Type) where
  state : Json
  stateTime : Json
  attr : F → Json
  special : X

namespace StoredClass

variable {F X : Type} (C : StoredClass F X)

/-- `toDict` -/
def toDict (x : Stored F X) : Dict String Json :=
  Dict.ofPairs ([("state", x.state), ("state_time", x.stateTime)] ++ C.table.write x.attr ++
    C.writeSpecial x.attr x.special)

/-- The setter of `state`. -/
def setState (now : Json) (x : Stored F X) (state : Json) : Except Err (Stored F X) :=
  match state with
  | .str s =>
      if s ∈ C.validStates then .ok { x with state := state, stateTime := now } else .error .other
  | _ => .error .other

/-- `updateFromDict` of `BaseModel` -/
def updateBase (now : Json) (x : Stored F X) (d : Dict String Json) : Except Err (Stored F X) := do
  let x ← match d.lookup "state" with
    | some state => C.setState now x state
    | none => .ok x
  match d.lookup "state_time" with
  | some time => .ok { x with stateTime := time }
  | none => .ok x

/-- `updateFromDict` -/
def updateFromDict (now : Json) (x : Stored F X) (d : Dict String Json) :
    Except Err (Stored F X) := do
  let x ← C.updateBase now x d
  let special ← C.readSpecial d x.special
  .ok { x with attr := C.table.read d, special := special }

/-- A new object. -/
def new : Stored F X where
  state := .null
  stateTime := .null
  attr := C.initial
  special := C.initialSpecial

/-- `fromDict` -/
def fromDict (now : Json) (d : Dict String Json) : Except Err (Stored F X) :=
  C.updateFromDict now C.new d

/-- The state of the object is one of those of its class. -/
def ValidState (x : Stored F X) : Prop := ∃ s ∈ C.validStates, x.state = .str s

/-! ### Writing and reading -/

/-- No two attributes of the class share a key. -/
structure Lawful : Prop where
  complete : ∀ f, f ∈ C.table.fields
  keys : (["state", "state_time"] ++ C.table.fields.map C.table.key ++ C.specialKeys).Nodup
  special : ∀ attr x, ((C.writeSpecial attr x).map (·.1)).Sublist C.specialKeys
  optional : ∀ f d, C.table.optional f = true → C.table.default f d = .null

variable {C}

theorem write_keys (attr : F → Json) :
    ((C.table.write attr).map (·.1)).Sublist (C.table.fields.map C.table.key) := by
  unfold Table.write
  induction C.table.fields with
  | nil => exact .slnil
  | cons f fs ih =>
      rw [List.filterMap_cons, List.map_cons]
      cases C.table.optional f && (attr f).isNull with
      | true => exact ih.cons _
      | false => exact ih.cons_cons _

/-- The pairs of the dictionary, whose keys differ. -/
theorem lookup_toDict (lawful : C.Lawful) (x : Stored F X) {k : String} {v : Json} :
    (C.toDict x).lookup k = some v ↔
      (k, v) ∈ [("state", x.state), ("state_time", x.stateTime)] ++ C.table.write x.attr ++
        C.writeSpecial x.attr x.special := by
  refine Dict.lookup_ofPairs fun k v v' h h' => ?_
  have keys : (([("state", x.state), ("state_time", x.stateTime)] ++ C.table.write x.attr ++
      C.writeSpecial x.attr x.special).map (·.1)).Nodup := by
    refine lawful.keys.sublist ?_
    rw [List.map_append, List.map_append]
    exact ((List.Sublist.refl _).append (write_keys x.attr)).append
      (lawful.special x.attr x.special)
  exact (Prod.mk.inj (List.inj_on_of_nodup_map keys h h' rfl)).2

theorem lookup_state (lawful : C.Lawful) (x : Stored F X) :
    (C.toDict x).lookup "state" = some x.state :=
  (lookup_toDict lawful x).mpr (List.mem_append_left _ (List.mem_append_left _ List.mem_cons_self))

theorem lookup_stateTime (lawful : C.Lawful) (x : Stored F X) :
    (C.toDict x).lookup "state_time" = some x.stateTime :=
  (lookup_toDict lawful x).mpr (List.mem_append_left _ (List.mem_append_left _
    (List.mem_cons_of_mem _ List.mem_cons_self)))

theorem lookup_special (lawful : C.Lawful) (x : Stored F X) {k : String} (mem : k ∈ C.specialKeys)
    {v : Json} : (C.toDict x).lookup k = some v ↔ (k, v) ∈ C.writeSpecial x.attr x.special := by
  rw [lookup_toDict lawful]
  refine ⟨fun h => (List.mem_append.mp h).resolve_left fun h => ?_, List.mem_append_right _⟩
  have keys := lawful.keys
  refine List.disjoint_of_nodup_append keys (a := k) ?_ mem
  rcases List.mem_append.mp h with h | h
  · refine List.mem_append_left _ ?_
    have := List.mem_map_of_mem (f := Prod.fst) h
    exact this
  · exact List.mem_append_right _
      ((write_keys x.attr).subset (List.mem_map_of_mem (f := Prod.fst) h))

/-- An attribute that is left out has no entry. -/
theorem lookup_leftOut (lawful : C.Lawful) (x : Stored F X) {f : F}
    (leftOut : (C.table.optional f && (x.attr f).isNull) = true) :
    (C.toDict x).lookup (C.table.key f) = none := by
  have keys := lawful.keys
  have mem : C.table.key f ∈ C.table.fields.map C.table.key :=
    List.mem_map_of_mem (lawful.complete f)
  refine Option.eq_none_iff_forall_ne_some.mpr fun v found => ?_
  rcases List.mem_append.mp ((lookup_toDict lawful x).mp found) with h | h
  · rcases List.mem_append.mp h with h | h
    · have state := List.mem_map_of_mem (f := Prod.fst) h
      exact List.disjoint_of_nodup_append (List.nodup_append'.mp keys).1 state mem
    · obtain ⟨f', -, written⟩ := List.mem_filterMap.mp h
      have injective : Set.InjOn C.table.key {f | f ∈ C.table.fields} := by
        intro a ha b hb same
        have nodup := (List.nodup_append'.mp (List.nodup_append'.mp keys).1).2.1
        exact List.inj_on_of_nodup_map nodup ha hb same
      split at written
      · cases written
      · rename_i kept
        obtain ⟨same, -⟩ := Prod.mk.inj (Option.some_inj.mp written)
        cases injective (lawful.complete f') (lawful.complete f) same
        exact kept leftOut
  · have special := (lawful.special x.attr x.special).subset (List.mem_map_of_mem (f := Prod.fst) h)
    exact List.disjoint_of_nodup_append keys (List.mem_append_right _ mem) special

/-- What is read are the attributes that were written. -/
theorem read_toDict (lawful : C.Lawful) (x : Stored F X) : C.table.read (C.toDict x) = x.attr := by
  funext f
  rw [Table.read, Dict.get]
  cases leftOut : C.table.optional f && (x.attr f).isNull with
  | true =>
      obtain ⟨optional, isNull⟩ := Bool.and_eq_true_iff.mp leftOut
      rw [lookup_leftOut lawful x leftOut, Option.getD_none, lawful.optional f _ optional]
      cases value : x.attr f with
      | null => rfl
      | _ =>
          rw [value] at isNull
          cases isNull
  | false =>
      have written : (C.toDict x).lookup (C.table.key f) = some (x.attr f) := by
        refine (lookup_toDict lawful x).mpr (List.mem_append_left _ (List.mem_append_right _ ?_))
        refine List.mem_filterMap.mpr ⟨f, lawful.complete f, ?_⟩
        rw [leftOut]
        rfl
      rw [written, Option.getD_some]

/-- A valid object is read back, whatever the object was before, but for what is special. -/
theorem updateFromDict_toDict (lawful : C.Lawful) {x : Stored F X} (valid : C.ValidState x)
    (now : Json) (o : Stored F X) : C.updateFromDict now o (C.toDict x) =
      (C.readSpecial (C.toDict x) o.special).map fun special => { x with special := special } := by
  obtain ⟨s, mem, state⟩ := valid
  have base : C.updateBase now o (C.toDict x) =
      .ok { o with state := x.state, stateTime := x.stateTime } := by
    unfold updateBase
    rw [lookup_state lawful, lookup_stateTime lawful]
    dsimp only
    rw [state, setState, if_pos mem]
    rfl
  rw [updateFromDict, base, read_toDict lawful]
  change (do
    let special ← C.readSpecial (C.toDict x) o.special
    .ok { x with special := special }) = _
  cases C.readSpecial (C.toDict x) o.special <;> rfl

end StoredClass

/-! ### The round trip -/

/-- The serialisable content of `fromDict(toDict(x))` is that of `x`, as `normal` has it, and an
object that is updated from `toDict(x)` in place has the same. `view` is what the properties of
the object show of its special attributes. -/
def RoundTrips {F X : Type} (C : StoredClass F X) (normal view : X → X) (x o : Stored F X) :
    Prop :=
  ∀ now now', ∃ y o', C.fromDict now (C.toDict x) = .ok y ∧
    C.updateFromDict now' o (C.toDict x) = .ok o' ∧
    { y with special := view y.special } = { x with special := view (normal x.special) } ∧
    { o' with special := view o'.special } = { y with special := view y.special }

theorem exists_of_map_eq_ok {α β : Type} {f : α → β} {e : Except Err α} {b : β}
    (h : e.map f = .ok b) : ∃ a, e = .ok a ∧ f a = b := by
  cases e with
  | error => cases h
  | ok a =>
      cases h
      exact ⟨a, rfl, rfl⟩

/-- The special attributes decide. -/
theorem roundTrips_iff {F X : Type} {C : StoredClass F X} {normal view : X → X}
    (lawful : C.Lawful) {x : Stored F X} (valid : C.ValidState x) (o : Stored F X) :
    RoundTrips C normal view x o ↔
      ∃ y o', C.readSpecial (C.toDict x) C.initialSpecial = .ok y ∧
        C.readSpecial (C.toDict x) o.special = .ok o' ∧
        view y = view (normal x.special) ∧ view o' = view y := by
  unfold RoundTrips
  constructor
  · intro h
    obtain ⟨y, o', decoded, refreshed, content, same⟩ := h .null .null
    rw [StoredClass.fromDict, StoredClass.updateFromDict_toDict lawful valid] at decoded
    rw [StoredClass.updateFromDict_toDict lawful valid] at refreshed
    obtain ⟨ys, hy, rfl⟩ := exists_of_map_eq_ok decoded
    obtain ⟨os, ho, rfl⟩ := exists_of_map_eq_ok refreshed
    exact ⟨ys, os, hy, ho, congrArg Stored.special content, congrArg Stored.special same⟩
  · rintro ⟨y, o', decoded, refreshed, content, same⟩ now now'
    refine ⟨{ x with special := y }, { x with special := o' }, ?_, ?_, ?_, ?_⟩
    · rw [StoredClass.fromDict, StoredClass.updateFromDict_toDict lawful valid]
      change Except.map _ (C.readSpecial (C.toDict x) C.initialSpecial) = _
      rw [decoded]
      rfl
    · rw [StoredClass.updateFromDict_toDict lawful valid, refreshed]
      rfl
    · rw [content]
    · dsimp only
      rw [same]

end Nodepool.StoredModels
