import Mathlib.Data.String.Basic
import Mathlib.Tactic.Ring

/-!
Texts as Python's `str.split`, `str.join` and `sorted` have them: splitting at a character, and
the order of digits of one length, which is that of the numbers they stand for.
-/

namespace Nodepool.Text

/-- `s.split(sep)` -/
def split (sep : Char) (s : String) : List String := (s.toList.splitOn sep).map String.ofList

/-- `sep.join(parts)` -/
def join (sep : Char) (parts : List String) : String :=
  String.ofList ([sep].intercalate (parts.map String.toList))

variable {sep : Char} {s : String} {parts : List String}

theorem join_split : join sep (split sep s) = s := by
  rw [join, split, List.map_map, show String.toList ∘ String.ofList = id from
    funext fun _ => String.toList_ofList, List.map_id, List.intercalate_splitOn,
    String.ofList_toList]

/-- Parts without the separator are what their join is split into. -/
theorem split_join (ne : parts ≠ []) (free : ∀ p ∈ parts, sep ∉ p.toList) :
    split sep (join sep parts) = parts := by
  rw [join, split, String.toList_ofList, List.splitOn_intercalate, List.map_map,
    show String.ofList ∘ String.toList = id from funext fun _ => String.ofList_toList, List.map_id]
  · intro l mem
    obtain ⟨p, hp, rfl⟩ := List.mem_map.mp mem
    exact free p hp
  · exact fun h => ne (List.map_eq_nil_iff.mp h)

theorem notMem_of_mem_splitOn {l : List Char} {part : List Char} (h : part ∈ l.splitOn sep) :
    sep ∉ part := by
  induction l generalizing part with
  | nil =>
      rw [List.splitOn_nil, List.mem_singleton] at h
      rw [h]
      exact List.not_mem_nil
  | cons c l ih =>
      rw [List.splitOn_cons_eq_if_modifyHead] at h
      split at h
      · rcases List.mem_cons.mp h with rfl | h
        · exact List.not_mem_nil
        · exact ih h
      · rename_i other
        cases rest : l.splitOn sep with
        | nil => exact absurd rest (List.splitOn_ne_nil sep l)
        | cons first others =>
            rw [rest] at h ih
            rcases List.mem_cons.mp h with rfl | h
            · intro mem
              rcases List.mem_cons.mp mem with rfl | mem
              · exact other (beq_self_eq_true _)
              · exact ih List.mem_cons_self mem
            · exact ih (List.mem_cons_of_mem _ h)

/-- No part has the separator. -/
theorem notMem_of_mem_split {p : String} (h : p ∈ split sep s) : sep ∉ p.toList := by
  obtain ⟨part, mem, rfl⟩ := List.mem_map.mp h
  rw [String.toList_ofList]
  exact notMem_of_mem_splitOn mem

/-! ### The last separator -/

/-- What stands before and after the last separator. -/
def rpartition (sep : Char) : List Char → Option (List Char × List Char)
  | [] => none
  | c :: cs =>
      match rpartition sep cs with
      | some (before, after) => some (c :: before, after)
      | none => if c = sep then some ([], cs) else none

theorem rpartition_eq_none {l : List Char} : rpartition sep l = none ↔ sep ∉ l := by
  induction l with
  | nil => simp [rpartition]
  | cons c l ih =>
      rw [rpartition, List.mem_cons, not_or]
      cases rest : rpartition sep l with
      | none =>
          rw [rest] at ih
          by_cases same : c = sep
          · simp [same]
          · simp [same, ih.mp rfl, Ne.symm same]
      | some pair =>
          rw [rest] at ih
          have mem : sep ∈ l := by
            by_contra h
            cases ih.mpr h
          simp [mem]

theorem rpartition_eq_some {l before after : List Char} :
    rpartition sep l = some (before, after) ↔ l = before ++ sep :: after ∧ sep ∉ after := by
  induction l generalizing before with
  | nil => simp [rpartition]
  | cons c l ih =>
      rw [rpartition]
      cases rest : rpartition sep l with
      | none =>
          have free := rpartition_eq_none.mp rest
          cases before with
          | nil =>
              by_cases same : c = sep
              · simp only [same, if_true, Option.some_inj, Prod.mk.injEq, true_and, List.nil_append,
                  List.cons.injEq]
                exact ⟨fun h => ⟨h, h ▸ free⟩, And.left⟩
              · simp [same]
          | cons b before =>
              have no : ¬ (c :: l = b :: before ++ sep :: after) := by
                intro h
                rw [(List.cons.inj h).2] at free
                exact free (List.mem_append_right _ List.mem_cons_self)
              refine iff_of_false (fun h => ?_) fun h => no h.1
              dsimp only at h
              split at h <;> cases h
      | some pair =>
          obtain ⟨before', after'⟩ := pair
          cases before with
          | nil =>
              have mem : sep ∈ l := by
                by_contra h
                rw [rpartition_eq_none.mpr h] at rest
                cases rest
              simp only [List.nil_append, List.cons.injEq, Option.some_inj, Prod.mk.injEq,
                reduceCtorEq, false_and, false_iff, not_and, not_not]
              rintro ⟨-, rfl⟩
              exact mem
          | cons b before =>
              have step : rpartition sep l = some (before, after) ↔ _ := ih
              rw [rest] at step
              simp only [Option.some_inj, Prod.mk.injEq] at step
              simp only [Option.some_inj, Prod.mk.injEq, List.cons.injEq, List.cons_append]
              rw [and_assoc, step, and_assoc]

theorem rpartition_append {before after : List Char} (free : sep ∉ after) :
    rpartition sep (before ++ sep :: after) = some (before, after) :=
  rpartition_eq_some.mpr ⟨rfl, free⟩

/-- A text has one last separator. -/
theorem last_separator {before before' after after' : List Char} (free : sep ∉ after)
    (free' : sep ∉ after') (same : before ++ sep :: after = before' ++ sep :: after') :
    before = before' ∧ after = after' := by
  have split : rpartition sep (before ++ sep :: after) = some (before, after) :=
    rpartition_append free
  rw [same, rpartition_append free', Option.some_inj] at split
  exact ⟨(Prod.mk.inj split).1.symm, (Prod.mk.inj split).2.symm⟩

/-! ### Digits -/

theorem ofDigitChars_lt {cs : List Char} (digits : ∀ c ∈ cs, c.isDigit = true) :
    Nat.ofDigitChars 10 cs 0 < 10 ^ cs.length := by
  induction cs with
  | nil => exact Nat.one_pos
  | cons c cs ih =>
      have hc := Char.isDigit_iff_toNat.mp (digits c List.mem_cons_self)
      have rest := ih fun c' h => digits c' (List.mem_cons_of_mem c h)
      have nine : '9'.toNat = 57 := rfl
      have zero : '0'.toNat = 48 := rfl
      rw [Nat.ofDigitChars_cons, Nat.ofDigitChars_eq_ofDigitChars_zero, List.length_cons, pow_succ]
      calc 10 ^ cs.length * (10 * 0 + (c.toNat - '0'.toNat)) + Nat.ofDigitChars 10 cs 0
          < 10 ^ cs.length * (10 * 0 + (c.toNat - '0'.toNat)) + 10 ^ cs.length :=
            Nat.add_lt_add_left rest _
        _ = 10 ^ cs.length * (c.toNat - '0'.toNat + 1) := by ring
        _ ≤ 10 ^ cs.length * 10 := Nat.mul_le_mul_left _ (by omega)

/-- Digits of one length are in the order of their numbers. -/
theorem ofDigitChars_lt_ofDigitChars {cs ds : List Char} (length : cs.length = ds.length)
    (hc : ∀ c ∈ cs, c.isDigit = true) (hd : ∀ c ∈ ds, c.isDigit = true) (less : cs < ds) :
    Nat.ofDigitChars 10 cs 0 < Nat.ofDigitChars 10 ds 0 := by
  induction cs generalizing ds with
  | nil =>
      cases ds with
      | nil => exact absurd less (lt_irrefl _)
      | cons d ds => cases length
  | cons c cs ih =>
      cases ds with
      | nil => cases length
      | cons d ds =>
          have hc' := Char.isDigit_iff_toNat.mp (hc c List.mem_cons_self)
          have hd' := Char.isDigit_iff_toNat.mp (hd d List.mem_cons_self)
          have zero : '0'.toNat = 48 := rfl
          have length' : cs.length = ds.length := Nat.succ_injective length
          have restC : ∀ c ∈ cs, c.isDigit = true := fun c' h => hc c' (List.mem_cons_of_mem c h)
          have restD : ∀ c ∈ ds, c.isDigit = true := fun c' h => hd c' (List.mem_cons_of_mem d h)
          rw [Nat.ofDigitChars_cons, Nat.ofDigitChars_cons, Nat.ofDigitChars_eq_ofDigitChars_zero,
            Nat.ofDigitChars_eq_ofDigitChars_zero (l := ds), length']
          rcases List.cons_lt_cons_iff.mp less with first | ⟨rfl, rest⟩
          · have : c.toNat < d.toNat := first
            have bound := ofDigitChars_lt restC
            rw [length'] at bound
            calc 10 ^ ds.length * (10 * 0 + (c.toNat - '0'.toNat)) + Nat.ofDigitChars 10 cs 0
                < 10 ^ ds.length * (10 * 0 + (c.toNat - '0'.toNat)) + 10 ^ ds.length :=
                  Nat.add_lt_add_left bound _
              _ = 10 ^ ds.length * (c.toNat - '0'.toNat + 1) := by ring
              _ ≤ 10 ^ ds.length * (10 * 0 + (d.toNat - '0'.toNat)) :=
                  Nat.mul_le_mul_left _ (by omega)
              _ ≤ _ := Nat.le_add_right _ _
          · exact Nat.add_lt_add_left (ih length' restC restD rest) _

end Nodepool.Text
