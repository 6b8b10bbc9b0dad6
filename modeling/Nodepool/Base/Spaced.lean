import Mathlib.Algebra.Order.Group.Defs
import Mathlib.Data.List.Chain
import Mathlib.Tactic

/-!
Sequences of times in which each is at least a given gap after the one before it: how far two
times of such a sequence are apart, and how many of them are in an interval.
-/

namespace Nodepool

variable {α : Type*} [AddCommGroup α] [LinearOrder α]

/-- Each time is at least `gap` after the one before it. -/
def Spaced (gap : α) (times : List α) : Prop :=
  times.IsChain fun earlier later => earlier + gap ≤ later

variable {gap : α} {times : List α}

theorem spaced_nil : Spaced gap [] := List.IsChain.nil

/-- A time is added that is late enough. -/
theorem Spaced.concat (spaced : Spaced gap times) {time : α}
    (late : ∀ last ∈ times.getLast?, last + gap ≤ time) : Spaced gap (times ++ [time]) := by
  refine List.IsChain.append spaced (List.isChain_singleton time) fun last isLast head isHead => ?_
  obtain rfl : time = head := Option.some.inj isHead
  exact late last isLast

variable [IsOrderedAddMonoid α]

/-- Two times are as many gaps apart as there are steps between them. -/
theorem Spaced.apart (spaced : Spaced gap times) {i j : ℕ} (order : i ≤ j)
    (bound : j < times.length) : times[i] + (j - i) • gap ≤ times[j] := by
  induction j, order using Nat.le_induction with
  | base => rw [Nat.sub_self, zero_nsmul, add_zero]
  | succ j order ih =>
      have next : times[j] + gap ≤ times[j + 1] := List.isChain_iff_getElem.mp spaced j bound
      calc times[i] + (j + 1 - i) • gap
          = times[i] + (j - i) • gap + gap := by
            rw [Nat.succ_sub order, succ_nsmul, add_assoc]
        _ ≤ times[j] + gap := add_le_add_left (ih (Nat.lt_of_succ_lt bound)) gap
        _ ≤ times[j + 1] := next

/-- What is left of a sequence, if the gap is not negative. -/
theorem Spaced.sublist (spaced : Spaced gap times) (nonneg : 0 ≤ gap) {kept : List α}
    (sub : kept.Sublist times) : Spaced gap kept := by
  have trans : Trans (fun a b : α => a + gap ≤ b) (fun a b => a + gap ≤ b)
      (fun a b => a + gap ≤ b) :=
    ⟨fun first second => first.trans ((le_add_of_nonneg_right nonneg).trans second)⟩
  exact (List.Pairwise.sublist sub (List.isChain_iff_pairwise.mp spaced)).isChain

/-- The times in an interval, but for one of them, take a gap each. -/
theorem Spaced.within (spaced : Spaced gap times) (nonneg : 0 ≤ gap) {first last : α}
    (order : first ≤ last) :
    ((times.filter fun time => first ≤ time ∧ time ≤ last).length - 1) • gap ≤ last - first := by
  generalize same : (times.filter fun time => first ≤ time ∧ time ≤ last) = kept
  have inside {time : α} (mem : time ∈ kept) : first ≤ time ∧ time ≤ last := by
    rw [← same] at mem
    simpa using (List.mem_filter.mp mem).2
  have keptSpaced : Spaced gap kept := spaced.sublist nonneg (same ▸ List.filter_sublist)
  by_cases some : 0 < kept.length
  · have bound : kept.length - 1 < kept.length := Nat.sub_lt some Nat.one_pos
    have apart := keptSpaced.apart (Nat.zero_le _) bound
    have start := (inside (List.getElem_mem some)).1
    have stop := (inside (List.getElem_mem bound)).2
    rw [Nat.sub_zero] at apart
    exact le_sub_iff_add_le'.mpr ((add_le_add_left start _).trans (apart.trans stop))
  · rw [Nat.eq_zero_of_not_pos some, Nat.zero_sub, zero_nsmul]
    exact sub_nonneg.mpr order

end Nodepool
