import Nodepool.Effect.Program

/-!
Programs that run alone, with a world that answers every call in one way.

`Method.runAlone` is the result of a method, its attributes and the world after it.
`Method.Returns` says that a method ends without an exception, and in which world; its
rules follow the syntax of the body, and as programs are finite, what they prove is total
correctness.
-/

namespace Nodepool.Effect

variable {S : Sig} {W σ α β : Type}

/-- How a world answers a call, and what becomes of it. -/
abbrev Answer (S : Sig) (W : Type) : Type := W → (c : S.Call) → S.Reply c × W

def Prog.runAlone (answer : Answer S W) : Prog S α → W → α × W
  | .pure a, w => (a, w)
  | .call c k, w => (k (answer w c).1).runAlone answer (answer w c).2

theorem Prog.runAlone_bind (answer : Answer S W) (p : Prog S α) (f : α → Prog S β) (w : W) :
    (p.bind f).runAlone answer w =
      (f (p.runAlone answer w).1).runAlone answer (p.runAlone answer w).2 := by
  induction p generalizing w with
  | pure a => rfl
  | call c k ih => exact ih _ _

namespace Method

def runAlone (answer : Answer S W) (m : Method S σ α) (s : σ) (w : W) :
    (Except S.Err α × σ) × W :=
  (m s).runAlone answer w

/-- The method ends without an exception, with a result and a world that satisfy `Q`, and
leaves the attributes as they were. -/
def Returns (answer : Answer S W) (m : Method S σ α) (s : σ) (w : W) (Q : α → W → Prop) : Prop :=
  ∃ a w', m.runAlone answer s w = ((.ok a, s), w') ∧ Q a w'

variable {answer : Answer S W} {s : σ} {w : W}

namespace Returns

theorem pure {a : α} {Q : α → W → Prop} (h : Q a w) :
    Returns answer (pure a : Method S σ α) s w Q :=
  ⟨a, w, rfl, h⟩

theorem bind {m : Method S σ α} {f : α → Method S σ β} {Q : β → W → Prop}
    (h : Returns answer m s w fun a w' => Returns answer (f a) s w' Q) :
    Returns answer (m >>= f) s w Q := by
  obtain ⟨a, w₁, hm, b, w₂, hf, hQ⟩ := h
  refine ⟨b, w₂, ?_, hQ⟩
  change ((m s).bind _).runAlone answer w = _
  rw [Prog.runAlone_bind]
  change (m s).runAlone answer w = _ at hm
  rw [hm]
  exact hf

theorem tryCatch {m : Method S σ α} {handler : S.Err → Method S σ α} {Q : α → W → Prop}
    (h : Returns answer m s w Q) : Returns answer (tryCatch m handler) s w Q := by
  obtain ⟨a, w₁, hm, hQ⟩ := h
  refine ⟨a, w₁, ?_, hQ⟩
  change ((m s).bind _).runAlone answer w = _
  rw [Prog.runAlone_bind]
  change (m s).runAlone answer w = _ at hm
  rw [hm]
  rfl

theorem attempt {m : Method S σ α} {Q : Except S.Err α → W → Prop}
    (h : Returns answer m s w fun a => Q (.ok a)) : Returns answer (attempt m) s w Q := by
  obtain ⟨a, w₁, hm, hQ⟩ := h
  refine ⟨.ok a, w₁, ?_, hQ⟩
  change ((m s).bind _).runAlone answer w = _
  rw [Prog.runAlone_bind]
  change (m s).runAlone answer w = _ at hm
  rw [hm]
  rfl

theorem perform {c : S.Call} {Q : S.Val c → W → Prop} {v : S.Val c} {w' : W}
    (ha : answer w c = (.ok v, w')) (h : Q v w') :
    Returns answer (perform c : Method S σ (S.Val c)) s w Q := by
  refine ⟨v, w', ?_, h⟩
  change Prog.runAlone answer (.call c fun r => .pure (r, s)) w = _
  rw [Prog.runAlone, ha]
  rfl

theorem mono {m : Method S σ α} {Q Q' : α → W → Prop} (h : Returns answer m s w Q)
    (imp : ∀ a w, Q a w → Q' a w) : Returns answer m s w Q' := by
  obtain ⟨a, w', hm, hQ⟩ := h
  exact ⟨a, w', hm, imp a w' hQ⟩

/-- **Loop rule.** The assertion speaks of the elements that are still to come. -/
theorem forEach {f : α → Method S σ Unit} {J : List α → W → Prop} {as : List α}
    (round : ∀ a rest w, J (a :: rest) w → Returns answer (f a) s w fun _ => J rest)
    (h : J as w) : Returns answer (forEach as f) s w fun _ => J [] := by
  induction as generalizing w with
  | nil => exact pure h
  | cons a as ih => exact bind ((round a as w h).mono fun _ _ h' => ih h')

/-- What every round of `gather` says of its elements holds of all of them. -/
theorem gather {f : α → Method S σ (List β)} {J : W → Prop} {p : β → Prop} {as : List α}
    (round : ∀ a ∈ as, ∀ w, J w →
      Returns answer (f a) s w fun bs w' => J w' ∧ ∀ b ∈ bs, p b) (h : J w) :
    Returns answer (gather as f) s w fun bs w' => J w' ∧ ∀ b ∈ bs, p b := by
  induction as generalizing w with
  | nil => exact pure ⟨h, fun b hb => absurd hb List.not_mem_nil⟩
  | cons a as ih =>
      refine bind ((round a List.mem_cons_self w h).mono fun bs w₁ h₁ => ?_)
      refine bind ((ih (fun a' ha' => round a' (List.mem_cons_of_mem a ha')) h₁.1).mono ?_)
      rintro bs' w₂ ⟨h₂, rest⟩
      exact pure ⟨h₂, fun b hb => (List.mem_append.mp hb).elim (h₁.2 b) (rest b)⟩

/-- A method has one result. -/
theorem runAlone_snd {m : Method S σ α} {Q : α → W → Prop} (h : Returns answer m s w Q) :
    ∃ a, Q a (m.runAlone answer s w).2 := by
  obtain ⟨a, w', hm, hQ⟩ := h
  rw [hm]
  exact ⟨a, hQ⟩

end Returns

end Method

end Nodepool.Effect
