import Nodepool.Effect.Serial

/-!
Programs over a part of a signature.

A `Sig.Hom` says how the calls of one signature are made as calls of another. A method
that is proved over the small signature is lifted along it, and `Context.comap` is how the
thread then sees the world.
-/

namespace Nodepool.Effect

variable {S T : Sig} {W σ α : Type}

structure Sig.Hom (S T : Sig) where
  call : S.Call → T.Call
  reply : ∀ c, T.Reply (call c) → S.Reply c
  err : S.Err → T.Err

def Prog.lift (f : Sig.Hom S T) : Prog S α → Prog T α
  | .pure a => .pure a
  | .call c k => .call (f.call c) fun r => (k (f.reply c r)).lift f

def Context.comap (f : Sig.Hom S T) (Γ : Context T W) : Context S W where
  step w c r w' := ∃ r', f.reply c r' = r ∧ Γ.step w (f.call c) r' w'
  rely := Γ.rely
  inv := Γ.inv
  req w c := Γ.req w (f.call c)

theorem Prog.wp_lift {f : Sig.Hom S T} {Γ : Context T W} {p : Prog S α} {Q : α → W → Prop} {w : W} :
    (p.lift f).wp Γ Q w ↔ p.wp (Γ.comap f) Q w := by
  induction p generalizing w with
  | pure a => rfl
  | call c k ih =>
      refine forall_congr' fun w₁ => forall_congr' fun _ => forall_congr' fun _ =>
        and_congr_right fun _ => ⟨fun h r w₂ hstep hi => ?_, fun h r w₂ hstep hi => ?_⟩
      · obtain ⟨r', rfl, hstep⟩ := hstep
        exact (ih _).mp (h r' w₂ hstep hi)
      · exact (ih _).mpr (h _ w₂ ⟨r, rfl, hstep⟩ hi)

namespace Method

def lift (f : Sig.Hom S T) (m : Method S σ α) : Method T σ α := fun s =>
  ((m s).lift f).bind fun out => .pure (out.1.mapError f.err, out.2)

theorem wp_lift {f : Sig.Hom S T} {Γ : Context T W} {m : Method S σ α} {Q : α → σ → W → Prop}
    {E : T.Err → σ → W → Prop} {s : σ} {w : W} :
    (m.lift f).wp Γ Q E s w ↔ m.wp (Γ.comap f) Q (fun e => E (f.err e)) s w := by
  refine Prog.wp_bind.trans (Prog.wp_lift.trans ?_)
  constructor <;> intro h <;> refine Prog.wp_mono h ?_ <;> rintro ⟨_ | _, _⟩ _ h <;> exact h

/-- One call of a lifted method, in a world that answers every call in one way. -/
theorem wp_answer_comap {f : Sig.Hom S T} {answer : Answer T W} {c : S.Call}
    {Q : S.Val c → σ → W → Prop} {E : S.Err → σ → W → Prop} {s : σ} {w : W}
    (h : match f.reply c (answer w (f.call c)).1 with
      | .ok v => Q v s (answer w (f.call c)).2
      | .error e => E e s (answer w (f.call c)).2) :
    (perform c : Method S σ (S.Val c)).wp ((answerContext answer).comap f) Q E s w := by
  refine wp_perform.mpr ?_
  rintro _ rfl -
  refine ⟨trivial, ?_, ?_⟩
  · rintro v w' ⟨r', hreply, hstep⟩ _
    rw [← hstep, hreply] at h
    exact h
  · rintro e w' ⟨r', hreply, hstep⟩ _
    rw [← hstep, hreply] at h
    exact h

end Method

end Nodepool.Effect
