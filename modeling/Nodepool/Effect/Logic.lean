import Nodepool.Effect.Program

/-!
Weakest preconditions for programs that share a world with other threads.

A `Context` says how one thread sees the world: what its calls can do (`step`),
what the others may do between two of its calls (`rely`), what holds of the
world at all times (`inv`), and what the thread itself must respect when it
makes a call (`req`). `Prog.wp` is the condition under which a program respects
`req` at each of its calls, whatever the others do, and ends in `Q`.

For methods there are two forms. `Method.wp` separates the normal and the
exceptional exit; its equations unfold a body call by call. `Keeps` is the
frequent special case of an assertion that both exits preserve; its rules follow
the syntax of the body.
-/

namespace Nodepool.Effect

/-- How one thread sees the world it shares. -/
structure Context (S : Sig) (W : Type) where
  step : W → (c : S.Call) → S.Reply c → W → Prop
  rely : W → W → Prop
  inv : W → Prop
  req : W → S.Call → Prop

variable {S : Sig} {W σ α β : Type}

/-! ### Programs -/

namespace Prog

def wp (Γ : Context S W) : Prog S α → (α → W → Prop) → W → Prop
  | .pure a, Q, w => Q a w
  | .call c k, Q, w => ∀ w₁, Γ.rely w w₁ → Γ.inv w₁ → Γ.req w₁ c ∧
      ∀ r w₂, Γ.step w₁ c r w₂ → Γ.inv w₂ → (k r).wp Γ Q w₂

variable {Γ : Context S W}

theorem wp_mono {p : Prog S α} {Q Q' : α → W → Prop} {w : W}
    (h : p.wp Γ Q w) (imp : ∀ a w, Q a w → Q' a w) : p.wp Γ Q' w := by
  induction p generalizing w with
  | pure a => exact imp a w h
  | call c k ih =>
      intro w₁ hr hi
      obtain ⟨hq, hk⟩ := h w₁ hr hi
      exact ⟨hq, fun r w₂ hs hi₂ => ih r (hk r w₂ hs hi₂)⟩

theorem wp_and {p : Prog S α} {Q Q' : α → W → Prop} {w : W}
    (h : p.wp Γ Q w) (h' : p.wp Γ Q' w) : p.wp Γ (fun a w => Q a w ∧ Q' a w) w := by
  induction p generalizing w with
  | pure a => exact ⟨h, h'⟩
  | call c k ih =>
      intro w₁ hr hi
      obtain ⟨hq, hk⟩ := h w₁ hr hi
      exact ⟨hq, fun r w₂ hs hi₂ => ih r (hk r w₂ hs hi₂) ((h' w₁ hr hi).2 r w₂ hs hi₂)⟩

theorem wp_bind {p : Prog S α} {f : α → Prog S β} {Q : β → W → Prop} {w : W} :
    (p.bind f).wp Γ Q w ↔ p.wp Γ (fun a => (f a).wp Γ Q) w := by
  induction p generalizing w with
  | pure a => rfl
  | call c k ih =>
      simp only [call_bind, wp]
      refine forall_congr' fun w₁ => forall_congr' fun _ => forall_congr' fun _ =>
        and_congr_right fun _ => forall_congr' fun r => forall_congr' fun w₂ =>
        forall_congr' fun _ => forall_congr' fun _ => ih r

/-- A weakest precondition survives whatever the other threads do, if they
compose and the postcondition does. -/
theorem wp_rely {p : Prog S α} {Q : α → W → Prop} {w w' : W}
    (trans : ∀ {a b c}, Γ.rely a b → Γ.rely b c → Γ.rely a c)
    (stable : ∀ {a w w'}, Q a w → Γ.rely w w' → Γ.inv w' → Q a w')
    (h : p.wp Γ Q w) (hr : Γ.rely w w') (hi : Γ.inv w') : p.wp Γ Q w' := by
  cases p with
  | pure a => exact stable h hr hi
  | call c k => exact fun w₁ hr₁ hi₁ => h w₁ (trans hr hr₁) hi₁

end Prog

/-! ### Methods -/

namespace Method

/-- `Q` holds at every normal exit and `E` at every exceptional one. -/
def wp (Γ : Context S W) (m : Method S σ α) (Q : α → σ → W → Prop)
    (E : S.Err → σ → W → Prop) (s : σ) (w : W) : Prop :=
  (m s).wp Γ (fun out w => match out.1 with
    | .ok a => Q a out.2 w
    | .error e => E e out.2 w) w

variable {Γ : Context S W} {Q : α → σ → W → Prop} {E : S.Err → σ → W → Prop} {s : σ} {w : W}

@[simp] theorem wp_pure {a : α} : (pure a : Method S σ α).wp Γ Q E s w ↔ Q a s w := Iff.rfl

@[simp] theorem wp_raise {e : S.Err} : (raise e : Method S σ α).wp Γ Q E s w ↔ E e s w := Iff.rfl

@[simp] theorem wp_throw {e : S.Err} : (throw e : Method S σ α).wp Γ Q E s w ↔ E e s w := Iff.rfl

@[simp] theorem wp_self {Q : σ → σ → W → Prop} :
    (self : Method S σ σ).wp Γ Q E s w ↔ Q s s w := Iff.rfl

@[simp] theorem wp_assign {f : σ → σ} {Q : Unit → σ → W → Prop} :
    (assign f : Method S σ Unit).wp Γ Q E s w ↔ Q () (f s) w := Iff.rfl

@[simp] theorem wp_bind {m : Method S σ α} {f : α → Method S σ β} {Q : β → σ → W → Prop} :
    (m >>= f).wp Γ Q E s w ↔ m.wp Γ (fun a => (f a).wp Γ Q E) E s w := by
  change ((m s).bind _).wp Γ _ w ↔ _
  rw [Prog.wp_bind]
  constructor <;> intro h <;> refine Prog.wp_mono h ?_ <;> rintro ⟨_ | _, _⟩ _ h <;> exact h

@[simp] theorem wp_tryCatch {m : Method S σ α} {h : S.Err → Method S σ α} :
    (tryCatch m h).wp Γ Q E s w ↔ m.wp Γ Q (fun e => (h e).wp Γ Q E) s w := by
  change ((m s).bind _).wp Γ _ w ↔ _
  rw [Prog.wp_bind]
  constructor <;> intro h <;> refine Prog.wp_mono h ?_ <;> rintro ⟨_ | _, _⟩ _ h <;> exact h

@[simp] theorem wp_attempt {m : Method S σ α} {Q : Except S.Err α → σ → W → Prop} :
    (attempt m).wp Γ Q E s w ↔ m.wp Γ (fun a => Q (.ok a)) (fun e => Q (.error e)) s w := by
  change ((m s).bind _).wp Γ _ w ↔ _
  rw [Prog.wp_bind]
  constructor <;> intro h <;> refine Prog.wp_mono h ?_ <;> rintro ⟨_ | _, _⟩ _ h <;> exact h

@[simp] theorem wp_perform {c : S.Call} {Q : S.Val c → σ → W → Prop} :
    (perform c : Method S σ (S.Val c)).wp Γ Q E s w ↔
      ∀ w₁, Γ.rely w w₁ → Γ.inv w₁ → Γ.req w₁ c ∧
        (∀ v w₂, Γ.step w₁ c (.ok v) w₂ → Γ.inv w₂ → Q v s w₂) ∧
        ∀ e w₂, Γ.step w₁ c (.error e) w₂ → Γ.inv w₂ → E e s w₂ := by
  refine forall_congr' fun w₁ => forall_congr' fun _ => forall_congr' fun _ =>
    and_congr_right fun _ => ?_
  constructor
  · exact fun h => ⟨fun v => h (.ok v), fun e => h (.error e)⟩
  · rintro ⟨ok, error⟩ (e | v)
    · exact error e
    · exact ok v

theorem wp_mono {m : Method S σ α} {Q' : α → σ → W → Prop} {E' : S.Err → σ → W → Prop}
    (h : m.wp Γ Q E s w) (normal : ∀ a s w, Q a s w → Q' a s w)
    (exceptional : ∀ e s w, E e s w → E' e s w) : m.wp Γ Q' E' s w := by
  refine Prog.wp_mono h ?_
  rintro ⟨_ | a, s'⟩ w' h
  · exact exceptional _ s' w' h
  · exact normal a s' w' h

theorem wp_and {m : Method S σ α} {Q' : α → σ → W → Prop} {E' : S.Err → σ → W → Prop}
    (h : m.wp Γ Q E s w) (h' : m.wp Γ Q' E' s w) :
    m.wp Γ (fun a s w => Q a s w ∧ Q' a s w) (fun e s w => E e s w ∧ E' e s w) s w := by
  refine Prog.wp_mono (Prog.wp_and h h') ?_
  rintro ⟨_ | _, _⟩ _ h
  · exact h
  · exact h

/-- One call, from an assertion `P` of the world that the others preserve. -/
theorem wp_call {c : S.Call} {Q : S.Val c → σ → W → Prop} {P : W → Prop}
    (stable : ∀ {w w'}, P w → Γ.rely w w' → Γ.inv w' → P w') (hP : P w)
    (hreq : ∀ w, P w → Γ.inv w → Γ.req w c)
    (ok : ∀ v w w', P w → Γ.inv w → Γ.step w c (.ok v) w' → Γ.inv w' → Q v s w')
    (error : ∀ e w w', P w → Γ.inv w → Γ.step w c (.error e) w' → Γ.inv w' → E e s w') :
    (perform c : Method S σ (S.Val c)).wp Γ Q E s w := by
  refine wp_perform.mpr fun w₁ hr hi => ?_
  have hP₁ := stable hP hr hi
  exact ⟨hreq w₁ hP₁ hi, fun v w₂ => ok v w₁ w₂ hP₁ hi, fun e w₂ => error e w₁ w₂ hP₁ hi⟩

/-- **Loop rule.** The assertion may speak of the elements that are still to come. -/
theorem wp_fold_rest {f : β → α → Method S σ β} {J : List α → β → σ → W → Prop} {as : List α}
    {b : β} (round : ∀ a rest b s w, J (a :: rest) b s w → (f b a).wp Γ (J rest) E s w)
    (h : J as b s w) : (fold f as b).wp Γ (J []) E s w := by
  induction as generalizing b s w with
  | nil => exact h
  | cons a as ih =>
      exact wp_bind.mpr (wp_mono (round a as b s w h) (fun _ _ _ h' => ih h') fun _ _ _ h => h)

/-- What each round of a loop keeps, the loop keeps. -/
theorem wp_fold {f : β → α → Method S σ β} {J : β → σ → W → Prop} {as : List α} {b : β}
    (round : ∀ a ∈ as, ∀ b s w, J b s w → (f b a).wp Γ J E s w) (h : J b s w) :
    (fold f as b).wp Γ J E s w := by
  have loop := wp_fold_rest (J := fun rest b s w => rest ⊆ as ∧ J b s w) (f := f)
    (b := b) (s := s) (w := w) (E := E) (Γ := Γ) ?_ ⟨List.Subset.refl as, h⟩
  · exact wp_mono loop (fun _ _ _ h => h.2) fun _ _ _ h => h
  · rintro a rest b s w ⟨hsub, h⟩
    refine wp_mono (round a (hsub List.mem_cons_self) b s w h) ?_ fun _ _ _ h => h
    exact fun _ _ _ h' => ⟨fun x hx => hsub (List.mem_cons_of_mem a hx), h'⟩

theorem wp_forEach {f : α → Method S σ Unit} {J : σ → W → Prop} {as : List α}
    (round : ∀ a s w, J s w → (f a).wp Γ (fun _ => J) E s w) (h : J s w) :
    (forEach as f).wp Γ (fun _ => J) E s w := by
  induction as generalizing s w with
  | nil => exact h
  | cons a as ih =>
      exact wp_bind.mpr (wp_mono (round a s w h) (fun _ _ _ h' => ih h') fun _ _ _ h => h)

/-- What every round of `gather` says of its elements holds of all of them. -/
theorem wp_gather_forall {f : α → Method S σ (List β)} {J : σ → W → Prop} {p : β → Prop}
    {as : List α} (round : ∀ a ∈ as, ∀ s w, J s w →
      (f a).wp Γ (fun bs s w => J s w ∧ ∀ b ∈ bs, p b) E s w) (h : J s w) :
    (gather as f).wp Γ (fun bs s w => J s w ∧ ∀ b ∈ bs, p b) E s w := by
  induction as generalizing s w with
  | nil => exact ⟨h, fun b hb => absurd hb List.not_mem_nil⟩
  | cons a as ih =>
      refine wp_bind.mpr (wp_mono (round a List.mem_cons_self s w h) ?_ fun _ _ _ h => h)
      rintro bs s₁ w₁ ⟨h₁, hbs⟩
      refine wp_bind.mpr (wp_mono (ih (fun a' ha' => round a' (List.mem_cons_of_mem a ha')) h₁) ?_
        fun _ _ _ h => h)
      rintro bs' s₂ w₂ ⟨h₂, hbs'⟩
      exact ⟨h₂, fun b hb => (List.mem_append.mp hb).elim (hbs b) (hbs' b)⟩

/-! ### Assertions that a method keeps -/

/-- From `A`, method `m` ends in `A` again, whether it returns or raises. -/
def Keeps (Γ : Context S W) (A : σ → W → Prop) (m : Method S σ α) : Prop :=
  ∀ s w, A s w → m.wp Γ (fun _ => A) (fun _ => A) s w

namespace Keeps

variable {A : σ → W → Prop}

theorem pure {a : α} : Keeps Γ A (pure a : Method S σ α) := fun _ _ h => h

theorem throw {e : S.Err} : Keeps Γ A (throw e : Method S σ α) := fun _ _ h => h

theorem self : Keeps Γ A (Method.self : Method S σ σ) := fun _ _ h => h

theorem assign {f : σ → σ} (h : ∀ s w, A s w → A (f s) w) :
    Keeps Γ A (Method.assign f : Method S σ Unit) := h

theorem bind {m : Method S σ α} {f : α → Method S σ β} (hm : Keeps Γ A m)
    (hf : ∀ a, Keeps Γ A (f a)) : Keeps Γ A (m >>= f) := fun s w h =>
  Method.wp_bind.mpr (Method.wp_mono (hm s w h) hf fun _ _ _ h => h)

theorem tryCatch {m : Method S σ α} {f : S.Err → Method S σ α} (hm : Keeps Γ A m)
    (hf : ∀ e, Keeps Γ A (f e)) : Keeps Γ A (tryCatch m f) := fun s w h =>
  Method.wp_tryCatch.mpr (Method.wp_mono (hm s w h) (fun _ _ _ h => h) hf)

theorem attempt {m : Method S σ α} (hm : Keeps Γ A m) : Keeps Γ A (Method.attempt m) :=
  fun s w h => Method.wp_attempt.mpr (hm s w h)

theorem ite {b : Prop} [Decidable b] {m m' : Method S σ α} (h : Keeps Γ A m)
    (h' : Keeps Γ A m') : Keeps Γ A (if b then m else m') := by
  split
  · exact h
  · exact h'

theorem perform {c : S.Call}
    (stable : ∀ {s w w'}, A s w → Γ.rely w w' → Γ.inv w' → A s w')
    (hreq : ∀ s w, A s w → Γ.inv w → Γ.req w c)
    (hstep : ∀ s w r w', A s w → Γ.inv w → Γ.step w c r w' → Γ.inv w' → A s w') :
    Keeps Γ A (Method.perform c : Method S σ (S.Val c)) := fun s _ h =>
  Method.wp_call (P := A s) stable h (hreq s) (fun v w w' => hstep s w (.ok v) w')
    fun e w w' => hstep s w (.error e) w'

theorem forEach_mem {f : α → Method S σ Unit} {as : List α} (hf : ∀ a ∈ as, Keeps Γ A (f a)) :
    Keeps Γ A (Method.forEach as f) := by
  induction as with
  | nil => exact pure
  | cons a as ih =>
      exact bind (hf a List.mem_cons_self) fun _ =>
        ih fun a' ha' => hf a' (List.mem_cons_of_mem a ha')

theorem forEach {f : α → Method S σ Unit} (hf : ∀ a, Keeps Γ A (f a)) (as : List α) :
    Keeps Γ A (Method.forEach as f) :=
  forEach_mem fun a _ => hf a

theorem gather {f : α → Method S σ (List β)} (hf : ∀ a, Keeps Γ A (f a)) (as : List α) :
    Keeps Γ A (Method.gather as f) := by
  induction as with
  | nil => exact pure
  | cons a as ih => exact bind (hf a) fun _ => bind ih fun _ => pure

end Keeps

/-! ### Assertions that nothing takes away -/

/-- Neither the others nor a call of the thread itself takes `B` away. -/
structure Lasting (Γ : Context S W) (B : W → Prop) : Prop where
  rely : ∀ {w w'}, B w → Γ.rely w w' → Γ.inv w' → B w'
  step : ∀ {c r w w'}, B w → Γ.inv w → Γ.req w c → Γ.step w c r w' → Γ.inv w' → B w'

namespace Lasting

variable {B : W → Prop}

theorem all {C : α → W → Prop} (h : ∀ a, Lasting Γ (C a)) (as : List α) :
    Lasting Γ fun w => ∀ a ∈ as, C a w where
  rely hC hr hi a ha := (h a).rely (hC a ha) hr hi
  step hC hi hq hs hi' a ha := (h a).step (hC a ha) hi hq hs hi'

/-- **Frame rule** for what lasts. -/
theorem wp (h : Lasting Γ B) {m : Method S σ α} (hm : m.wp Γ Q E s w) (hB : B w) :
    m.wp Γ (fun a s w => Q a s w ∧ B w) (fun e s w => E e s w ∧ B w) s w := by
  have key : ∀ {R : Except S.Err α × σ → W → Prop} (p : Prog S (Except S.Err α × σ)) (w : W),
      p.wp Γ R w → B w → p.wp Γ (fun out w => R out w ∧ B w) w := by
    intro R p
    induction p with
    | pure a => exact fun w hp hB => ⟨hp, hB⟩
    | call c k ih =>
        intro w hp hB w₁ hr hi
        obtain ⟨hq, hk⟩ := hp w₁ hr hi
        have hB₁ := h.rely hB hr hi
        exact ⟨hq, fun r w₂ hs hi₂ => ih r w₂ (hk r w₂ hs hi₂) (h.step hB₁ hi hq hs hi₂)⟩
  refine Prog.wp_mono (key (m s) w hm hB) ?_
  rintro ⟨_ | _, _⟩ _ h
  · exact h
  · exact h

/-- A loop over elements of each of which something lasting is known. -/
theorem wp_forEach {C : α → W → Prop} (h : ∀ a, Lasting Γ (C a)) {f : α → Method S σ Unit}
    (round : ∀ a s w, C a w → (f a).wp Γ (fun _ _ _ => True) (fun _ _ _ => True) s w)
    {as : List α} (hC : ∀ a ∈ as, C a w) :
    (forEach as f).wp Γ (fun _ _ _ => True) (fun _ _ _ => True) s w := by
  induction as generalizing s w with
  | nil => trivial
  | cons a as ih =>
      refine wp_bind.mpr (wp_mono ((all h as).wp (round a s w (hC a List.mem_cons_self))
        fun a' ha' => hC a' (List.mem_cons_of_mem a ha')) ?_ fun _ _ _ _ => trivial)
      exact fun _ _ _ h => ih h.2

/-- What each round says of its elements, if it lasts, holds of all of them at the end. -/
theorem wp_gather {C : β → W → Prop} (h : ∀ b, Lasting Γ (C b)) {f : α → Method S σ (List β)}
    (round : ∀ a s w, (f a).wp Γ (fun bs _ w => ∀ b ∈ bs, C b w) (fun _ _ _ => True) s w)
    {as : List α} :
    (gather as f).wp Γ (fun bs _ w => ∀ b ∈ bs, C b w) (fun _ _ _ => True) s w := by
  induction as generalizing s w with
  | nil => exact fun b hb => absurd hb List.not_mem_nil
  | cons a as ih =>
      refine wp_bind.mpr (wp_mono (round a s w) (fun bs s₁ w₁ h₁ => ?_) fun _ _ _ _ => trivial)
      refine wp_bind.mpr (wp_mono ((all h bs).wp ih h₁) (fun bs' s₂ w₂ h₂ => ?_)
        fun _ _ _ _ => trivial)
      exact fun b hb => (List.mem_append.mp hb).elim (h₂.2 b) (h₂.1 b)

end Lasting

end Method

end Nodepool.Effect
