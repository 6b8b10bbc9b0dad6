import Nodepool.Effect.Footprint
import Nodepool.Effect.Run

/-!
Objects whose methods run one after another, because each of them holds one lock.

Between two calls of a method nothing else happens to the object, so a method is one step
of the object: `Exec` relates the world and the attributes before it to those after it,
whatever the calls return. `Serial.Run ok` are the runs all of whose steps satisfy `ok`,
which speaks of the state before the step and of the operation.
-/

namespace Nodepool.Effect

variable {S : Sig} {W σ α : Type}

/-- A program that runs alone, with a reply to each call that the world allows. -/
inductive Prog.Exec (next : W → (c : S.Call) → S.Reply c → W → Prop) :
    Prog S α → W → α → W → Prop where
  | pure (a : α) (w : W) : Exec next (.pure a) w a w
  | call {c : S.Call} {k : S.Reply c → Prog S α} {w w₁ w₂ : W} {r : S.Reply c} {a : α}
      (reply : next w c r w₁) (rest : Exec next (k r) w₁ a w₂) : Exec next (.call c k) w a w₂

/-- The context of a method that runs alone. -/
def aloneContext (next : W → (c : S.Call) → S.Reply c → W → Prop) : Context S W where
  step := next
  rely := Eq
  inv _ := True
  req _ _ := True

theorem Prog.Exec.sound {next : W → (c : S.Call) → S.Reply c → W → Prop} {p : Prog S α}
    {Q : α → W → Prop} {w w' : W} {a : α} (h : p.Exec next w a w')
    (hp : p.wp (aloneContext next) Q w) : Q a w' := by
  induction h with
  | pure a w => exact hp
  | call reply rest ih => exact ih ((hp _ rfl trivial).2 _ _ reply trivial)

/-- What a world answers that allows its own answers. -/
theorem Prog.exec_runAlone {next : W → (c : S.Call) → S.Reply c → W → Prop}
    {answer : Answer S W} (allowed : ∀ w c, next w c (answer w c).1 (answer w c).2)
    (p : Prog S α) (w : W) :
    p.Exec next w (p.runAlone answer w).1 (p.runAlone answer w).2 := by
  induction p generalizing w with
  | pure a => exact .pure a w
  | call c k ih => exact .call (allowed w c) (ih _ _)

/-- An assertion about a world that every call keeps. -/
theorem Method.Stable.alone {next : W → (c : S.Call) → S.Reply c → W → Prop} {P : S.Call → Prop}
    {B : W → Prop} (step : ∀ {c r w w'}, P c → B w → next w c r w' → B w') :
    Stable (aloneContext next) P B where
  rely hB e _ := by cases e; exact hB
  req _ _ _ := trivial
  step hc hB _ h _ := step hc hB h

/-- A method that runs alone respects its context, whatever it does. -/
theorem Method.wp_alone {next : W → (c : S.Call) → S.Reply c → W → Prop} (m : Method S σ α)
    (s : σ) (w : W) :
    m.wp (aloneContext next) (fun _ _ _ => True) (fun _ _ _ => True) s w := by
  have prog (p : Prog S (Except S.Err α × σ)) (w : W) :
      p.wp (aloneContext next) (fun _ _ => True) w := by
    induction p generalizing w with
    | pure a => trivial
    | call c k ih => exact fun _ _ _ => ⟨trivial, fun r w _ _ => ih r w⟩
  refine Prog.wp_mono (prog (m s) w) ?_
  rintro ⟨_ | _, _⟩ _ - <;> trivial

/-- The context of a method that runs alone in a world that answers every call in one way. -/
abbrev answerContext (answer : Answer S W) : Context S W :=
  aloneContext fun w c r w' => (r, w') = answer w c

theorem Method.wp_answer {answer : Answer S W} {c : S.Call} {Q : S.Val c → σ → W → Prop}
    {X : S.Err → σ → W → Prop} {s : σ} {w : W}
    (h : match answer w c with
      | (.ok v, w') => Q v s w'
      | (.error e, w') => X e s w') :
    (perform c : Method S σ (S.Val c)).wp (answerContext answer) Q X s w := by
  refine wp_perform.mpr ?_
  rintro _ rfl -
  refine ⟨trivial, ?_, ?_⟩
  · intro v w' hstep _
    rw [← hstep] at h
    exact h
  · intro e w' hstep _
    rw [← hstep] at h
    exact h

/-- What a method that is run alone ends with. -/
theorem Method.runAlone_of_wp {answer : Answer S W} {m : Method S σ α} {Q : α → σ → W → Prop}
    {X : S.Err → σ → W → Prop} {s : σ} {w : W} (h : m.wp (answerContext answer) Q X s w) :
    match m.runAlone answer s w with
    | ((.ok a, s'), w') => Q a s' w'
    | ((.error e, s'), w') => X e s' w' := by
  have exec : (m s).Exec (fun w c r w' => (r, w') = answer w c) w
      ((m s).runAlone answer w).1 ((m s).runAlone answer w).2 :=
    Prog.exec_runAlone (fun _ _ => rfl) (m s) w
  have := exec.sound h
  unfold runAlone
  cases hrun : (m s).runAlone answer w with
  | mk out w' =>
      obtain ⟨result, s'⟩ := out
      rw [hrun] at this
      cases result <;> exact this

structure Serial (S : Sig) (W σ : Type) where
  Op : Type
  body : Op → Method S σ Unit
  next : W → (c : S.Call) → S.Reply c → W → Prop

namespace Serial

variable (T : Serial S W σ)

/-- One operation; whether it returns or raises is not observed. -/
inductive Step : σ → W → T.Op → σ → W → Prop where
  | op {s s' : σ} {w w' : W} (op : T.Op) {result : Except S.Err Unit}
      (exec : (T.body op s).Exec T.next w (result, s') w') : Step s w op s' w'

/-- The runs from `s₀` and `w₀` whose steps all satisfy `ok` in the state they start from. -/
inductive Run (ok : σ → W → T.Op → Prop) (s₀ : σ) (w₀ : W) : σ → W → Prop where
  | refl : Run ok s₀ w₀ s₀ w₀
  | tail {s s' : σ} {w w' : W} {op : T.Op} : Run ok s₀ w₀ s w → ok s w op → T.Step s w op s' w' →
      Run ok s₀ w₀ s' w'

variable {T}

abbrev ctx (T : Serial S W σ) : Context S W := aloneContext T.next

/-- What a method establishes at both of its exits holds after the step. -/
theorem Step.sound {s s' : σ} {w w' : W} {op : T.Op} (step : T.Step s w op s' w') {P : σ → W → Prop}
    (h : (T.body op).wp T.ctx (fun _ => P) (fun _ => P) s w) : P s' w' := by
  cases step with
  | op _ exec =>
      rename_i result
      have := exec.sound h
      cases result <;> exact this

/-- **Invariant rule.** -/
theorem Run.invariant {ok : σ → W → T.Op → Prop} {I : σ → W → Prop} {s₀ s : σ} {w₀ w : W}
    (run : T.Run ok s₀ w₀ s w) (init : I s₀ w₀)
    (step : ∀ s w op, I s w → ok s w op →
      (T.body op).wp T.ctx (fun _ s w => I s w) (fun _ s w => I s w) s w) : I s w := by
  induction run with
  | refl => exact init
  | tail _ hok hs ih => exact hs.sound (step _ _ _ ih hok)

/-- The operations one after another, in a world that answers every call in one way. -/
def replay (answer : Answer S W) (s : σ) (w : W) : List T.Op → σ × W
  | [] => (s, w)
  | op :: ops =>
      let out := (T.body op s).runAlone answer w
      replay answer out.1.2 out.2 ops

theorem Run.trans {ok : σ → W → T.Op → Prop} {s s' s'' : σ} {w w' w'' : W}
    (h : T.Run ok s w s' w') (h' : T.Run ok s' w' s'' w'') : T.Run ok s w s'' w'' := by
  induction h' with
  | refl => exact h
  | tail _ hok hs ih => exact .tail ih hok hs

/-- Each operation is allowed in the state that it meets in the replay. -/
def Allowed (ok : σ → W → T.Op → Prop) (answer : Answer S W) : σ → W → List T.Op → Prop
  | _, _, [] => True
  | s, w, op :: ops =>
      let out := (T.body op s).runAlone answer w
      ok s w op ∧ Allowed ok answer out.1.2 out.2 ops

theorem Allowed.of_forall {ok : σ → W → T.Op → Prop} {answer : Answer S W} {ops : List T.Op}
    {s : σ} {w : W} (hok : ∀ op ∈ ops, ∀ s w, ok s w op) : Allowed ok answer s w ops := by
  induction ops generalizing s w with
  | nil => exact trivial
  | cons op ops ih =>
      exact ⟨hok op List.mem_cons_self s w, ih fun op' h => hok op' (List.mem_cons_of_mem _ h)⟩

/-- Whatever allowed operations replay to is reached by a run. -/
theorem replay_run_of_allowed {ok : σ → W → T.Op → Prop} {answer : Answer S W}
    (allowed : ∀ w c, T.next w c (answer w c).1 (answer w c).2) {ops : List T.Op} {s : σ} {w : W}
    (hok : Allowed ok answer s w ops) :
    T.Run ok s w (replay answer s w ops).1 (replay answer s w ops).2 := by
  induction ops generalizing s w with
  | nil => exact .refl
  | cons op ops ih =>
      have step := Step.op (T := T) op (Prog.exec_runAlone allowed (T.body op s) w)
      have first := Run.tail .refl hok.1 step
      exact first.trans (ih hok.2)

/-- Operations that are allowed in every state can be replayed. -/
theorem replay_run {ok : σ → W → T.Op → Prop} {answer : Answer S W}
    (allowed : ∀ w c, T.next w c (answer w c).1 (answer w c).2) {ops : List T.Op} {s : σ} {w : W}
    (hok : ∀ op ∈ ops, ∀ s w, ok s w op) :
    T.Run ok s w (replay answer s w ops).1 (replay answer s w ops).2 :=
  replay_run_of_allowed allowed (.of_forall hok)

end Serial

end Nodepool.Effect
