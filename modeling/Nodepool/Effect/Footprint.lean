import Nodepool.Effect.Logic

/-!
Footprints: which calls a method can make, and which of its attributes it leaves
alone. A footprint mentions no world, so it is proved once for a method; by
`Within.wp` it then gives the frame of the method in every context, that is, any
assertion that the calls of the footprint keep.
-/

namespace Nodepool.Effect

variable {S : Sig} {W σ α β γ : Type}

namespace Prog

/-- Every call satisfies `P`, and every result satisfies `R`. -/
def Within (P : S.Call → Prop) (R : α → Prop) : Prog S α → Prop
  | .pure a => R a
  | .call c k => P c ∧ ∀ r, (k r).Within P R

theorem Within.bind {P : S.Call → Prop} {R : α → Prop} {R' : β → Prop} {p : Prog S α}
    {f : α → Prog S β} (h : p.Within P R) (hf : ∀ a, R a → (f a).Within P R') :
    (p.bind f).Within P R' := by
  induction p with
  | pure a => exact hf a h
  | call c k ih => exact ⟨h.1, fun r => ih r (h.2 r)⟩

theorem Within.mono {P P' : S.Call → Prop} {R R' : α → Prop} {p : Prog S α} (h : p.Within P R)
    (hP : ∀ c, P c → P' c) (hR : ∀ a, R a → R' a) : p.Within P' R' := by
  induction p with
  | pure a => exact hR a h
  | call c k ih => exact ⟨hP c h.1, fun r => ih r (h.2 r)⟩

end Prog

namespace Method

/-- Every call of `m` satisfies `P`, and at every exit the attributes look through
`π` as they did at the entry. -/
def Within (P : S.Call → Prop) (π : σ → γ) (m : Method S σ α) : Prop :=
  ∀ s, (m s).Within P fun out => π out.2 = π s

namespace Within

variable {P : S.Call → Prop} {π : σ → γ}

theorem pure {a : α} : Within P π (pure a : Method S σ α) := fun _ => rfl

theorem throw {e : S.Err} : Within P π (throw e : Method S σ α) := fun _ => rfl

theorem self : Within P π (Method.self : Method S σ σ) := fun _ => rfl

theorem assign {f : σ → σ} (h : ∀ s, π (f s) = π s) :
    Within P π (Method.assign f : Method S σ Unit) := h

theorem perform {c : S.Call} (h : P c) : Within P π (Method.perform c : Method S σ (S.Val c)) :=
  fun _ => ⟨h, fun _ => rfl⟩

theorem bind {m : Method S σ α} {f : α → Method S σ β} (hm : Within P π m)
    (hf : ∀ a, Within P π (f a)) : Within P π (m >>= f) := fun s => by
  refine Prog.Within.bind (hm s) ?_
  rintro ⟨_ | a, s'⟩ hs
  · exact hs
  · exact (hf a s').mono (fun _ h => h) fun _ h => h.trans hs

theorem tryCatch {m : Method S σ α} {f : S.Err → Method S σ α} (hm : Within P π m)
    (hf : ∀ e, Within P π (f e)) : Within P π (tryCatch m f) := fun s => by
  refine Prog.Within.bind (hm s) ?_
  rintro ⟨e | _, s'⟩ hs
  · exact (hf e s').mono (fun _ h => h) fun _ h => h.trans hs
  · exact hs

theorem attempt {m : Method S σ α} (hm : Within P π m) : Within P π (Method.attempt m) :=
  fun s => Prog.Within.bind (hm s) fun _ hs => hs

theorem ite {b : Prop} [Decidable b] {m m' : Method S σ α} (h : Within P π m)
    (h' : Within P π m') : Within P π (if b then m else m') := by
  split
  · exact h
  · exact h'

theorem forEach {f : α → Method S σ Unit} (hf : ∀ a, Within P π (f a)) (as : List α) :
    Within P π (Method.forEach as f) := by
  induction as with
  | nil => exact pure
  | cons a as ih => exact bind (hf a) fun _ => ih

theorem gather {f : α → Method S σ (List β)} (hf : ∀ a, Within P π (f a)) (as : List α) :
    Within P π (Method.gather as f) := by
  induction as with
  | nil => exact pure
  | cons a as ih => exact bind (hf a) fun _ => bind ih fun _ => pure

theorem fold {f : β → α → Method S σ β} (hf : ∀ b a, Within P π (f b a)) (as : List α) (b : β) :
    Within P π (Method.fold f as b) := by
  induction as generalizing b with
  | nil => exact pure
  | cons a as ih => exact bind (hf b a) fun b' => ih b'

theorem mono {P' : S.Call → Prop} {m : Method S σ α} (h : Within P π m)
    (hP : ∀ c, P c → P' c) : Within P' π m :=
  fun s => (h s).mono hP fun _ h => h

/-- Looking at less of the attributes. -/
theorem map {δ : Type} {m : Method S σ α} (h : Within P π m) (g : γ → δ) :
    Within P (fun s => g (π s)) m :=
  fun s => (h s).mono (fun _ h => h) fun _ h => congrArg g h

end Within

/-! ### The frame rule -/

/-- An assertion about the world that the others keep, and that every call of `P`
may be made under and keeps. -/
structure Stable (Γ : Context S W) (P : S.Call → Prop) (B : W → Prop) : Prop where
  rely : ∀ {w w'}, B w → Γ.rely w w' → Γ.inv w' → B w'
  req : ∀ {c w}, P c → B w → Γ.inv w → Γ.req w c
  step : ∀ {c r w w'}, P c → B w → Γ.inv w → Γ.step w c r w' → Γ.inv w' → B w'

theorem Stable.mono {Γ : Context S W} {P P' : S.Call → Prop} {B : W → Prop} (h : Stable Γ P' B)
    (hP : ∀ c, P c → P' c) : Stable Γ P B where
  rely := h.rely
  req hc := h.req (hP _ hc)
  step hc := h.step (hP _ hc)

/-- One call that keeps an assertion. -/
theorem Stable.wp_perform {Γ : Context S W} {P : S.Call → Prop} {B : W → Prop}
    (stable : Stable Γ P B) {c : S.Call} (hc : P c) {s : σ} {w : W} (hB : B w)
    {Q : S.Val c → σ → W → Prop} {E : S.Err → σ → W → Prop}
    (normal : ∀ a w', B w' → Q a s w') (exceptional : ∀ e w', B w' → E e s w') :
    (Method.perform c : Method S σ (S.Val c)).wp Γ Q E s w :=
  wp_call stable.rely hB (fun _ h hi => stable.req hc h hi)
    (fun a _ w' h hi hs hi' => normal a w' (stable.step hc h hi hs hi'))
    fun e _ w' h hi hs hi' => exceptional e w' (stable.step hc h hi hs hi')

/-- **Frame rule.** What the calls of a footprint keep, the method keeps, together
with the attributes it leaves alone. -/
theorem Within.wp {Γ : Context S W} {P : S.Call → Prop} {B : W → Prop} {π : σ → γ}
    {m : Method S σ α} (h : Within P π m) (stable : Stable Γ P B) {s : σ} {w : W} (hB : B w) :
    m.wp Γ (fun _ s' w' => π s' = π s ∧ B w') (fun _ s' w' => π s' = π s ∧ B w') s w := by
  have key : ∀ (p : Prog S (Except S.Err α × σ)) (w : W), B w →
      p.Within P (fun out => π out.2 = π s) →
      p.wp Γ (fun out w' => π out.2 = π s ∧ B w') w := by
    intro p
    induction p with
    | pure a => exact fun w hB hp => ⟨hp, hB⟩
    | call c k ih =>
        intro w hB hp w₁ hr hi
        have hB₁ := stable.rely hB hr hi
        exact ⟨stable.req hp.1 hB₁ hi, fun r w₂ hs hi₂ =>
          ih r w₂ (stable.step hp.1 hB₁ hi hs hi₂) (hp.2 r)⟩
  refine Prog.wp_mono (key (m s) w hB (h s)) ?_
  rintro ⟨_ | _, _⟩ w' h
  · exact h
  · exact h

/-- What the rounds of `gather` establish one by one holds at its end, if the calls
of the later rounds keep it. -/
theorem Within.wp_gather {Γ : Context S W} {P : S.Call → Prop} {π : σ → γ}
    {f : α → Method S σ (List β)} (within : ∀ a, Within P π (f a)) {A : W → Prop}
    {C : α → List β → W → Prop} (hA : Stable Γ P A) (hC : ∀ a bs, Stable Γ P (C a bs))
    {as : List α} (round : ∀ a ∈ as, ∀ s w, A w →
      (f a).wp Γ (fun bs _ w' => C a bs w') (fun _ _ _ => True) s w)
    {s : σ} {w : W} (h : A w) :
    (Method.gather as f).wp Γ (fun bs _ w' => A w' ∧ ∀ a ∈ as, ∃ found, found ⊆ bs ∧ C a found w')
      (fun _ _ _ => True) s w := by
  induction as generalizing s w with
  | nil => exact ⟨h, fun a ha => absurd ha List.not_mem_nil⟩
  | cons a as ih =>
      refine wp_bind.mpr (wp_mono (wp_and (round a List.mem_cons_self s w h)
        ((within a).wp hA h)) ?_ fun _ _ _ _ => trivial)
      rintro found s₁ w₁ ⟨hfound, -, hA₁⟩
      have rest := ih (fun a' ha' => round a' (List.mem_cons_of_mem a ha')) (s := s₁) hA₁
      refine wp_bind.mpr (wp_mono (wp_and rest ((Within.gather within as).wp (hC a found) hfound))
        ?_ fun _ _ _ _ => trivial)
      rintro bs s₂ w₂ ⟨⟨hA₂, hrest⟩, -, hC₂⟩
      refine ⟨hA₂, fun a' ha' => ?_⟩
      rcases List.mem_cons.mp ha' with rfl | ha'
      · exact ⟨found, List.subset_append_left found bs, hC₂⟩
      · obtain ⟨found', hsub, hC'⟩ := hrest a' ha'
        exact ⟨found', List.Subset.trans hsub (List.subset_append_right found bs), hC'⟩

/-- What each round says of its elements holds of all of them at the end, if the calls of the
later rounds keep it. -/
theorem Within.wp_gather_mem {Γ : Context S W} {P : S.Call → Prop} {π : σ → γ}
    {f : α → Method S σ (List β)} (within : ∀ a, Within P π (f a)) {A : W → Prop}
    {C : β → W → Prop} (hA : Stable Γ P A) (hC : ∀ b, Stable Γ P (C b)) {as : List α}
    (round : ∀ a s w, A w →
      (f a).wp Γ (fun bs _ w' => ∀ b ∈ bs, C b w') (fun _ _ _ => True) s w)
    {s : σ} {w : W} (h : A w) :
    (Method.gather as f).wp Γ (fun bs _ w' => A w' ∧ ∀ b ∈ bs, C b w') (fun _ _ _ => True) s w := by
  induction as generalizing s w with
  | nil => exact ⟨h, fun b hb => absurd hb List.not_mem_nil⟩
  | cons a as ih =>
      refine wp_bind.mpr (wp_mono (wp_and (round a s w h) ((within a).wp hA h)) ?_
        fun _ _ _ _ => trivial)
      rintro bs s₁ w₁ ⟨found, -, hA₁⟩
      have all : Stable Γ P fun w => A w ∧ ∀ b ∈ bs, C b w :=
        { rely := fun h hr hi => ⟨hA.rely h.1 hr hi, fun b hb => (hC b).rely (h.2 b hb) hr hi⟩
          req := fun hc h hi => hA.req hc h.1 hi
          step := fun hc h hi hs hi' =>
            ⟨hA.step hc h.1 hi hs hi', fun b hb => (hC b).step hc (h.2 b hb) hi hs hi'⟩ }
      refine wp_bind.mpr (wp_mono (wp_and (ih hA₁) ((Within.gather within as).wp all ⟨hA₁, found⟩))
        ?_ fun _ _ _ _ => trivial)
      rintro bs' s₂ w₂ ⟨⟨hA₂, rest⟩, -, -, first⟩
      exact ⟨hA₂, fun b hb => (List.mem_append.mp hb).elim (first b) (rest b)⟩

end Method

end Nodepool.Effect
