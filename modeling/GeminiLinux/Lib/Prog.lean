import Mathlib

/-! Programs over a machine state that may fail. A program is an `EStateM`: it returns a value or
    fails with an error, and the state it has reached stays either way, as it does in a driver that
    leaves a function early.

    Three judgments. `Within R p`: every run of `p`, returning or failing, goes from a state to an
    `R`-later one, for a preorder `R` (a frame condition, an invariant, a log that only grows).
    `Establishes P p Q`: from a state with `P`, `p` fails or returns in one with `Q`. `Ends P p Q E`:
    from a state with `P`, `p` returns with `Q` or fails with `E`. Each has one rule per way of building
    a program. -/

namespace GeminiLinux.Prog

variable {σ ε α β : Type}

/-- A sequence of two steps returns only if both do. -/
theorem bind_eq_ok {x : Except ε α} {f : α → Except ε β} {b : β} (h : x >>= f = .ok b) :
    ∃ a, x = .ok a ∧ f a = .ok b := by
  rcases x with e | a
  · cases h
  · exact ⟨a, rfl, h⟩

/-- The state a run ends in. -/
def finalState (p : EStateM ε σ α) (s : σ) : σ :=
  match p s with
  | .ok _ s' => s'
  | .error _ s' => s'

/-- What a run returns or fails with. -/
def outcome (p : EStateM ε σ α) (s : σ) : Except ε α :=
  match p s with
  | .ok a _ => .ok a
  | .error e _ => .error e

/-- Run `p` and keep its outcome as a value: the `ret = p(); if (ret) ...` of C. -/
def attempt (p : EStateM ε σ α) : EStateM ε σ (Except ε α) := fun s =>
  match p s with
  | .ok a s' => .ok (.ok a) s'
  | .error e s' => .ok (.error e) s'

theorem bind_apply (p : EStateM ε σ α) (f : α → EStateM ε σ β) (s : σ) :
    (p >>= f) s = match p s with
      | .ok a s' => f a s'
      | .error e s' => .error e s' := by
  show EStateM.bind p f s = _
  unfold EStateM.bind
  cases p s <;> rfl

@[simp] theorem pure_apply (a : α) (s : σ) : (pure a : EStateM ε σ α) s = .ok a s := rfl

@[simp] theorem throw_apply (e : ε) (s : σ) : (throw e : EStateM ε σ α) s = .error e s := rfl

@[simp] theorem get_apply (s : σ) : (get : EStateM ε σ σ) s = .ok s s := rfl

@[simp] theorem modify_apply (f : σ → σ) (s : σ) :
    (modify f : EStateM ε σ PUnit) s = .ok ⟨⟩ (f s) := rfl

@[simp] theorem set_apply (s s' : σ) : (set s' : EStateM ε σ PUnit) s = .ok ⟨⟩ s' := rfl

@[simp] theorem modifyGet_apply (f : σ → α × σ) (s : σ) :
    (modifyGet f : EStateM ε σ α) s = .ok (f s).1 (f s).2 := rfl

@[simp] theorem ofExcept_ok_apply (a : α) (s : σ) :
    (MonadExcept.ofExcept (.ok a) : EStateM ε σ α) s = .ok a s := rfl

@[simp] theorem finalState_attempt (p : EStateM ε σ α) (s : σ) :
    finalState (attempt p) s = finalState p s := by
  unfold finalState attempt
  cases p s <;> rfl

@[simp] theorem outcome_attempt (p : EStateM ε σ α) (s : σ) :
    outcome (attempt p) s = .ok (outcome p s) := by
  unfold outcome attempt
  cases p s <;> rfl

@[simp] theorem finalState_ofExcept (r : Except ε α) (s : σ) :
    finalState (MonadExcept.ofExcept r : EStateM ε σ α) s = s := by cases r <;> rfl

@[simp] theorem finalState_get (s : σ) : finalState (get : EStateM ε σ σ) s = s := rfl

@[simp] theorem finalState_modify (f : σ → σ) (s : σ) :
    finalState (modify f : EStateM ε σ PUnit) s = f s := rfl

@[simp] theorem outcome_get (s : σ) : outcome (get : EStateM ε σ σ) s = .ok s := rfl

@[simp] theorem outcome_modify (f : σ → σ) (s : σ) :
    outcome (modify f : EStateM ε σ PUnit) s = .ok ⟨⟩ := rfl

@[simp] theorem outcome_modifyGet (f : σ → α × σ) (s : σ) :
    outcome (modifyGet f : EStateM ε σ α) s = .ok (f s).1 := rfl

@[simp] theorem outcome_ofExcept (r : Except ε α) (s : σ) :
    outcome (MonadExcept.ofExcept r : EStateM ε σ α) s = r := by cases r <;> rfl

theorem finalState_bind (p : EStateM ε σ α) (f : α → EStateM ε σ β) (s : σ) :
    finalState (p >>= f) s = match outcome p s with
      | .ok a => finalState (f a) (finalState p s)
      | .error _ => finalState p s := by
  unfold finalState outcome
  rw [bind_apply]
  cases p s <;> rfl

/-- The state after `n` runs of `p`, one after another. -/
def after (p : EStateM ε σ α) (n : ℕ) (s : σ) : σ := (finalState p)^[n] s

theorem after_succ (p : EStateM ε σ α) (n : ℕ) (s : σ) :
    after p (n + 1) s = finalState p (after p n s) := Function.iterate_succ_apply' ..

section Bind

variable {p : EStateM ε σ α} {s : σ} {a : α} {e : ε}

theorem finalState_bind_ok (f : α → EStateM ε σ β) (h : outcome p s = .ok a) :
    finalState (p >>= f) s = finalState (f a) (finalState p s) := by
  rw [finalState_bind, h]

theorem finalState_bind_error (f : α → EStateM ε σ β) (h : outcome p s = .error e) :
    finalState (p >>= f) s = finalState p s := by
  rw [finalState_bind, h]

theorem outcome_bind_ok (f : α → EStateM ε σ β) (h : outcome p s = .ok a) :
    outcome (p >>= f) s = outcome (f a) (finalState p s) := by
  unfold finalState outcome at *
  rw [bind_apply]
  cases hr : p s with
  | ok a' s' =>
    rw [hr] at h
    cases h
    rfl
  | error e s' =>
    rw [hr] at h
    cases h

theorem outcome_bind_error (f : α → EStateM ε σ β) (h : outcome p s = .error e) :
    outcome (p >>= f) s = .error e := by
  unfold outcome at *
  rw [bind_apply]
  cases hr : p s with
  | ok a' s' =>
    rw [hr] at h
    cases h
  | error e' s' =>
    rw [hr] at h
    cases h
    rfl

theorem finalState_bind_pure (f : α → β) : finalState (p >>= fun a => Pure.pure (f a)) s =
    finalState p s := by
  rw [finalState_bind]
  rcases outcome p s with e | a <;> rfl

end Bind

/-! ### Leaving early -/

/-- Run `p`; if it fails, run `undo` first and then fail with the same error. -/
def onError (p : EStateM ε σ α) (undo : ε → EStateM ε σ PUnit) : EStateM ε σ α := do
  match ← attempt p with
  | .ok a => pure a
  | .error e => do
    undo e
    throw e

section OnError

variable {p : EStateM ε σ α} {undo : ε → EStateM ε σ PUnit} {s : σ}

theorem outcome_onError (h : ∀ e s, outcome (undo e) s = .ok ⟨⟩) :
    outcome (onError p undo) s = outcome p s := by
  rw [onError, outcome_bind_ok _ (outcome_attempt p s)]
  rcases outcome p s with e | a
  · rw [outcome_bind_ok _ (h e _)]
    rfl
  · rfl

theorem finalState_onError_ok {a : α} (h : outcome p s = .ok a) :
    finalState (onError p undo) s = finalState p s := by
  rw [onError, finalState_bind_ok _ (outcome_attempt p s), finalState_attempt, h]
  rfl

theorem finalState_onError_error {e : ε} (h : outcome p s = .error e) :
    finalState (onError p undo) s = finalState (undo e) (finalState p s) := by
  rw [onError, finalState_bind_ok _ (outcome_attempt p s), finalState_attempt, h, finalState_bind]
  rcases outcome (undo e) (finalState p s) with e' | _
  · rfl
  · rfl

end OnError

/-! ### Trying again -/

/-- Run `p` until it returns, at most `n + 1` times; what it fails with the last time stays. -/
def retry (p : EStateM ε σ α) : ℕ → EStateM ε σ α
  | 0 => p
  | n + 1 => do
    match ← attempt p with
    | .ok a => pure a
    | .error _ => retry p n

/-! ### Programs over a part of the state -/

/-- Run `p` on the part of the state that `part` reads and `put` puts back. -/
def zoom {τ : Type} (part : σ → τ) (put : τ → σ → σ) (p : EStateM ε τ α) : EStateM ε σ α := fun s =>
  match p (part s) with
  | .ok a t => .ok a (put t s)
  | .error e t => .error e (put t s)

theorem finalState_zoom {τ : Type} (part : σ → τ) (put : τ → σ → σ) (p : EStateM ε τ α) (s : σ) :
    finalState (zoom part put p) s = put (finalState p (part s)) s := by
  unfold zoom finalState
  cases hr : p (part s) <;> simp only [hr]

theorem outcome_zoom {τ : Type} (part : σ → τ) (put : τ → σ → σ) (p : EStateM ε τ α) (s : σ) :
    outcome (zoom part put p) s = outcome p (part s) := by
  unfold zoom outcome
  cases hr : p (part s) <;> simp only [hr]

/-! ### What every run keeps -/

section Within

variable (R : σ → σ → Prop)

/-- Every run of `p` ends in a state `R`-later than the one it starts in. -/
def Within (p : EStateM ε σ α) : Prop := ∀ s, R s (finalState p s)

variable {R}

theorem Within.pure [Std.Refl R] (a : α) : Within R (pure a : EStateM ε σ α) := fun s => Std.Refl.refl s

theorem Within.throw [Std.Refl R] (e : ε) : Within R (throw e : EStateM ε σ α) := fun s => Std.Refl.refl s

theorem Within.get [Std.Refl R] : Within R (get : EStateM ε σ σ) := fun s => Std.Refl.refl s

theorem Within.modify {f : σ → σ} (h : ∀ s, R s (f s)) :
    Within R (modify f : EStateM ε σ PUnit) := fun s => h s

theorem Within.attempt {p : EStateM ε σ α} (h : Within R p) : Within R (attempt p) := fun s => by
  rw [finalState_attempt]; exact h s

theorem Within.ofExcept [Std.Refl R] (r : Except ε α) :
    Within R (MonadExcept.ofExcept r : EStateM ε σ α) := fun s => by
  rw [finalState_ofExcept]; exact Std.Refl.refl s

theorem Within.bind [IsTrans σ R] {p : EStateM ε σ α} {f : α → EStateM ε σ β}
    (hp : Within R p) (hf : ∀ a, Within R (f a)) : Within R (p >>= f) := by
  intro s
  rw [finalState_bind]
  rcases outcome p s with e | a
  · exact hp s
  · exact IsTrans.trans _ _ _ (hp s) (hf a _)

/-- The rule for a program whose values are all of one kind. -/
theorem Within.bind_of [IsTrans σ R] {A : α → Prop} {p : EStateM ε σ α} {f : α → EStateM ε σ β}
    (hp : Within R p) (hA : ∀ s a, outcome p s = .ok a → A a) (hf : ∀ a, A a → Within R (f a)) :
    Within R (p >>= f) := by
  intro s
  rw [finalState_bind]
  rcases hout : outcome p s with e | a
  · exact hp s
  · exact IsTrans.trans _ _ _ (hp s) (hf a (hA s a hout) _)

/-- What a program goes on with leads to a later state than the one it goes on from. -/
theorem Within.tail [Std.Refl R] {f : α → EStateM ε σ β} (hf : ∀ a, Within R (f a))
    (p : EStateM ε σ α) (s : σ) : R (finalState p s) (finalState (p >>= f) s) := by
  rw [finalState_bind]
  rcases outcome p s with e | a
  · exact Std.Refl.refl _
  · exact hf a _

theorem Within.onError [Std.Refl R] [IsTrans σ R] {p : EStateM ε σ α} {undo : ε → EStateM ε σ PUnit}
    (hp : Within R p) (hundo : ∀ e, Within R (undo e)) : Within R (onError p undo) := by
  refine .bind (.attempt hp) fun r => ?_
  rcases r with e | a
  · exact .bind (hundo e) fun _ => .throw e
  · exact .pure a

theorem Within.retry [Std.Refl R] [IsTrans σ R] {p : EStateM ε σ α} (hp : Within R p) (n : ℕ) :
    Within R (retry p n) := by
  induction n with
  | zero => exact hp
  | succ n ih =>
    refine .bind (.attempt hp) fun r => ?_
    rcases r with e | a
    · exact ih
    · exact .pure a

theorem Within.mono {R' : σ → σ → Prop} {p : EStateM ε σ α} (h : Within R p)
    (hR : ∀ s s', R s s' → R' s s') : Within R' p := fun s => hR _ _ (h s)

/-- Running `p` again and again leads to a later state. -/
theorem Within.after [Std.Refl R] [IsTrans σ R] {p : EStateM ε σ α} (h : Within R p) (s : σ) :
    ∀ n, R s (Prog.after p n s) := by
  intro n
  induction n with
  | zero => exact Std.Refl.refl s
  | succ n ih =>
    rw [after_succ]
    exact IsTrans.trans _ _ _ ih (h _)

end Within

/-- A part of the state stays as it is. -/
def Keeps {β : Type} (part : σ → β) (s s' : σ) : Prop := part s' = part s

instance {β : Type} {part : σ → β} : Std.Refl (Keeps part) := ⟨fun _ => rfl⟩

instance {β : Type} {part : σ → β} : IsTrans σ (Keeps part) := ⟨fun _ _ _ h h' => h'.trans h⟩

/-! ### Logs -/

/-- The log only grows. -/
def Appends {β : Type} (log : σ → List β) (s s' : σ) : Prop := log s <+: log s'

instance {β : Type} {log : σ → List β} : Std.Refl (Appends log) := ⟨fun _ => List.prefix_rfl⟩

instance {β : Type} {log : σ → List β} : IsTrans σ (Appends log) := ⟨fun _ _ _ h h' => h.trans h'⟩

/-- What holds of all entries of a log held of all entries before. -/
theorem Appends.forall {β : Type} {log : σ → List β} {P : β → Prop} {s s' : σ} (h : Appends log s s')
    (hall : ∀ b ∈ log s', P b) : ∀ b ∈ log s, P b := fun b hb => hall b (h.subset hb)

/-! ### What a run that returns establishes -/

/-- From a state with `P`, `p` fails or returns in one with `Q`. -/
def Establishes (P : σ → Prop) (p : EStateM ε σ α) (Q : σ → Prop) : Prop :=
  ∀ s, P s → ∀ a, outcome p s = .ok a → Q (finalState p s)

section Establishes

variable {P Q : σ → Prop} {p : EStateM ε σ α}

theorem Establishes.throw (e : ε) : Establishes P (throw e : EStateM ε σ α) Q := by
  intro s _ a ha
  cases ha

theorem Establishes.bind {I : σ → Prop} {f : α → EStateM ε σ β} (hp : Establishes P p I)
    (hf : ∀ a, Establishes I (f a) Q) : Establishes P (p >>= f) Q := by
  intro s hs b hb
  rcases hout : outcome p s with e | a
  · rw [outcome_bind_error _ hout] at hb
    cases hb
  · rw [outcome_bind_ok _ hout] at hb
    rw [finalState_bind_ok _ hout]
    exact hf a _ (hp s hs a hout) b hb

theorem Establishes.of_within {R : σ → σ → Prop} (hp : Within R p)
    (h : ∀ s s', P s → R s s' → Q s') : Establishes P p Q := fun s hs _ _ => h _ _ hs (hp s)

end Establishes

/-! ### What a run ends in either way -/

/-- From a state with `P`, `p` returns a value and a state with `Q` or fails in a state with `E`. -/
def Ends (P : σ → Prop) (p : EStateM ε σ α) (Q : α → σ → Prop) (E : ε → σ → Prop) : Prop :=
  ∀ s, P s → match p s with
    | .ok a s' => Q a s'
    | .error e s' => E e s'

section Ends

variable {P P' : σ → Prop} {p : EStateM ε σ α} {Q : α → σ → Prop} {E : ε → σ → Prop}

theorem Ends.pure {a : α} (h : ∀ s, P s → Q a s) : Ends P (pure a : EStateM ε σ α) Q E := h

theorem Ends.throw {e : ε} (h : ∀ s, P s → E e s) : Ends P (throw e : EStateM ε σ α) Q E := h

theorem Ends.get {Q : σ → σ → Prop} (h : ∀ s, P s → Q s s) : Ends P (get : EStateM ε σ σ) Q E := h

theorem Ends.modify {f : σ → σ} {Q : PUnit → σ → Prop} (h : ∀ s, P s → Q ⟨⟩ (f s)) :
    Ends P (modify f : EStateM ε σ PUnit) Q E := h

theorem Ends.modifyGet {f : σ → α × σ} (h : ∀ s, P s → Q (f s).1 (f s).2) :
    Ends P (modifyGet f : EStateM ε σ α) Q E := h

theorem Ends.ofExcept {r : Except ε α} (hok : ∀ s a, r = .ok a → P s → Q a s)
    (herror : ∀ s e, r = .error e → P s → E e s) :
    Ends P (MonadExcept.ofExcept r : EStateM ε σ α) Q E := by
  rcases r with e | a
  · exact fun s hs => herror s e rfl hs
  · exact fun s hs => hok s a rfl hs

theorem Ends.bind {I : α → σ → Prop} {Q : β → σ → Prop} {f : α → EStateM ε σ β} (hp : Ends P p I E)
    (hf : ∀ a, Ends (I a) (f a) Q E) : Ends P (p >>= f) Q E := by
  intro s hs
  have hps := hp s hs
  rw [bind_apply]
  cases hr : p s with
  | ok a s' =>
    rw [hr] at hps
    exact hf a s' hps
  | error e s' =>
    rw [hr] at hps
    exact hps

/-- A case distinction on what holds before. -/
theorem Ends.cases {C : Prop} [Decidable C] {q : EStateM ε σ α} (hp : C → Ends P p Q E)
    (hq : ¬ C → Ends P q Q E) : Ends P (if C then p else q) Q E := by
  split_ifs with h
  · exact hp h
  · exact hq h

theorem Ends.mono {Q' : α → σ → Prop} {E' : ε → σ → Prop} (h : Ends P p Q E) (hP : ∀ s, P' s → P s)
    (hQ : ∀ a s, Q a s → Q' a s) (hE : ∀ e s, E e s → E' e s) : Ends P' p Q' E' := by
  intro s hs
  have hps := h s (hP s hs)
  cases hr : p s with
  | ok a s' =>
    rw [hr] at hps
    exact hQ a s' hps
  | error e s' =>
    rw [hr] at hps
    exact hE e s' hps

theorem Ends.post {Q' : α → σ → Prop} {E' : ε → σ → Prop} (h : Ends P p Q E) (hQ : ∀ a s, Q a s → Q' a s)
    (hE : ∀ e s, E e s → E' e s) : Ends P p Q' E' := h.mono (fun _ h => h) hQ hE

theorem Ends.returning {Q' : α → σ → Prop} (h : Ends P p Q E) (hQ : ∀ a s, Q a s → Q' a s) :
    Ends P p Q' E :=
  h.post hQ fun _ _ h => h

theorem Ends.failing {E' : ε → σ → Prop} (h : Ends P p Q E) (hE : ∀ e s, E e s → E' e s) : Ends P p Q E' :=
  h.post (fun _ _ h => h) hE

/-- A program that does not fail ends so whatever a failure would mean. -/
theorem Ends.noError (h : Ends P p Q fun _ _ => False) : Ends P p Q E := h.failing fun _ _ h => h.elim

/-- From one state of those that are allowed. -/
theorem Ends.starting (h : Ends P p Q E) {s : σ} (hs : P s) : Ends (· = s) p Q E :=
  h.mono (fun _ heq => heq ▸ hs) (fun _ _ h => h) fun _ _ h => h

/-- A fact in front that does not speak of the state may be used at once. -/
theorem Ends.of_and {C : Prop} (h : C → Ends P p Q E) : Ends (fun s => C ∧ P s) p Q E :=
  fun s hs => h hs.1 s hs.2

theorem Ends.of_exists {ι : Type} {P : ι → σ → Prop} (h : ∀ i, Ends (P i) p Q E) :
    Ends (fun s => ∃ i, P i s) p Q E := fun s ⟨i, hs⟩ => h i s hs

/-- A program that begins by reading the state. -/
theorem Ends.read {Q : β → σ → Prop} {f : σ → EStateM ε σ β}
    (h : ∀ s, P s → Ends (· = s) (f s) Q E) : Ends P (EStateM.get >>= f) Q E := by
  intro s hs
  rw [bind_apply]
  exact h s hs s rfl

theorem Ends.attempt {Q : Except ε α → σ → Prop} (h : Ends P p (fun a => Q (.ok a)) fun e => Q (.error e)) :
    Ends P (attempt p) Q E := by
  intro s hs
  have hps := h s hs
  unfold Prog.attempt
  cases hr : p s with
  | ok a s' =>
    rw [hr] at hps
    exact hps
  | error e s' =>
    rw [hr] at hps
    exact hps

theorem Ends.onError {undo : ε → EStateM ε σ PUnit} {F : ε → σ → Prop} (hp : Ends P p Q F)
    (hundo : ∀ e, Ends (F e) (undo e) (fun _ => E e) E) : Ends P (onError p undo) Q E := by
  refine .bind (I := fun r s => r.casesOn (fun e => F e s) fun a => Q a s) (.attempt hp) fun r => ?_
  rcases r with e | a
  · exact .bind (hundo e) fun _ => .throw fun _ hs => hs
  · exact .pure fun _ hs => hs

/-- Trying again, where a failure leaves what a try needs. -/
theorem Ends.retry (hp : Ends P p Q E) (hE : ∀ e s, E e s → P s) (n : ℕ) : Ends P (retry p n) Q E := by
  induction n with
  | zero => exact hp
  | succ n ih =>
    refine .bind (I := fun r s => r.casesOn (fun e => E e s) fun a => Q a s) (.attempt hp) fun r => ?_
    rcases r with e | a
    · exact ih.mono (hE e) (fun _ _ hs => hs) fun _ _ hs => hs
    · exact .pure fun _ hs => hs

theorem Ends.zoom {τ : Type} {part : σ → τ} {put : τ → σ → σ} {P : τ → Prop} {p : EStateM ε τ α}
    {Q : α → τ → Prop} {E : ε → τ → Prop} {P' : σ → Prop} {Q' : α → σ → Prop} {E' : ε → σ → Prop}
    (h : Ends P p Q E) (hP : ∀ s, P' s → P (part s)) (hQ : ∀ s a t, P' s → Q a t → Q' a (put t s))
    (hE : ∀ s e t, P' s → E e t → E' e (put t s)) : Ends P' (zoom part put p) Q' E' := by
  intro s hs
  have hps := h (part s) (hP s hs)
  unfold Prog.zoom
  cases hr : p (part s) with
  | ok a t =>
    rw [hr] at hps
    exact hQ s a t hs hps
  | error e t =>
    rw [hr] at hps
    exact hE s e t hs hps

/-- A loop over the indices below `n`, by an invariant of the index. -/
theorem Ends.forRange {I : ℕ → σ → Prop} {body : ℕ → EStateM ε σ PUnit} {n : ℕ}
    (h : ∀ i < n, Ends (I i) (body i) (fun _ => I (i + 1)) E) :
    Ends (I 0) ((List.range n).forM body) (fun _ => I n) E := by
  induction n with
  | zero => exact .pure fun _ hs => hs
  | succ n ih =>
    rw [List.range_succ, List.forM_eq_forM, List.forM_append]
    refine .bind (ih fun i hi => h i (by omega)) fun _ => ?_
    exact .bind (h n (by omega)) fun _ => .pure fun _ hs => hs

/-- What a program keeps, it ends with. -/
theorem Ends.of_keeps {γ : Type} {part : σ → γ} (h : Within (Keeps part) p) (c : γ) :
    Ends (part · = c) p (fun _ s => part s = c) fun _ s => part s = c := by
  intro s hs
  have hkept : part (finalState p s) = c := (h s).trans hs
  unfold finalState at hkept
  cases hr : p s with
  | ok a s' =>
    rw [hr] at hkept
    exact hkept
  | error e s' =>
    rw [hr] at hkept
    exact hkept

/-- What holds in every later state, a program ends with. -/
theorem Ends.of_within {R : σ → σ → Prop} (h : Within R p) (hR : ∀ s s', P s → R s s' → P s') :
    Ends P p (fun _ => P) fun _ => P := by
  intro s hs
  have hkept : P (finalState p s) := hR _ _ hs (h s)
  unfold finalState at hkept
  cases hr : p s with
  | ok a s' =>
    rw [hr] at hkept
    exact hkept
  | error e s' =>
    rw [hr] at hkept
    exact hkept

/-- A fact that does not speak of the state stays a fact. -/
theorem Ends.fact {C : Prop} (p : EStateM ε σ α) : Ends (fun _ => C) p (fun _ _ => C) fun _ _ => C := by
  intro s hs
  cases p s <;> exact hs

/-- What a program establishes, it ends with if it returns. -/
theorem Establishes.ends {Q : σ → Prop} (h : Establishes P p Q) : Ends P p (fun _ => Q) fun _ _ => True := by
  intro s hs
  have hok := h s hs
  unfold outcome finalState at hok
  cases hr : p s with
  | ok a s' =>
    rw [hr] at hok
    exact hok a rfl
  | error e s' => trivial

/-- Two ends of one program. -/
theorem Ends.and {Q' : α → σ → Prop} {E' : ε → σ → Prop} (h : Ends P p Q E) (h' : Ends P' p Q' E') :
    Ends (fun s => P s ∧ P' s) p (fun a s => Q a s ∧ Q' a s) fun e s => E e s ∧ E' e s := by
  intro s hs
  have hps := h s hs.1
  have hps' := h' s hs.2
  cases hr : p s with
  | ok a s' =>
    rw [hr] at hps hps'
    exact ⟨hps, hps'⟩
  | error e s' =>
    rw [hr] at hps hps'
    exact ⟨hps, hps'⟩

/-- A program that cannot fail from such a state returns. -/
theorem Ends.returns (h : Ends P p Q fun _ _ => False) {s : σ} (hs : P s) :
    ∃ a, outcome p s = .ok a ∧ Q a (finalState p s) := by
  have hps := h s hs
  unfold outcome finalState
  cases hr : p s with
  | ok a s' =>
    rw [hr] at hps
    exact ⟨a, rfl, hps⟩
  | error e s' =>
    rw [hr] at hps
    exact absurd hps id

theorem Ends.final {R : σ → Prop} (h : Ends P p (fun _ => R) fun _ => R) {s : σ} (hs : P s) :
    R (finalState p s) := by
  have hps := h s hs
  unfold finalState
  cases hr : p s with
  | ok a s' =>
    rw [hr] at hps
    exact hps
  | error e s' =>
    rw [hr] at hps
    exact hps

/-- What is known of the end, by what was returned. -/
theorem Ends.final_ok (h : Ends P p Q E) {s : σ} (hs : P s) {a : α} (ha : outcome p s = .ok a) :
    Q a (finalState p s) := by
  have hps := h s hs
  unfold outcome at ha
  unfold finalState
  cases hr : p s with
  | ok b s' =>
    rw [hr] at hps ha
    cases ha
    exact hps
  | error e s' =>
    rw [hr] at ha
    cases ha

/-- A run returns or fails as its end says. -/
theorem Ends.outcome_eq {r : Except ε α} (h : Ends P p (fun a _ => r = .ok a) fun e _ =>
    r = .error e) {s : σ}
    (hs : P s) : outcome p s = r := by
  have hps := h s hs
  unfold outcome
  cases hr : p s with
  | ok a s' =>
    rw [hr] at hps
    exact hps.symm
  | error e s' =>
    rw [hr] at hps
    exact hps.symm

theorem Ends.final_error (h : Ends P p Q E) {s : σ} (hs : P s) {e : ε}
    (he : outcome p s = .error e) : E e (finalState p s) := by
  have hps := h s hs
  unfold outcome at he
  unfold finalState
  cases hr : p s with
  | ok a s' =>
    rw [hr] at he
    cases he
  | error e' s' =>
    rw [hr] at hps he
    cases he
    exact hps

end Ends

end GeminiLinux.Prog
