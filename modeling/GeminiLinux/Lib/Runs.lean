import Mathlib

/-! Machines that take one event after another. A run is the list of its events; `step` says what each
    does to the state.

        s ──e₁──▶ s₁ ──e₂──▶ s₂ ──▶ ...

    `Always P` is a property of every state of a run, the first one included, `Steps Good` one of every
    step, said of the state it is taken in and of its event. An invariant gives the first; where
    each step that is not good spoils the property at once, the two are the same thing. Where it does
    so only later, they are once the property is made one of what can still come (`Stays`). -/

namespace GeminiLinux.Runs

variable {σ ε : Type} (step : σ → ε → σ)

/-- The state a run ends in. -/
def run (s : σ) (es : List ε) : σ := es.foldl step s

/-- `P` holds of every state of the run. -/
def Always (P : σ → Prop) : σ → List ε → Prop
  | s, [] => P s
  | s, e :: es => P s ∧ Always P (step s e) es

/-- Every step of the run is `Good`. -/
def Steps (Good : σ → ε → Prop) : σ → List ε → Prop
  | _, [] => True
  | s, e :: es => Good s e ∧ Steps Good (step s e) es

variable {step}

@[simp] theorem run_nil (s : σ) : run step s [] = s := rfl

@[simp] theorem run_cons (s : σ) (e : ε) (es : List ε) : run step s (e :: es) =
  run step (step s e) es := rfl

theorem Always.head {P : σ → Prop} {s : σ} : ∀ {es : List ε}, Always step P s es → P s
  | [], h => h
  | _ :: _, h => h.1

theorem Always.last {P : σ → Prop} {s : σ} {es : List ε} (h : Always step P s es) :
    P (run step s es) := by
  induction es generalizing s with
  | nil => exact h
  | cons e es ih => exact ih h.2

theorem Always.mono {P Q : σ → Prop} {s : σ} {es : List ε} (h : Always step P s es)
    (hPQ : ∀ s, P s → Q s) : Always step Q s es := by
  induction es generalizing s with
  | nil => exact hPQ s h
  | cons e es ih => exact ⟨hPQ s h.1, ih h.2⟩

/-! ### Invariants -/

section Invariant

variable {Inv P : σ → Prop} {Good : σ → ε → Prop} {Event : ε → Prop}

/-- What every good step is from a state of the invariant, it is throughout a run of good steps. -/
theorem steps_of_steps {Good' : σ → ε → Prop} (hInv : ∀ s e, Inv s → Good s e → Inv (step s e))
    (hGood : ∀ s e, Inv s → Good s e → Good' s e) {s : σ} {es : List ε} (hs : Inv s)
    (hes : Steps step Good s es) : Steps step Good' s es := by
  induction es generalizing s with
  | nil => trivial
  | cons e es ih => exact ⟨hGood s e hs hes.1, ih (hInv s e hs hes.1) hes.2⟩

theorem steps_of_inv (hInv : ∀ s e, Inv s → Inv (step s e)) (hGood : ∀ s e, Inv s → Good s e) {s : σ}
    (hs : Inv s) (es : List ε) : Steps step Good s es := by
  induction es generalizing s with
  | nil => trivial
  | cons e es ih => exact ⟨hGood s e hs, ih (hInv s e hs)⟩

theorem always_of_inv (hInv : ∀ s e, Inv s → Inv (step s e)) {s : σ} (hs : Inv s) (es : List ε) :
    Always step Inv s es := by
  induction es generalizing s with
  | nil => exact hs
  | cons e es ih => exact ⟨hs, ih (hInv s e hs)⟩

/-- If the good steps keep an invariant with `P`, and a step that is not good loses `P` at once, then
    `P` holds of every state exactly if every step is good. The events may be of one kind only. -/
theorem always_iff_steps (hP : ∀ s, Inv s → P s)
    (hgood : ∀ s e, Event e → Inv s → Good s e → Inv (step s e))
    (hbad : ∀ s e, Event e → Inv s → ¬ Good s e → ¬ P (step s e))
    {s : σ} {es : List ε} (hs : Inv s) (hes : ∀ e ∈ es, Event e) :
    Always step P s es ↔ Steps step Good s es := by
  induction es generalizing s with
  | nil => exact ⟨fun _ => trivial, fun _ => hP s hs⟩
  | cons e es ih =>
    have he : Event e := hes e List.mem_cons_self
    have hrest : ∀ e ∈ es, Event e := fun e' he' => hes e' (List.mem_cons_of_mem e he')
    by_cases hg : Good s e
    · have hs' : Inv (step s e) := hgood s e he hs hg
      exact ⟨fun h => ⟨hg, (ih hs' hrest).mp h.2⟩, fun h => ⟨hP s hs, (ih hs' hrest).mpr h.2⟩⟩
    · exact ⟨fun h => absurd h.2.head (hbad s e he hs hg), fun h => absurd h.1 hg⟩

/-- A run of good steps keeps the invariant, and what it gives. -/
theorem always_of_steps (hP : ∀ s, Inv s → P s) (hgood : ∀ s e, Inv s → Good s e → Inv (step s e))
    {s : σ} {es : List ε} (hs : Inv s) (hes : Steps step Good s es) : Always step P s es := by
  induction es generalizing s with
  | nil => exact hP s hs
  | cons e es ih => exact ⟨hP s hs, ih (hgood s e hs hes.1) hes.2⟩

end Invariant

/-- Allowed steps that bring a rank down, as long as there is something to do, lead to where there is nothing. -/
theorem exists_steps_of_rank {Inv Done : σ → Prop} {Allowed : σ → ε → Prop} (rank : σ → ℕ)
    (hInv : ∀ s e, Inv s → Allowed s e → Inv (step s e))
    (hrank : ∀ s, Inv s → ¬ Done s → ∃ e, Allowed s e ∧ rank (step s e) < rank s) {s : σ} (hs : Inv s) :
    ∃ es, Steps step Allowed s es ∧ Done (run step s es) := by
  induction hn : rank s using Nat.strong_induction_on generalizing s with
  | _ n ih =>
    by_cases hdone : Done s
    · exact ⟨[], trivial, hdone⟩
    · obtain ⟨e, he, hlt⟩ := hrank s hs hdone
      obtain ⟨es, hes, hend⟩ := ih _ (hn ▸ hlt) (hInv s e hs he) rfl
      exact ⟨e :: es, ⟨he, hes⟩, hend⟩

/-! ### What can still come -/

section Stays

variable (step) (Calm : σ → ε → Prop) (P : σ → Prop)

/-- `P` holds and goes on to hold along every run of calm steps. -/
def Stays (s : σ) : Prop := ∀ es, Steps step Calm s es → Always step P s es

variable {step Calm P}

theorem Stays.next {s : σ} {e : ε} (h : Stays step Calm P s) (he : Calm s e) :
    Stays step Calm P (step s e) := fun es hes => (h (e :: es) ⟨he, hes⟩).2

/-- A bad state from which calm steps lead on, through bad ones, until `P` is lost. -/
theorem not_stays {Bad : σ → Prop} (rank : σ → ℕ)
    (hbad : ∀ s, Bad s → ∃ e, Calm s e ∧
      (¬ P (step s e) ∨ Bad (step s e) ∧ rank (step s e) < rank s)) {s : σ} (hs : Bad s) :
    ¬ Stays step Calm P s := by
  induction hn : rank s using Nat.strong_induction_on generalizing s with
  | _ n ih =>
    intro h
    obtain ⟨e, hcalm, hlost | ⟨hnext, hrank⟩⟩ := hbad s hs
    · exact hlost (h.next hcalm [] trivial)
    · exact ih _ (hn ▸ hrank) hnext rfl (h.next hcalm)

/-- If the good steps keep an invariant with `P`, the calm ones are good, and a step that is not good
    leads to a state from which calm steps can lose `P`, then `P` is never in danger exactly if every
    step is good. -/
theorem always_stays_iff_steps {Inv : σ → Prop} {Good : σ → ε → Prop} (hP : ∀ s, Inv s → P s)
    (hgood : ∀ s e, Inv s → Good s e → Inv (step s e)) (hcalm : ∀ s e, Calm s e → Good s e)
    (hbad : ∀ s e, Inv s → ¬ Good s e → ¬ Stays step Calm P (step s e)) {s : σ} (hs : Inv s)
    (es : List ε) : Always step (Stays step Calm P) s es ↔ Steps step Good s es := by
  have hstays (s : σ) (hs : Inv s) : Stays step Calm P s := fun es hes =>
    always_of_steps hP (fun s e hs he => hgood s e hs (hcalm s e he)) hs hes
  have hkeep (s : σ) (e : ε) (_ : True) (hs : Inv s) (he : Good s e) : Inv (step s e) := hgood s e hs he
  have hlose (s : σ) (e : ε) (_ : True) (hs : Inv s) (he : ¬ Good s e) :
      ¬ Stays step Calm P (step s e) := hbad s e hs he
  exact always_iff_steps hstays hkeep hlose hs fun _ _ => trivial

end Stays

end GeminiLinux.Runs
