import GeminiLinux.Touch.WorkLock

/-! Who finds the chip occupied. `work_procedure` says so to those that look at it; it is set and set back around the
    chip, and the last one to have set it is still there:

        enter ──▶ set ──▶ chip ──▶ set back
                   │
                   └─ copy_from_user fails: it stays, and so does the interrupt turned off

    With the semaphore in hand one finds it set by those alone that do without, or by the MP test that left it so. -/

namespace GeminiLinux.WorkLock
open Runs Tallies

section Occupied

variable {ι : Type} [Fintype ι] [DecidableEq ι] {s : Sys ι} {i : ι}

/-! ### Who has set it -/

/-- A thread that has set `work_procedure` and has not set it back. -/
def Pc.marks : Pc → Option Cmd
  | .copyFromUser => some .mpTest
  | .busy c => if c = .bare then none else some c
  | .leave c => some c
  | _ => none

theorem marks_entered (c : Cmd) (h : (c != .bare) = true) : c.entered.marks.isSome := by
  revert c
  decide

theorem marks_done (c : Cmd) (h : (Pc.busy c).marks.isSome) : c.done.marks.isSome := by
  revert c
  decide

theorem marks_busy {b c : Cmd} (h : (Pc.busy b).marks = some c) : b ≠ .bare ∧ b = c := by
  rw [Pc.marks] at h
  split_ifs at h with hbare
  exact ⟨hbare, Option.some.inj h⟩

theorem holds_of_marks {k : Pc} {c : Cmd} (h : k.marks = some c) (hc : c.locks = true) : k.holds = 1 := by
  cases k with
  | copyFromUser =>
    cases h
    cases hc
  | busy b =>
    have hcmd : b = c := (marks_busy h).2
    show b.locks.toNat = 1
    rw [hcmd, hc]
    rfl
  | leave c =>
    cases h
    show c.locks.toNat = 1
    rw [hc]
    rfl
  | _ => cases h

theorem locks_of_marks {k : Pc} {c : Cmd} (hsound : k.sound = true) (h : k.marks = some c) (hout : k.excludes = 0) :
    c.locks = true := by
  cases k with
  | copyFromUser => cases hout
  | busy b =>
    obtain ⟨hbare, rfl⟩ := marks_busy h
    cases b with
    | reg | mode | download => rfl
    | mpTest | upgrade | update => cases hout
    | bare => exact absurd rfl hbare
  | leave c =>
    cases h
    cases c with
    | reg | mode | download => rfl
    | mpTest | upgrade | update => cases hout
    | bare => cases hsound
  | _ => cases h

/-- `work_procedure` is set by a thread or `solomon_work` on its way, or by an MP test that failed. -/
def Marked (s : Sys ι) : Prop := s.workProcedure ≠ .noWork → s.failed ≠ 0 ∨ (∃ i, (s.pc i).marks.isSome) ∨
  s.workProcedure = .normalWork ∧ (s.worker = .normal ∨ s.worker = .out ∨ s.worker = .clear)

omit [Fintype ι] in
theorem Marked.goto (h : Marked s) {p k : Pc} (hp : s.pc i = p) (hk : p.marks.isSome → k.marks.isSome)
    {lock irqDepth failed : ℕ} (hfailed : s.failed ≤ failed) :
    Marked { s.goto i k with lock := lock, irqDepth := irqDepth, failed := failed } := by
  intro hset
  obtain hf | ⟨j, hj⟩ | hw := h hset
  · exact .inl (by show failed ≠ 0; omega)
  · refine .inr (.inl ?_)
    by_cases hji : j = i
    · refine ⟨i, ?_⟩
      show (Function.update s.pc i k i).marks.isSome
      rw [Function.update_self]
      rw [hji, hp] at hj
      exact hk hj
    · refine ⟨j, ?_⟩
      show (Function.update s.pc i k j).marks.isSome
      rw [Function.update_of_ne hji]
      exact hj
  · exact .inr (.inr hw)

omit [Fintype ι] in
theorem marked_go (h : Marked s) (i : ι) (hsound : (s.pc i).sound = true) (copied : Bool) : Marked (go s i copied) := by
  unfold go
  cases hpc : s.pc i with
  | idle => exact h
  | disableIrq c => exact h.goto hpc (fun hm => absurd hm Bool.false_ne_true) le_rfl
  | irqWait c =>
    simp only
    split_ifs
    · exact h.goto hpc (fun hm => absurd hm Bool.false_ne_true) le_rfl
    · exact h
  | down c =>
    simp only
    split_ifs
    · exact h
    · exact h.goto hpc (fun hm => absurd hm Bool.false_ne_true) le_rfl
  | check c => exact h.goto hpc (fun hm => absurd hm Bool.false_ne_true) le_rfl
  | enter c =>
    refine fun _ => .inr (.inl ⟨i, ?_⟩)
    show (Function.update s.pc i c.entered i).marks.isSome
    rw [Function.update_self]
    rw [hpc] at hsound
    exact marks_entered c hsound
  | copyFromUser =>
    simp only
    split_ifs
    · exact h.goto hpc (fun _ => rfl) le_rfl
    · exact fun _ => .inl (Nat.succ_ne_zero _)
  | busy c => exact h.goto hpc (marks_done c) le_rfl
  | leave c => exact fun hset => absurd rfl hset
  | reset c => exact h.goto hpc (fun hm => absurd hm Bool.false_ne_true) le_rfl
  | enableIrq c => exact h.goto hpc (fun hm => absurd hm Bool.false_ne_true) le_rfl
  | up c => exact h.goto hpc (fun hm => absurd hm Bool.false_ne_true) le_rfl

omit [Fintype ι] [DecidableEq ι] in
theorem marked_solomonWork (h : Marked s) : Marked (solomonWork s) := by
  have hwork {w : Worker} {lock : ℕ}
      (hw : s.worker = .normal ∨ s.worker = .out ∨ s.worker = .clear → s.workProcedure = .normalWork →
        w = .normal ∨ w = .out ∨ w = .clear) : Marked { s with worker := w, lock := lock } := by
    intro hset
    obtain hf | hj | hn := h hset
    · exact .inl hf
    · exact .inr (.inl hj)
    · exact .inr (.inr ⟨hn.1, hw hn.2 hn.1⟩)
  unfold solomonWork
  cases hw : s.worker with
  | idle => exact h
  | start => exact hwork (by simp [hw])
  | tryLock =>
    simp only
    split_ifs
    · exact hwork (by simp [hw])
    · exact hwork (by simp [hw])
  | spin =>
    simp only
    split_ifs
    · exact h
    · exact hwork (by simp [hw])
  | check => exact hwork (by simp [hw])
  | enter => exact fun _ => .inr (.inr ⟨rfl, .inl rfl⟩)
  | normal => exact hwork fun _ _ => .inr (.inl rfl)
  | intClear => exact hwork (by simp [hw])
  | out => exact hwork fun _ hn => .inr (.inr (if_pos hn))
  | clear => exact fun hset => absurd rfl hset
  | up => exact hwork (by simp [hw])

omit [Fintype ι] in
theorem marked_step (s : Sys ι) (e : Event ι) (hsound : ∀ i, (s.pc i).sound = true) (h : Marked s) :
    Marked (step s e) := by
  cases e with
  | irq =>
    rw [step]
    split_ifs with hon
    · intro hset
      obtain hf | hj | hn := h hset
      · exact .inl hf
      · exact .inr (.inl hj)
      · rw [hon.1] at hn
        simp at hn
    · exact h
  | work => exact marked_solomonWork h
  | call i c =>
    rw [step]
    split_ifs with hidle
    · exact h.goto hidle (fun hm => absurd hm Bool.false_ne_true) le_rfl
    · exact h
  | go i copied => exact marked_go h i (hsound i) copied

/-- `solomon_work` never finds `work_procedure` set, and a command only where an MP test, an upgrade or an update
    is under way or an MP test has failed. -/
structure Blamed (s : Sys ι) : Prop where
  work : s.worker = .check → s.workProcedure = .noWork
  command : ∀ i c, s.pc i = .check c → s.workProcedure ≠ .noWork →
    s.failed ≠ 0 ∨ ∃ j c', (s.pc j).marks = some c' ∧ c'.locks = false

theorem Inv.blame (h : Inv s) (hmarked : Marked s) : Blamed s := by
  refine ⟨fun hcheck => ?_, fun i c hi hset => ?_⟩
  · by_contra hset
    have hworker : s.worker ≠ .idle := by rw [hcheck]; decide
    obtain ⟨hexcludes, hfailed⟩ := h.alone hworker
    have hlock := h.lock
    have hone : s.worker.holds = 1 := by rw [hcheck]; rfl
    obtain hf | ⟨j, hj⟩ | hn := hmarked hset
    · exact hf hfailed
    · have hjex := tally_eq_zero_iff.mp hexcludes j
      have hle := le_tally Pc.holds s.pc j
      obtain ⟨c, hc⟩ := Option.isSome_iff_exists.mp hj
      have := holds_of_marks hc (locks_of_marks (h.sound j) hc hjex)
      omega
    · rw [hcheck] at hn
      simp at hn
  · have hlock := h.lock
    have hhold : (s.pc i).holds = 1 := by rw [hi]; rfl
    have hle := le_tally Pc.holds s.pc i
    obtain hf | ⟨j, hj⟩ | hn := hmarked hset
    · exact .inl hf
    · obtain ⟨c', hc'⟩ := Option.isSome_iff_exists.mp hj
      refine .inr ⟨j, c', hc', ?_⟩
      by_contra hlocks
      have hij : i ≠ j := by
        intro heq
        rw [← heq, hi] at hc'
        cases hc'
      have htwo := add_le_tally Pc.holds s.pc hij
      have := holds_of_marks hc' (Bool.not_eq_false _ ▸ hlocks)
      omega
    · have hone : s.worker.holds = 1 := by obtain hw | hw | hw := hn.2 <;> rw [hw] <;> rfl
      omega

theorem blamed (es : List (Event ι)) : Always step Blamed start es := by
  have hinv (s : Sys ι) (e : Event ι) (h : Inv s ∧ Marked s) : Inv (step s e) ∧ Marked (step s e) :=
    ⟨inv_step s e h.1, marked_step s e h.1.sound h.2⟩
  have hstart : Inv (start : Sys ι) ∧ Marked (start : Sys ι) := ⟨inv_start, fun hset => absurd rfl hset⟩
  exact (always_of_inv hinv hstart es).mono fun _ h => h.1.blame h.2

/-! ### Behind an MP test that failed -/

omit [Fintype ι] in
theorem failed_step (s : Sys ι) (e : Event ι) (h : s.failed ≠ 0) : (step s e).failed ≠ 0 := by
  cases e with
  | irq =>
    rw [step]
    split_ifs <;> exact h
  | work =>
    show (solomonWork s).failed ≠ 0
    unfold solomonWork
    cases s.worker with
    | tryLock | spin =>
      simp only
      split_ifs <;> exact h
    | _ => exact h
  | call i c =>
    rw [step]
    split_ifs <;> exact h
  | go i copied =>
    show (go s i copied).failed ≠ 0
    unfold go
    cases s.pc i with
    | irqWait c | down c =>
      simp only
      split_ifs <;> exact h
    | copyFromUser =>
      simp only
      split_ifs
      · exact h
      · exact Nat.succ_ne_zero _
    | _ => exact h

/-- Where a command is that looks at `work_procedure` and has not found it free. -/
def Pc.barred : Pc → Bool
  | .idle => true
  | .disableIrq c | .irqWait c | .down c | .check c | .enableIrq c | .up c => c.checks
  | _ => false

theorem barred_next (c : Cmd) (h : c.checks = true) : c.start.barred = true ∧ c.masked.barred = true ∧
    c.locked.barred = true ∧ c.left.barred = true ∧ c.enabled.barred = true ∧ c.unlocked.barred = true := by
  revert c
  decide

/-- `work_procedure` stays set, as nobody gets to where it is set back. -/
structure Stuck (s : Sys ι) : Prop where
  inv : Inv s
  failed : s.failed ≠ 0
  set : s.workProcedure ≠ .noWork
  barred : ∀ i, (s.pc i).barred = true

/-- The commands of an event look at `work_procedure`. -/
def CallsChecked (_ : Sys ι) (e : Event ι) : Prop := ∀ i c, e = .call i c → c.checks = true

omit [DecidableEq ι] in
theorem Stuck.idle (h : Stuck s) : s.worker = .idle := by
  by_contra hworker
  exact h.failed (h.inv.alone hworker).2

theorem stuck_step (s : Sys ι) (e : Event ι) (h : Stuck s) (he : CallsChecked s e) : Stuck (step s e) := by
  have hidle := h.idle
  have hgoto {i : ι} {k : Pc} {j : ι} (hk : k.barred = true) : (Function.update s.pc i k j).barred = true := by
    by_cases hj : j = i
    · rw [hj, Function.update_self]
      exact hk
    · rw [Function.update_of_ne hj]
      exact h.barred j
  have hkeep : (step s e).workProcedure ≠ .noWork ∧ ∀ j, ((step s e).pc j).barred = true := by
    cases e with
    | irq =>
      rw [step]
      split_ifs <;> exact ⟨h.set, h.barred⟩
    | work =>
      show (solomonWork s).workProcedure ≠ .noWork ∧ ∀ j, ((solomonWork s).pc j).barred = true
      rw [solomonWork, hidle]
      exact ⟨h.set, h.barred⟩
    | call i c =>
      rw [step]
      split_ifs
      · exact ⟨h.set, fun j => hgoto (barred_next c (he i c rfl)).1⟩
      · exact ⟨h.set, h.barred⟩
    | go i copied =>
      have hi := h.barred i
      show (go s i copied).workProcedure ≠ .noWork ∧ ∀ j, ((go s i copied).pc j).barred = true
      unfold go
      cases hpc : s.pc i with
      | idle => exact ⟨h.set, h.barred⟩
      | disableIrq c =>
        rw [hpc] at hi
        have hwait : (Pc.irqWait c).barred = true := hi
        exact ⟨h.set, fun j => hgoto hwait⟩
      | irqWait c =>
        rw [hpc] at hi
        simp only
        split_ifs
        exact ⟨h.set, fun j => hgoto (barred_next c hi).2.1⟩
      | down c =>
        rw [hpc] at hi
        simp only
        split_ifs
        · exact ⟨h.set, h.barred⟩
        · exact ⟨h.set, fun j => hgoto (barred_next c hi).2.2.1⟩
      | check c =>
        rw [hpc] at hi
        simp only [if_neg h.set]
        exact ⟨h.set, fun j => hgoto (barred_next c hi).2.2.2.1⟩
      | enter c | busy c | leave c | reset c =>
        rw [hpc] at hi
        cases hi
      | copyFromUser =>
        rw [hpc] at hi
        cases hi
      | enableIrq c =>
        rw [hpc] at hi
        exact ⟨h.set, fun j => hgoto (barred_next c hi).2.2.2.2.1⟩
      | up c =>
        rw [hpc] at hi
        exact ⟨h.set, fun j => hgoto (barred_next c hi).2.2.2.2.2⟩
  exact ⟨inv_step s e h.inv, failed_step s e h.failed, hkeep.1, hkeep.2⟩

/-- An MP test whose arguments cannot be copied leaves the interrupt turned off for good: `solomon_work` does not
    run again. And if nothing else was under way, no command that looks at `work_procedure` gets to the chip again. -/
theorem dead {es : List (Event ι)} (h : (run step start es).failed ≠ 0) :
    (∀ es', Always step (fun s => s.worker = .idle) (run step start es) es') ∧
      ((run step start es).workProcedure ≠ .noWork → (∀ i, (run step start es).pc i = .idle) →
        ∀ es', Steps step CallsChecked (run step start es) es' →
          Always step (fun s => ∀ i c, s.pc i ≠ .busy c) (run step start es) es') := by
  have hinv : Inv (run step start es) := inv_run es
  refine ⟨fun es' => ?_, fun hset hidle es' hes' => ?_⟩
  · have hkeep (s : Sys ι) (e : Event ι) (h : Inv s ∧ s.failed ≠ 0) : Inv (step s e) ∧ (step s e).failed ≠ 0 :=
      ⟨inv_step s e h.1, failed_step s e h.2⟩
    refine (always_of_inv hkeep ⟨hinv, h⟩ es').mono fun s hs => ?_
    by_contra hworker
    exact hs.2 (hs.1.alone hworker).2
  · refine always_of_steps (fun s hs i c hi => ?_) stuck_step ⟨hinv, h, hset, fun i => by rw [hidle i]; rfl⟩ hes'
    have hbarred := hs.barred i
    rw [hi] at hbarred
    cases hbarred

/-- One thread, whose MP test fails. -/
def failedTest : List (Event Unit) :=
  [.call () .mpTest, .go () true, .go () true, .go () true, .go () false]

theorem dead_failedTest : (∀ es', Always step (fun s => s.worker = .idle) (run step start failedTest) es') ∧
    ((run step start failedTest).workProcedure ≠ .noWork → (∀ i, (run step start failedTest).pc i = .idle) →
      ∀ es', Steps step CallsChecked (run step start failedTest) es' →
        Always step (fun s => ∀ i c, s.pc i ≠ .busy c) (run step start failedTest) es') :=
  dead (by decide)

end Occupied

end GeminiLinux.WorkLock
