import GeminiLinux.Lib.Runs
import GeminiLinux.Lib.Tally

/-! Who may talk to the vendor's touch chip. The interrupt thread runs `solomon_work`; any number of other threads
    give commands, through the ioctl and through sysfs. They keep apart by three means, and no command uses all:

                     interrupt off   semaphore   work_procedure looked at
        register                        ✓                 ✓
        mode              ✓             ✓                 ✓
        download          ✓             ✓
        MP test           ✓
        upgrade           ✓
        update            ✓
        bare

    The last one uses none, and the upgrade resets the chip once more with the interrupt on again: these two
    accesses alone can meet `solomon_work` at the chip.

    A thread that turns the interrupt off waits until `solomon_work` has returned; `solomon_work` waits for the
    semaphore, spinning. So nobody may turn the interrupt off while it has the semaphore, and nobody does. -/

namespace GeminiLinux.WorkLock
open Runs Tallies

/-- `_ts_work_procedure`, as far as it is used behind the probe. -/
inductive WorkProcedure where
  | noWork | normalWork | inUpgrade | setMode
  deriving DecidableEq

/-- The commands: the register ioctls, `solomon_get_rawdata_str`; `solomon_set_touchmode`,
    `solomon_set_mptest_alone`; `TOUCH_IOCTL_SET_DOWNLOAD`; `TOUCH_IOCTL_MP_TEST`; `ssl_test_mode` with `1` or
    `2`; the update of the `ssdtouch` attribute; and what just goes to the chip: `TOUCH_IOCTL_SW_RESET`,
    `TOUCH_IOCTL_HW_RESET`, `ssl_test_mode` with any other text, and the attribute's read, write and reset. -/
inductive Cmd where
  | reg | mode | download | mpTest | upgrade | update | bare
  deriving DecidableEq

instance : Fintype Cmd where
  elems := {.reg, .mode, .download, .mpTest, .upgrade, .update, .bare}
  complete c := by cases c <;> decide

def Cmd.masks : Cmd → Bool
  | .reg | .bare => false
  | _ => true

def Cmd.locks : Cmd → Bool
  | .reg | .mode | .download => true
  | _ => false

def Cmd.checks : Cmd → Bool
  | .reg | .mode => true
  | _ => false

/-- What it makes of `work_procedure`. -/
def Cmd.procedure : Cmd → WorkProcedure
  | .download | .upgrade | .update => .inUpgrade
  | _ => .setMode

/-- Where a thread is: in front of each access to what it shares with the others. `busy` is at the chip, and so
    is `reset`, on the ways that reset it once `work_procedure` is set back. -/
inductive Pc where
  | idle
  | disableIrq (c : Cmd)
  | irqWait (c : Cmd)
  | down (c : Cmd)
  | check (c : Cmd)
  | enter (c : Cmd)
  | copyFromUser
  | busy (c : Cmd)
  | leave (c : Cmd)
  | reset (c : Cmd)
  | enableIrq (c : Cmd)
  | up (c : Cmd)
  deriving DecidableEq

/-- Where `solomon_work` is: `normal` talks to the chip, and so does `intClear`, on the ways on which there is
    nothing else to do. -/
inductive Worker where
  | idle | start | tryLock | spin | check | enter | normal | intClear | out | clear | up
  deriving DecidableEq

/-- `failed` counts the MP tests whose arguments could not be copied. -/
structure Sys (ι : Type) where
  pc : ι → Pc
  worker : Worker
  lock : ℕ
  irqDepth : ℕ
  workProcedure : WorkProcedure
  failed : ℕ

/-- `copied` is whether the thread's `copy_from_user` succeeds, if that is where it is. -/
inductive Event (ι : Type) where
  | irq
  | work
  | call (i : ι) (c : Cmd)
  | go (i : ι) (copied : Bool)

/-! ### The steps -/

def Cmd.start (c : Cmd) : Pc := if c = .bare then .busy .bare else if c.masks then .disableIrq c else .down c

def Cmd.masked (c : Cmd) : Pc := if c.locks then .down c else .enter c

def Cmd.locked (c : Cmd) : Pc := if c.checks then .check c else .enter c

def Cmd.entered (c : Cmd) : Pc := if c = .mpTest then .copyFromUser else .busy c

def Cmd.done (c : Cmd) : Pc := if c = .bare then .idle else .leave c

/-- Behind the chip, or instead of it. The download gives the semaphore back first, the mode commands turn the
    interrupt on first. -/
def Cmd.left : Cmd → Pc
  | .reg => .up .reg
  | .download => .up .download
  | .update => .reset .update
  | c => .enableIrq c

/-- `ssl_test_mode` resets the chip behind its `ts_enable_irq`. -/
def Cmd.enabled (c : Cmd) : Pc := if c = .mode then .up .mode else if c = .upgrade then .reset .upgrade else .idle

def Cmd.restarted (c : Cmd) : Pc := if c = .update then .enableIrq .update else .idle

def Cmd.unlocked (c : Cmd) : Pc := if c = .download then .enableIrq .download else .idle

/-- `solomon_work`. -/
def solomonWork {ι : Type} (s : Sys ι) : Sys ι :=
  match s.worker with
  | .idle => s
  | .start => { s with worker := if s.workProcedure = .inUpgrade then .idle else .tryLock }
  | .tryLock => if s.lock = 0 then { s with worker := .spin } else { s with worker := .check, lock := s.lock - 1 }
  | .spin => if s.lock = 0 then s else { s with worker := .intClear, lock := s.lock - 1 }
  | .check => { s with worker := if s.workProcedure = .noWork then .enter else .intClear }
  | .enter => { s with worker := .normal, workProcedure := .normalWork }
  | .normal => { s with worker := .out }
  | .intClear => { s with worker := .out }
  | .out => { s with worker := if s.workProcedure = .normalWork then .clear else .up }
  | .clear => { s with worker := .up, workProcedure := .noWork }
  | .up => { s with worker := .idle, lock := s.lock + 1 }

variable {ι : Type}

section Steps

variable [DecidableEq ι]

abbrev Sys.goto (s : Sys ι) (i : ι) (k : Pc) : Sys ι := { s with pc := Function.update s.pc i k }

/-- A thread goes on. It waits in `disable_irq` for `solomon_work` and in `down` for the semaphore. -/
def go (s : Sys ι) (i : ι) (copied : Bool) : Sys ι :=
  match s.pc i with
  | .idle => s
  | .disableIrq c => { s.goto i (.irqWait c) with irqDepth := s.irqDepth + 1 }
  | .irqWait c => if s.worker = .idle then s.goto i c.masked else s
  | .down c => if s.lock = 0 then s else { s.goto i c.locked with lock := s.lock - 1 }
  | .check c => s.goto i (if s.workProcedure = .noWork then .enter c else c.left)
  | .enter c => { s.goto i c.entered with workProcedure := c.procedure }
  | .copyFromUser => if copied then s.goto i (.busy .mpTest) else { s.goto i .idle with failed := s.failed + 1 }
  | .busy c => s.goto i c.done
  | .leave c => { s.goto i c.left with workProcedure := .noWork }
  | .reset c => s.goto i c.restarted
  | .enableIrq c => { s.goto i c.enabled with irqDepth := s.irqDepth - 1 }
  | .up c => { s.goto i c.unlocked with lock := s.lock + 1 }

/-- The interrupt thread starts when the interrupt is on; a thread takes one command after another. -/
def step (s : Sys ι) : Event ι → Sys ι
  | .irq => if s.worker = .idle ∧ s.irqDepth = 0 then { s with worker := .start } else s
  | .work => solomonWork s
  | .call i c => if s.pc i = .idle then s.goto i c.start else s
  | .go i copied => go s i copied

end Steps

/-- Behind the probe. -/
def start : Sys ι := ⟨fun _ => .idle, .idle, 1, 0, .noWork, 0⟩

/-! ### What a thread has -/

def Pc.holds : Pc → ℕ
  | .check _ | .up _ => 1
  | .enter c | .busy c | .leave c => c.locks.toNat
  | .enableIrq c => if c = .mode then 1 else 0
  | _ => 0

def Worker.holds : Worker → ℕ
  | .idle | .start | .tryLock | .spin => 0
  | _ => 1

/-- Behind its `disable_irq`, and in front of its `enable_irq`. -/
def Pc.excludes : Pc → ℕ
  | .down c | .check c | .enter c | .busy c | .leave c => c.masks.toNat
  | .copyFromUser | .enableIrq _ => 1
  | .reset c => if c = .update then 1 else 0
  | .up c => if c = .download then 1 else 0
  | _ => 0

def Pc.masks : Pc → ℕ
  | .irqWait _ => 1
  | k => k.excludes

theorem excludes_le_masks (k : Pc) : k.excludes ≤ k.masks := by
  cases k with
  | irqWait c => exact Nat.zero_le 1
  | _ => exact le_rfl

/-- Each command takes the steps of its own way. -/
def Pc.sound : Pc → Bool
  | .disableIrq c | .irqWait c | .enableIrq c => c.masks
  | .down c | .up c => c.locks
  | .check c => c.checks
  | .enter c | .leave c => c != .bare
  | .reset c => c == .upgrade || c == .update
  | _ => true

/-- A step that takes and gives nothing. -/
structure Keeps (p k : Pc) : Prop where
  sound : k.sound = true
  holds : k.holds = p.holds
  masks : k.masks = p.masks
  excludes : k.excludes = p.excludes

/-! ### The invariant -/

/-- The semaphore is with one, the interrupt is off as often as it has been turned off, and a `solomon_work` is
    under way only if nobody has it turned off. -/
structure Inv [Fintype ι] (s : Sys ι) : Prop where
  sound : ∀ i, (s.pc i).sound = true
  lock : s.lock + tally Pc.holds s.pc + s.worker.holds = 1
  irqDepth : s.irqDepth = tally Pc.masks s.pc + s.failed
  alone : s.worker ≠ .idle → tally Pc.excludes s.pc = 0 ∧ s.failed = 0

theorem inv_start [Fintype ι] : Inv (start : Sys ι) := by
  have hzero (f : Pc → ℕ) (hf : f .idle = 0) : tally f (fun _ : ι => Pc.idle) = 0 :=
    tally_eq_zero_iff.mpr fun _ => hf
  refine ⟨fun _ => rfl, ?_, ?_, fun h => absurd rfl h⟩
  · show 1 + tally Pc.holds (fun _ : ι => Pc.idle) + 0 = 1
    rw [hzero Pc.holds rfl]
  · show 0 = tally Pc.masks (fun _ : ι => Pc.idle) + 0
    rw [hzero Pc.masks rfl]

section Commands

variable (c : Cmd)

instance (p k : Pc) : Decidable (Keeps p k) :=
  decidable_of_iff (k.sound = true ∧ k.holds = p.holds ∧ k.masks = p.masks ∧ k.excludes = p.excludes)
    ⟨fun ⟨hs, hh, hm, he⟩ => ⟨hs, hh, hm, he⟩, fun ⟨hs, hh, hm, he⟩ => ⟨hs, hh, hm, he⟩⟩

theorem keeps_entered : Keeps (.enter c) c.entered := by
  revert c
  decide

theorem keeps_done : Keeps (.busy c) c.done := by
  revert c
  decide

theorem keeps_left (h : (c != .bare) = true) : Keeps (.leave c) c.left := by
  revert c
  decide

theorem keeps_restarted (h : (c == .upgrade || c == .update) = true) : Keeps (.reset c) c.restarted := by
  revert c
  decide

theorem keeps_checked (h : c.checks = true) : Keeps (.check c) (.enter c) ∧ Keeps (.check c) c.left := by
  revert c
  decide

theorem masked_facts (h : c.masks = true) : c.masked.sound = true ∧ c.masked.holds = 0 ∧ c.masked.masks = 1 := by
  revert c
  decide

theorem locked_facts (h : c.locks = true) : c.locked.sound = true ∧ c.locked.holds = 1 ∧
    c.locked.masks = (Pc.down c).masks ∧ c.locked.excludes = (Pc.down c).excludes := by
  revert c
  decide

theorem enabled_facts (h : c.masks = true) : c.enabled.sound = true ∧ c.enabled.holds = (Pc.enableIrq c).holds ∧
    c.enabled.masks = 0 ∧ c.enabled.excludes = 0 := by
  revert c
  decide

theorem unlocked_facts (h : c.locks = true) : c.unlocked.sound = true ∧ c.unlocked.holds = 0 ∧
    c.unlocked.masks = (Pc.up c).masks ∧ c.unlocked.excludes = (Pc.up c).excludes := by
  revert c
  decide

theorem start_facts : c.start.sound = true ∧ c.start.holds = 0 ∧ c.start.masks = 0 ∧ c.start.excludes = 0 := by
  revert c
  decide

end Commands

section Steps

variable [Fintype ι] {s : Sys ι} {i : ι}

/-- `solomon_work` takes the semaphore where it is free and gives back what it has. -/
theorem Inv.work (h : Inv s) {w : Worker} {lock : ℕ} (workProcedure : WorkProcedure)
    (hlock : lock + w.holds = s.lock + s.worker.holds) (hworker : s.worker ≠ .idle) :
    Inv { s with worker := w, lock := lock, workProcedure := workProcedure } := by
  refine ⟨h.sound, ?_, h.irqDepth, fun _ => h.alone hworker⟩
  show lock + tally Pc.holds s.pc + w.holds = 1
  have := h.lock
  omega

theorem inv_solomonWork (h : Inv s) : Inv (solomonWork s) := by
  unfold solomonWork
  cases hw : s.worker with
  | idle => exact h
  | start =>
    refine h.work s.workProcedure ?_ (by rw [hw]; decide)
    rw [hw]
    split_ifs <;> rfl
  | tryLock =>
    simp only
    split_ifs with hfree
    · exact h.work s.workProcedure (by rw [hw]; rfl) (by rw [hw]; decide)
    · refine h.work s.workProcedure ?_ (by rw [hw]; decide)
      rw [hw]
      show s.lock - 1 + 1 = s.lock + 0
      omega
  | spin =>
    simp only
    split_ifs with hfree
    · exact h
    · refine h.work s.workProcedure ?_ (by rw [hw]; decide)
      rw [hw]
      show s.lock - 1 + 1 = s.lock + 0
      omega
  | check =>
    refine h.work s.workProcedure ?_ (by rw [hw]; decide)
    rw [hw]
    split_ifs <;> rfl
  | enter => exact h.work .normalWork (by rw [hw]; rfl) (by rw [hw]; decide)
  | normal => exact h.work s.workProcedure (by rw [hw]; rfl) (by rw [hw]; decide)
  | intClear => exact h.work s.workProcedure (by rw [hw]; rfl) (by rw [hw]; decide)
  | out =>
    refine h.work s.workProcedure ?_ (by rw [hw]; decide)
    rw [hw]
    split_ifs <;> rfl
  | clear => exact h.work .noWork (by rw [hw]; rfl) (by rw [hw]; decide)
  | up => exact h.work s.workProcedure (by rw [hw]; rfl) (by rw [hw]; decide)

variable [DecidableEq ι]

/-- What a thread must see to when it goes on. -/
theorem Inv.goto (h : Inv s) {p k : Pc} (hp : s.pc i = p) {lock irqDepth failed : ℕ} (workProcedure : WorkProcedure)
    (hsound : k.sound = true) (hlock : lock + k.holds = s.lock + p.holds)
    (hdepth : irqDepth + p.masks + s.failed = s.irqDepth + k.masks + failed)
    (halone : s.worker ≠ .idle → p.excludes = 0 → k.excludes = 0 ∧ failed = s.failed) :
    Inv { s.goto i k with lock := lock, irqDepth := irqDepth, workProcedure := workProcedure, failed := failed } := by
  subst hp
  have hholds := tally_update Pc.holds s.pc i k
  have hmasks := tally_update Pc.masks s.pc i k
  have hexcludes := tally_update Pc.excludes s.pc i k
  have hle := le_tally Pc.holds s.pc i
  have hle' := le_tally Pc.masks s.pc i
  refine ⟨fun j => ?_, ?_, ?_, fun hworker => ?_⟩
  · show (Function.update s.pc i k j).sound = true
    by_cases hj : j = i
    · rw [hj, Function.update_self]
      exact hsound
    · rw [Function.update_of_ne hj]
      exact h.sound j
  · show lock + tally Pc.holds (Function.update s.pc i k) + s.worker.holds = 1
    have := h.lock
    omega
  · show irqDepth = tally Pc.masks (Function.update s.pc i k) + failed
    have := h.irqDepth
    omega
  · show tally Pc.excludes (Function.update s.pc i k) = 0 ∧ failed = 0
    obtain ⟨hnone, hfailed⟩ := h.alone hworker
    obtain ⟨hk, hsame⟩ := halone hworker (tally_eq_zero_iff.mp hnone i)
    omega

theorem Inv.keeps (h : Inv s) {p k : Pc} (hp : s.pc i = p) (hk : Keeps p k) (workProcedure : WorkProcedure) :
    Inv { s.goto i k with workProcedure := workProcedure } :=
  h.goto hp workProcedure hk.sound (by rw [hk.holds]) (by rw [hk.masks]) fun _ hout => ⟨hk.excludes.trans hout, rfl⟩

theorem inv_go (h : Inv s) (i : ι) (copied : Bool) : Inv (go s i copied) := by
  have hsound := h.sound i
  have hdepth : (s.pc i).masks ≤ s.irqDepth := by
    have := h.irqDepth
    have := le_tally Pc.masks s.pc i
    omega
  unfold go
  cases hpc : s.pc i with
  | idle => exact h
  | disableIrq c =>
    rw [hpc] at hsound
    refine h.goto hpc s.workProcedure hsound rfl ?_ fun _ _ => ⟨rfl, rfl⟩
    show s.irqDepth + 1 + 0 + s.failed = s.irqDepth + 1 + s.failed
    omega
  | irqWait c =>
    rw [hpc] at hsound
    obtain ⟨hs, hh, hm⟩ := masked_facts c hsound
    simp only
    split_ifs with hidle
    · exact h.goto hpc s.workProcedure hs (by rw [hh]; rfl) (by rw [hm]; rfl) fun hworker => absurd hidle hworker
    · exact h
  | down c =>
    rw [hpc] at hsound
    obtain ⟨hs, hh, hm, he⟩ := locked_facts c hsound
    simp only
    split_ifs with hfree
    · exact h
    · refine h.goto hpc s.workProcedure hs ?_ (by rw [hm]) fun _ hout => ⟨he.trans hout, rfl⟩
      have hnone : (Pc.down c).holds = 0 := rfl
      omega
  | check c =>
    rw [hpc] at hsound
    simp only
    split_ifs with hflag
    · exact h.keeps hpc (keeps_checked c hsound).1 s.workProcedure
    · exact h.keeps hpc (keeps_checked c hsound).2 s.workProcedure
  | enter c => exact h.keeps hpc (keeps_entered c) c.procedure
  | copyFromUser =>
    simp only
    split_ifs with hcopied
    · exact h.keeps hpc (by decide) s.workProcedure
    · refine h.goto hpc s.workProcedure rfl rfl ?_ fun _ hout => nomatch hout
      show s.irqDepth + 1 + s.failed = s.irqDepth + 0 + (s.failed + 1)
      omega
  | busy c => exact h.keeps hpc (keeps_done c) s.workProcedure
  | leave c =>
    rw [hpc] at hsound
    exact h.keeps hpc (keeps_left c hsound) .noWork
  | reset c =>
    rw [hpc] at hsound
    exact h.keeps hpc (keeps_restarted c hsound) s.workProcedure
  | enableIrq c =>
    rw [hpc] at hsound hdepth
    obtain ⟨hs, hh, hm, he⟩ := enabled_facts c hsound
    have hone : (Pc.enableIrq c).masks = 1 := rfl
    have hoff : s.irqDepth - 1 + (Pc.enableIrq c).masks + s.failed = s.irqDepth + c.enabled.masks + s.failed := by omega
    exact h.goto hpc s.workProcedure hs (by rw [hh]) hoff fun _ _ => ⟨he, rfl⟩
  | up c =>
    rw [hpc] at hsound
    obtain ⟨hs, hh, hm, he⟩ := unlocked_facts c hsound
    have hone : (Pc.up c).holds = 1 := rfl
    exact h.goto hpc s.workProcedure hs (by omega) (by rw [hm]) fun _ hout => ⟨he.trans hout, rfl⟩

theorem inv_step (s : Sys ι) (e : Event ι) (h : Inv s) : Inv (step s e) := by
  cases e with
  | irq =>
    rw [step]
    split_ifs with hon
    · have hlock := h.lock
      have hdepth := h.irqDepth
      rw [hon.1] at hlock
      rw [hon.2] at hdepth
      have hzero : tally Pc.masks s.pc = 0 := by omega
      have hnone : tally Pc.excludes s.pc = 0 := tally_eq_zero_iff.mpr fun i =>
        Nat.le_zero.mp ((excludes_le_masks _).trans (tally_eq_zero_iff.mp hzero i).le)
      have hfailed : s.failed = 0 := by omega
      exact ⟨h.sound, hlock, h.irqDepth, fun _ => ⟨hnone, hfailed⟩⟩
    · exact h
  | work => exact inv_solomonWork h
  | call i c =>
    rw [step]
    split_ifs with hidle
    · obtain ⟨hs, hh, hm, he⟩ := start_facts c
      exact h.goto hidle s.workProcedure hs (by rw [hh]; rfl) (by rw [hm]; rfl) fun _ _ => ⟨he, rfl⟩
    · exact h
  | go i copied => exact inv_go h i copied

/-! ### Who is on the chip -/

def Worker.onChip : Worker → Bool
  | .normal | .intClear => true
  | _ => false

def Pc.onChip : Pc → Bool
  | .busy _ | .reset _ => true
  | _ => false

/-- An access with the interrupt on and without the semaphore. -/
def Pc.exposed (k : Pc) : Prop := k = .busy .bare ∨ k = .reset .upgrade

/-- At the chip a thread has the semaphore or the interrupt turned off. -/
theorem held_or_masked {k : Pc} (hsound : k.sound = true) (hchip : k.onChip = true) :
    k.exposed ∨ k.holds = 1 ∨ k.excludes = 1 := by
  cases k with
  | busy c =>
    cases c with
    | reg => exact .inr (.inl rfl)
    | bare => exact .inl (.inl rfl)
    | mode | download | mpTest | upgrade | update => exact .inr (.inr rfl)
  | reset c =>
    cases c with
    | upgrade => exact .inl (.inr rfl)
    | update => exact .inr (.inr rfl)
    | _ => cases hsound
  | _ => cases hchip

omit [DecidableEq ι] in
theorem Inv.chip_alone (h : Inv s) (hwork : s.worker.onChip = true) (i : ι) (hchip : (s.pc i).onChip = true) :
    (s.pc i).exposed := by
  have hworker : s.worker.holds = 1 ∧ s.worker ≠ .idle := by
    cases hw : s.worker with
    | normal | intClear => exact ⟨rfl, by decide⟩
    | _ =>
      rw [hw] at hwork
      cases hwork
  have hexcludes := tally_eq_zero_iff.mp (h.alone hworker.2).1 i
  have hlock := h.lock
  have hle := le_tally Pc.holds s.pc i
  rcases held_or_masked (h.sound i) hchip with hexposed | hholds | hmasked
  · exact hexposed
  · omega
  · omega

theorem Inv.locks_apart (h : Inv s) {j : ι} (hij : i ≠ j) {c c' : Cmd} (hi : s.pc i = .busy c)
    (hj : s.pc j = .busy c') : (c.locks && c'.locks) = false := by
  have hlock := h.lock
  have htwo := add_le_tally Pc.holds s.pc hij
  rw [hi, hj] at htwo
  by_contra hboth
  simp only [Bool.not_eq_false, Bool.and_eq_true] at hboth
  have hone (c : Cmd) (hc : c.locks = true) : (Pc.busy c).holds = 1 := by
    show c.locks.toNat = 1
    rw [hc]
    rfl
  have := hone c hboth.1
  have := hone c' hboth.2
  omega

theorem inv_run (es : List (Event ι)) : Inv (run step start es) := (always_of_inv inv_step inv_start es).last

/-- How many steps a command takes to the chip if it need not wait. -/
def Cmd.steps : Cmd → ℕ
  | .mode => 5
  | .download | .mpTest => 4
  | .reg | .upgrade | .update => 3
  | .bare => 0

def approach (i : ι) (c : Cmd) : List (Event ι) := .call i c :: List.replicate c.steps (.go i true)

omit [Fintype ι] in
theorem run_approach {c : Cmd} (hidle : s.pc i = .idle) (hworker : s.worker = .idle)
    (hlock : c.locks = true → s.lock ≠ 0) (hflag : c.checks = true → s.workProcedure = .noWork) :
    (run step s (approach i c)).pc = Function.update s.pc i (.busy c) ∧
      (run step s (approach i c)).worker = .idle := by
  cases c <;> simp_all [approach, Cmd.steps, List.replicate, run, step, go, Cmd.start, Cmd.masks, Cmd.masked, Cmd.locks,
    Cmd.locked, Cmd.checks, Cmd.entered]

omit [Fintype ι] in
/-- A command without the semaphore comes to the chip whoever is there. -/
theorem run_two {j : ι} (hij : i ≠ j) {c c' : Cmd} (h : c'.locks = false) :
    ((run step start (approach i c ++ approach j c')).pc i = .busy c ∧
      (run step start (approach i c ++ approach j c')).pc j = .busy c') := by
  obtain ⟨hpc, hworker⟩ :=
    run_approach (s := (start : Sys ι)) (i := i) (c := c) rfl rfl (fun _ => one_ne_zero) fun _ => rfl
  have hchecks : ¬ c'.checks = true := by
    revert h
    cases c' <;> decide
  have hidle : (run step start (approach i c)).pc j = .idle := by rw [hpc, Function.update_of_ne hij.symm]; rfl
  have hlocks : ¬ c'.locks = true := by rw [h]; decide
  obtain ⟨hpc', -⟩ := run_approach hidle hworker (fun hc => absurd hc hlocks) fun hc => absurd hc hchecks
  rw [run, List.foldl_append, ← run, ← run, hpc', Function.update_self, Function.update_of_ne hij, hpc,
    Function.update_self]
  exact ⟨rfl, rfl⟩

/-- From an interrupt to the chip. -/
def intoWork : List (Event ι) := .irq :: List.replicate 4 .work

/-- The upgrade up to its reset. -/
def intoReset (i : ι) : List (Event ι) := approach i .upgrade ++ List.replicate 3 (.go i true)

/-- Which commands can be on the chip at the same time. -/
theorem together_iff {j : ι} (hij : i ≠ j) (c c' : Cmd) :
    (∃ es : List (Event ι), (run step start es).pc i = .busy c ∧ (run step start es).pc j = .busy c') ↔
      (c.locks && c'.locks) = false := by
  refine ⟨?_, fun hlocks => ?_⟩
  · rintro ⟨es, hi, hj⟩
    exact (inv_run es).locks_apart hij hi hj
  · rw [Bool.and_eq_false_iff] at hlocks
    obtain hc | hc' := hlocks
    · exact ⟨_, (run_two hij.symm hc).symm⟩
    · exact ⟨_, run_two hij hc'⟩

theorem together_iff_mpTest : (∃ es : List (Event Bool), (run step start es).pc false = .busy .reg ∧
    (run step start es).pc true = .busy .mpTest) ↔ (Cmd.reg.locks && Cmd.mpTest.locks) = false :=
  together_iff (by decide) .reg .mpTest

/-! ### Nobody waits for good -/

def Pc.rank : Pc → ℕ
  | .idle => 0
  | .disableIrq _ => 10
  | .irqWait _ => 9
  | .down _ => 8
  | .check _ => 7
  | .enter _ => 6
  | .copyFromUser => 5
  | .busy _ => 4
  | .leave _ => 3
  | .reset c => if c = .update then 2 else 1
  | .enableIrq c => if c = .mode ∨ c = .upgrade then 2 else 1
  | .up c => if c = .download then 2 else 1

def Worker.rank : Worker → ℕ
  | .idle => 0
  | .start => 8
  | .tryLock => 7
  | .spin | .check => 6
  | .enter => 5
  | .normal | .intClear => 4
  | .out => 3
  | .clear => 2
  | .up => 1

/-- The steps that are left at most. -/
def rank (s : Sys ι) : ℕ := tally Pc.rank s.pc + s.worker.rank

def Quiet (s : Sys ι) : Prop := (∀ i, s.pc i = .idle) ∧ s.worker = .idle

/-- Threads and `solomon_work` going on, with no new command and no interrupt. -/
def GoesOn (_ : Sys ι) (e : Event ι) : Prop := e = .work ∨ ∃ i, e = .go i true

theorem rank_next (c : Cmd) : c.masked.rank < (Pc.irqWait c).rank ∧ c.locked.rank < (Pc.down c).rank ∧
    c.entered.rank < (Pc.enter c).rank ∧ c.left.rank < (Pc.leave c).rank ∧ c.enabled.rank < (Pc.enableIrq c).rank ∧
    c.unlocked.rank < (Pc.up c).rank ∧ c.done.rank < (Pc.busy c).rank ∧ c.restarted.rank < (Pc.reset c).rank := by
  revert c
  decide

theorem rank_goto (s : Sys ι) {i : ι} {k : Pc} (h : k.rank < (s.pc i).rank) : rank (s.goto i k) < rank s := by
  have := tally_update Pc.rank s.pc i k
  show tally Pc.rank (Function.update s.pc i k) + s.worker.rank < tally Pc.rank s.pc + s.worker.rank
  omega

/-- The places where a thread may have to wait, or has nothing to do. -/
def Pc.waits : Pc → Bool
  | .idle | .irqWait _ | .down _ => true
  | _ => false

def Worker.waits : Worker → Bool
  | .idle | .spin => true
  | _ => false

theorem rank_go {s : Sys ι} {i : ι} (hidle : s.pc i ≠ .idle)
    (hwait : (s.pc i).waits = true → s.worker = .idle ∧ s.lock ≠ 0) : rank (go s i true) < rank s := by
  have hgoto {k : Pc} (hk : k.rank < (s.pc i).rank) : rank (s.goto i k) < rank s := rank_goto s hk
  unfold go
  cases hpc : s.pc i with
  | idle => exact absurd hpc hidle
  | disableIrq c =>
    rw [hpc] at hgoto
    have hdown : (Pc.irqWait c).rank < (Pc.disableIrq c).rank := (by decide : 9 < 10)
    exact hgoto hdown
  | irqWait c =>
    rw [hpc] at hgoto hwait
    simp only [if_pos (hwait rfl).1]
    exact hgoto (rank_next c).1
  | down c =>
    rw [hpc] at hgoto hwait
    simp only [if_neg (hwait rfl).2]
    exact hgoto (rank_next c).2.1
  | check c =>
    rw [hpc] at hgoto
    simp only
    split_ifs
    · have hdown : (Pc.enter c).rank < (Pc.check c).rank := (by decide : 6 < 7)
      exact hgoto hdown
    · have hdown : (Pc.leave c).rank < (Pc.check c).rank := (by decide : 3 < 7)
      exact hgoto ((rank_next c).2.2.2.1.trans hdown)
  | enter c =>
    rw [hpc] at hgoto
    exact hgoto (rank_next c).2.2.1
  | copyFromUser =>
    rw [hpc] at hgoto
    exact hgoto (by decide)
  | busy c =>
    rw [hpc] at hgoto
    exact hgoto (rank_next c).2.2.2.2.2.2.1
  | leave c =>
    rw [hpc] at hgoto
    exact hgoto (rank_next c).2.2.2.1
  | reset c =>
    rw [hpc] at hgoto
    exact hgoto (rank_next c).2.2.2.2.2.2.2
  | enableIrq c =>
    rw [hpc] at hgoto
    exact hgoto (rank_next c).2.2.2.2.1
  | up c =>
    rw [hpc] at hgoto
    exact hgoto (rank_next c).2.2.2.2.2.1

omit [DecidableEq ι] in
theorem rank_solomonWork {s : Sys ι} (hidle : s.worker ≠ .idle) (hwait : s.worker = .spin → s.lock ≠ 0) :
    rank (solomonWork s) < rank s := by
  have hwork {w : Worker} {lock : ℕ} {workProcedure : WorkProcedure} (hw : w.rank < s.worker.rank) :
      rank { s with worker := w, lock := lock, workProcedure := workProcedure } < rank s :=
    Nat.add_lt_add_left hw _
  unfold solomonWork
  cases hs : s.worker with
  | idle => exact absurd hs hidle
  | start =>
    rw [hs] at hwork
    simp only
    split_ifs
    · exact hwork (by decide)
    · exact hwork (by decide)
  | tryLock =>
    rw [hs] at hwork
    simp only
    split_ifs
    · exact hwork (by decide)
    · exact hwork (by decide)
  | spin =>
    rw [hs] at hwork
    simp only [if_neg (hwait hs)]
    exact hwork (by decide)
  | check | out =>
    rw [hs] at hwork
    simp only
    split_ifs
    · exact hwork (by decide)
    · exact hwork (by decide)
  | enter | normal | intClear | clear | up =>
    rw [hs] at hwork
    exact hwork (by decide)

theorem goes_on {s : Sys ι} (h : Inv s) (hbusy : ¬ Quiet s) : ∃ e, GoesOn s e ∧ rank (step s e) < rank s := by
  by_cases hthread : ∃ i, (s.pc i).waits = false
  · obtain ⟨i, hi⟩ := hthread
    refine ⟨.go i true, .inr ⟨i, rfl⟩, rank_go ?_ fun hwait => ?_⟩
    · intro hidle
      rw [hidle] at hi
      cases hi
    · rw [hi] at hwait
      cases hwait
  simp only [not_exists, Bool.not_eq_false] at hthread
  by_cases hwork : s.worker.waits = false
  · refine ⟨.work, .inl rfl, rank_solomonWork ?_ ?_⟩
    · intro hidle
      rw [hidle] at hwork
      cases hwork
    · intro hspin
      rw [hspin] at hwork
      cases hwork
  -- nobody who may have to wait has the semaphore
  have hholds : tally Pc.holds s.pc = 0 := tally_eq_zero_iff.mpr fun i => by
    have hi := hthread i
    cases hpc : s.pc i with
    | idle | irqWait c | down c => rfl
    | _ =>
      rw [hpc] at hi
      cases hi
  have hwork' : s.worker.holds = 0 := by
    cases hw : s.worker with
    | idle | spin => rfl
    | _ =>
      rw [hw] at hwork
      exact absurd rfl hwork
  have hfree : s.lock ≠ 0 := by
    have := h.lock
    omega
  by_cases hidle : s.worker = .idle
  · obtain ⟨i, hi⟩ : ∃ i, s.pc i ≠ .idle := by
      by_contra hnone
      simp only [not_exists, not_not] at hnone
      exact hbusy ⟨hnone, hidle⟩
    exact ⟨.go i true, .inr ⟨i, rfl⟩, rank_go hi fun _ => ⟨hidle, hfree⟩⟩
  · exact ⟨.work, .inl rfl, rank_solomonWork hidle fun _ => hfree⟩

/-- From wherever a run has come, `solomon_work` and the threads can all be brought to their end without a new
    command or an interrupt: no two of them wait for each other. -/
theorem settles (es : List (Event ι)) :
    ∃ es', Steps step GoesOn (run step start es) es' ∧ Quiet (run step (run step start es) es') := by
  exact exists_steps_of_rank rank (fun s e hs _ => inv_step s e hs) (fun s hs hbusy => goes_on hs hbusy) (inv_run es)

end Steps

end GeminiLinux.WorkLock
