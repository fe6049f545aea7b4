import GeminiLinux.Lib.Prog
import GeminiLinux.Lib.Runs
import GeminiLinux.Kernel.Errno

/-! The power of the DSI controller, its interrupt, and the code that waits for that interrupt.

        poweron:   refcount 0 → 1 ─▶ data rate ─▶ PHY ─▶ engine clock ─▶ digital clock ─▶ reset ─▶ enable_irq
        poweroff:  refcount 1 → 0 ─▶ disable_irq ─▶ stop ─▶ command mode (waits) ─▶ reset ─▶ clocks off
        transfer:  out of video mode (waits) ─▶ command (waits) ─▶ back

    The interrupt is requested with IRQ_NOAUTOEN, so that its disable depth is 1 before the first poweron.
    Whether the fallible steps succeed, and whether an interrupt that is not masked comes in time, are
    given by streams. Every change of the power is recorded, and so is every wait. The register writes
    that none of this depends on are left out. -/

namespace GeminiLinux.Dsi
open Prog Runs

/-! ### The controller -/

/-- `dsi->refcount`, the disable depth of the IRQ, the enable counts of the PHY and the clocks, and
    whether the engine has been reset since both clocks came on. -/
@[ext] structure Power where
  refcount : ℕ
  irqDepth : ℤ
  phy : ℕ
  engineClk : ℕ
  digitalClk : ℕ
  reset : Bool
  deriving DecidableEq

/-- A wait on `irq_wait_queue`: for which flags, how long, and the disable depth of the IRQ as it starts. -/
structure Wait where
  flag : ℕ
  timeout : ℕ
  irqDepth : ℤ
  deriving DecidableEq

structure Controller where
  power : Power
  lanesReady : Bool
  /-- `DSI_MODE_CTRL & MODE`. -/
  videoMode : Bool
  /-- `mode_flags & MIPI_DSI_MODE_VIDEO`. -/
  videoFlag : Bool
  steps : Stream' (Except Errno Unit)
  answers : Stream' Bool
  seen : List Power
  waits : List Wait
  log : List (String × List ℤ)

abbrev DsiM := EStateM Errno Controller

def lprxRdRdyIntFlag : ℕ := 1 <<< 0
def cmdDoneIntFlag : ℕ := 1 <<< 1
def vmDoneIntFlag : ℕ := 1 <<< 3

/-- A change of the power. -/
def change (f : Power → Power) : DsiM Unit :=
  modify fun d => { d with power := f d.power, seen := d.seen ++ [f d.power] }

def drmLog (fmt : String) (args : List ℤ) : DsiM Unit :=
  modify fun d => { d with log := d.log ++ [(fmt, args)] }

/-- A call that may fail. -/
def step : DsiM Unit := do
  let r ← modifyGet fun d => (d.steps.head, { d with steps := d.steps.tail })
  MonadExcept.ofExcept r

/-- `if (ret < 0) { dev_err(...); goto ...; }`. -/
def orErr (p : DsiM Unit) (fmt : String) : DsiM Unit := onError p fun e => drmLog fmt [e.ret]

/-- A label that undoes a step and goes on to the ones below. -/
def unwinding (p undo : DsiM Unit) : DsiM Unit := onError p fun _ => undo

/-! ### Interrupt, clocks and engine -/

def enableIrq : DsiM Unit := change fun p => { p with irqDepth := p.irqDepth - 1 }

def disableIrq : DsiM Unit := change fun p => { p with irqDepth := p.irqDepth + 1 }

def phyPowerOn : DsiM Unit := change fun p => { p with phy := p.phy + 1 }

def phyPowerOff : DsiM Unit := change fun p => { p with phy := p.phy - 1 }

/-- A clock that was off starts with an engine that has not been reset. -/
def engineClkEnable : DsiM Unit := do
  step
  change fun p => { p with engineClk := p.engineClk + 1, reset := if p.engineClk = 0 then false else p.reset }

def engineClkDisable : DsiM Unit := change fun p =>
  { p with engineClk := p.engineClk - 1, reset := if p.engineClk = 1 then false else p.reset }

def digitalClkEnable : DsiM Unit := do
  step
  change fun p => { p with digitalClk := p.digitalClk + 1, reset := if p.digitalClk = 0 then false else p.reset }

def digitalClkDisable : DsiM Unit := change fun p =>
  { p with digitalClk := p.digitalClk - 1, reset := if p.digitalClk = 1 then false else p.reset }

/-- `mtk_dsi_reset_engine`, which does nothing to an engine without clocks. -/
def resetEngine : DsiM Unit := change fun p =>
    { p with reset := decide (0 < p.engineClk ∧ 0 < p.digitalClk) }

def setCmdMode : DsiM Unit := modify fun d => { d with videoMode := false }

def setMode : DsiM Unit := modify fun d => { d with videoMode := d.videoFlag }

def laneReady : DsiM Unit := modify fun d => { d with lanesReady := true }

/-! ### Waiting -/

/-- `mtk_dsi_wait_for_irq_done`: only `mtk_dsi_irq` sets the flags, so a masked interrupt means a timeout. -/
def waitForIrqDone (flag timeout : ℕ) : DsiM Unit := do
  modify fun d => { d with waits := d.waits ++ [⟨flag, timeout, d.power.irqDepth⟩] }
  let answer ← modifyGet fun d => (d.answers.head, { d with answers := d.answers.tail })
  if (← get).power.irqDepth = 0 ∧ answer = true then pure ()
  else do
    drmLog "Wait DSI IRQ(0x%08x) Timeout" [flag]
    resetEngine
    throw (.other 62)

/-- `-ETIME` if the wait ends with a timeout. -/
def switchToCmdMode (flag timeout : ℕ) : DsiM Unit := do
  setCmdMode
  onError (waitForIrqDone flag timeout) fun _ => drmLog "failed to switch cmd mode" []

/-! ### Power -/

def poweron : DsiM Unit := do
  change fun p => { p with refcount := p.refcount + 1 }
  if (← get).power.refcount ≠ 1 then pure ()
  else do
    unwinding (do
      orErr step "Failed to set data rate: %d"
      phyPowerOn
      unwinding (do
        orErr engineClkEnable "Failed to enable engine clock: %d"
        unwinding (orErr digitalClkEnable "Failed to enable digital clock: %d") engineClkDisable)
          phyPowerOff)
      (change fun p => { p with refcount := p.refcount - 1 })
    resetEngine
    setCmdMode
    enableIrq

/-- `WARN_ON(dsi->refcount == 0)` leaves the function as well. -/
def poweroff : DsiM Unit := do
  if (← get).power.refcount = 0 then pure ()
  else do
    change fun p => { p with refcount := p.refcount - 1 }
    if (← get).power.refcount ≠ 0 then pure ()
    else do
      disableIrq
      let _ ← attempt (switchToCmdMode vmDoneIntFlag 500)
      resetEngine
      engineClkDisable
      digitalClkDisable
      phyPowerOff
      modify fun d => { d with lanesReady := false }

/-! ### Transfers -/

/-- `mtk_dsi_host_send_cmd`. -/
def hostSendCmd (flag : ℕ) : DsiM Unit := waitForIrqDone flag 2000

/-- `mtk_dsi_host_transfer`, of a message that is a read or a write. -/
def hostTransfer (read : Bool) : DsiM Unit := do
  let dsiMode := (← get).videoMode
  let ret ← attempt (do
    if dsiMode then switchToCmdMode vmDoneIntFlag 500 else pure ()
    laneReady
    hostSendCmd (if read then cmdDoneIntFlag ||| lprxRdRdyIntFlag else cmdDoneIntFlag))
  if dsiMode then setMode else pure ()
  MonadExcept.ofExcept ret

/-! ### Runs -/

inductive Call where
  | poweron | poweroff
  | hostTransfer (read : Bool)
  | switchToCmdMode (flag timeout : ℕ)
  deriving DecidableEq

def Call.prog : Call → DsiM Unit
  | .poweron => Dsi.poweron
  | .poweroff => Dsi.poweroff
  | .hostTransfer read => Dsi.hostTransfer read
  | .switchToCmdMode flag timeout => Dsi.switchToCmdMode flag timeout

def callStep (d : Controller) (c : Call) : Controller := finalState c.prog d

def Power.off : Power := { refcount := 0, irqDepth := 1, phy := 0, engineClk := 0, digitalClk := 0, reset := false }

def Power.on (refcount : ℕ) : Power :=
  { refcount, irqDepth := 0, phy := 1, engineClk := 1, digitalClk := 1, reset := true }

/-- The IRQ has just been requested. -/
structure Requested (d : Controller) : Prop where
  power : d.power = .off
  seen : d.seen = []
  waits : d.waits = []

/-- An unmasked IRQ has clocks, and an engine that has been reset. -/
def Power.Safe (p : Power) : Prop := p.irqDepth ≤ 0 → 0 < p.engineClk ∧ 0 < p.digitalClk ∧ p.reset = true

/-- Between two calls the IRQ is unmasked exactly if somebody uses the controller, and so far the power
    has always been safe. -/
structure Unmasked (d : Controller) : Prop where
  depth : d.power.irqDepth = if 0 < d.power.refcount then 0 else 1
  safe : ∀ p ∈ d.seen, p.Safe

/-- No wait has started while the IRQ was masked. -/
def Satisfiable (d : Controller) : Prop := ∀ w ∈ d.waits, w.irqDepth = 0

/-- The call waits for no interrupt, or for one that is not masked. -/
def Powered (d : Controller) : Call → Prop
  | .poweron => True
  | .poweroff => d.power.refcount ≠ 1
  | .hostTransfer _ => 0 < d.power.refcount
  | .switchToCmdMode _ _ => 0 < d.power.refcount

/-! ### What the operations do -/

/-- The power is `p`, it has been safe so far, and the waits are `ws`. -/
structure At (p : Power) (ws : List Wait) (d : Controller) : Prop where
  power : d.power = p
  safe : ∀ q ∈ d.seen, q.Safe
  waits : d.waits = ws

section Ops

variable {p : Power} {ws : List Wait} {q : DsiM Unit} {Q : Unit → Controller → Prop}

theorem change_at {f : Power → Power} (h : (f p).Safe) :
    Ends (At p ws) (change f) (fun _ => At (f p) ws) fun _ _ => False := by
  refine .modify fun d hd => ⟨congrArg f hd.power, fun q hq => ?_, hd.waits⟩
  rcases List.mem_append.mp hq with hq | hq
  · exact hd.safe q hq
  · rw [List.mem_singleton.mp hq, hd.power]
    exact h

theorem modify_at {f : Controller → Controller} (hpower : ∀ d, (f d).power = d.power)
    (hseen : ∀ d, (f d).seen = d.seen) (hwaits : ∀ d, (f d).waits = d.waits) :
    Ends (At p ws) (modify f : DsiM PUnit) (fun _ => At p ws) fun _ _ => False :=
  .modify fun d hd => ⟨(hpower d).trans hd.power, by rw [hseen]; exact hd.safe, (hwaits d).trans hd.waits⟩

theorem drmLog_at (fmt : String) (args : List ℤ) :
    Ends (At p ws) (drmLog fmt args) (fun _ => At p ws) fun _ _ => False :=
  modify_at (fun _ => rfl) (fun _ => rfl) fun _ => rfl

theorem step_at : Ends (At p ws) step (fun _ => At p ws) fun _ => At p ws :=
  .bind (.modifyGet (Q := fun _ => At p ws) fun _ hd => ⟨hd.power, hd.safe, hd.waits⟩) fun _ =>
    .ofExcept (fun _ _ _ hd => hd) fun _ _ _ hd => hd

theorem orErr_at {p' : Power} (h : Ends (At p ws) q Q fun _ => At p' ws) (fmt : String) :
    Ends (At p ws) (orErr q fmt) Q fun _ => At p' ws :=
  .onError h fun _ => (drmLog_at _ _).noError

theorem unwinding_at {undo : DsiM Unit} {p' p'' : Power} (h : Ends (At p ws) q Q fun _ => At p' ws)
    (hundo : Ends (At p' ws) undo (fun _ => At p'' ws) fun _ _ => False) :
    Ends (At p ws) (unwinding q undo) Q fun _ => At p'' ws :=
  .onError h fun _ => hundo.noError

theorem setCmdMode_at : Ends (At p ws) setCmdMode (fun _ => At p ws) fun _ _ => False :=
  modify_at (fun _ => rfl) (fun _ => rfl) fun _ => rfl

theorem laneReady_at : Ends (At p ws) laneReady (fun _ => At p ws) fun _ _ => False :=
  modify_at (fun _ => rfl) (fun _ => rfl) fun _ => rfl

/-- A masked interrupt is safe. -/
theorem safe_of_masked (h : 0 < p.irqDepth) : p.Safe := fun hle => absurd h (not_lt.mpr hle)

theorem resetEngine_at (h : p.reset = decide (0 < p.engineClk ∧ 0 < p.digitalClk)) (hsafe : p.Safe) :
    Ends (At p ws) resetEngine (fun _ => At p ws) fun _ _ => False := by
  have hsame : { p with reset := decide (0 < p.engineClk ∧ 0 < p.digitalClk) } = p := by rw [← h]
  have hends : Ends (At p ws) resetEngine
      (fun _ => At { p with reset := decide (0 < p.engineClk ∧ 0 < p.digitalClk) } ws) fun _ _ => False :=
    change_at (by rw [hsame]; exact hsafe)
  rwa [hsame] at hends

end Ops

/-! ### Power on and off -/

section Power

variable {ws : List Wait}

/-- The power in the middle of a poweron or a poweroff. -/
def Power.midway (refcount phy engineClk digitalClk : ℕ) (reset : Bool) : Power :=
  { refcount, irqDepth := 1, phy, engineClk, digitalClk, reset }

theorem midway_safe (refcount phy engineClk digitalClk : ℕ) (reset : Bool) :
    (Power.midway refcount phy engineClk digitalClk reset).Safe := safe_of_masked Int.one_pos

theorem on_safe (refcount : ℕ) : (Power.on refcount).Safe := fun _ => ⟨Nat.one_pos, Nat.one_pos, rfl⟩

/-- The clocks on, or everything back as it was. -/
theorem clocksOn_at : Ends (At (.midway 1 0 0 0 false) ws)
    (unwinding (do
      orErr step "Failed to set data rate: %d"
      phyPowerOn
      unwinding (do
        orErr engineClkEnable "Failed to enable engine clock: %d"
        unwinding (orErr digitalClkEnable "Failed to enable digital clock: %d") engineClkDisable)
          phyPowerOff)
      (change fun p => { p with refcount := p.refcount - 1 }))
    (fun _ => At (.midway 1 1 1 1 false) ws) fun _ => At .off ws := by
  have hrefcount : Ends (At (.midway 1 0 0 0 false) ws)
    (change fun p => { p with refcount := p.refcount - 1 })
      (fun _ => At .off ws) fun _ _ => False := change_at (midway_safe 0 0 0 0 false)
  have hphyOff : Ends (At (.midway 1 1 0 0 false) ws) phyPowerOff
      (fun _ => At (.midway 1 0 0 0 false) ws) fun _ _ => False := change_at (midway_safe 1 0 0 0 false)
  have hengineOff : Ends (At (.midway 1 1 1 0 false) ws) engineClkDisable
      (fun _ => At (.midway 1 1 0 0 false) ws) fun _ _ => False := change_at (midway_safe 1 1 0 0 false)
  have hphyOn : Ends (At (.midway 1 0 0 0 false) ws) phyPowerOn
      (fun _ => At (.midway 1 1 0 0 false) ws) fun _ _ => False := change_at (midway_safe 1 1 0 0 false)
  have hengineOn : Ends (At (.midway 1 1 0 0 false) ws) engineClkEnable
      (fun _ => At (.midway 1 1 1 0 false) ws) fun _ => At (.midway 1 1 0 0 false) ws :=
    .bind step_at fun _ => (change_at (midway_safe 1 1 1 0 false)).noError
  have hdigitalOn : Ends (At (.midway 1 1 1 0 false) ws) digitalClkEnable
      (fun _ => At (.midway 1 1 1 1 false) ws) fun _ => At (.midway 1 1 1 0 false) ws :=
    .bind step_at fun _ => (change_at (midway_safe 1 1 1 1 false)).noError
  refine unwinding_at (.bind (orErr_at step_at _) fun _ => ?_) hrefcount
  refine .bind (hphyOn.noError) fun _ => ?_
  refine unwinding_at (.bind (orErr_at hengineOn _) fun _ => ?_) hphyOff
  exact unwinding_at (orErr_at hdigitalOn _) hengineOff

theorem poweron_off : Ends (At .off ws) poweron (fun _ => At (.on 1) ws) fun _ => At .off ws := by
  have hcount : Ends (At .off ws) (change fun p => { p with refcount := p.refcount + 1 })
      (fun _ => At (.midway 1 0 0 0 false) ws) fun _ _ => False := change_at (midway_safe 1 0 0 0 false)
  have hreset : Ends (At (.midway 1 1 1 1 false) ws) resetEngine
      (fun _ => At (.midway 1 1 1 1 true) ws) fun _ _ => False := change_at (midway_safe 1 1 1 1 true)
  have henable : Ends (At (.midway 1 1 1 1 true) ws) enableIrq (fun _ => At (.on 1) ws) fun _ _ => False :=
    change_at (on_safe 1)
  refine .bind (hcount.noError) fun _ => .read fun d hd => ?_
  rw [if_neg (by rw [hd.power]; simp [Power.midway])]
  refine .bind (clocksOn_at.starting hd) fun _ => ?_
  refine .bind (hreset.noError) fun _ => ?_
  refine .bind (I := fun _ => At (.midway 1 1 1 1 true) ws) setCmdMode_at.noError fun _ => ?_
  exact henable.noError

theorem poweron_on (n : ℕ) : Ends (At (.on (n + 1)) ws) poweron (fun _ => At (.on (n + 2)) ws)
    fun _ _ => False := by
  have hcount : Ends (At (.on (n + 1)) ws) (change fun p => { p with refcount := p.refcount + 1 })
      (fun _ => At (.on (n + 2)) ws) fun _ _ => False := change_at (on_safe (n + 2))
  refine .bind hcount fun _ => .read fun d hd => ?_
  rw [if_pos (by rw [hd.power]; simp [Power.on])]
  exact .pure fun _ heq => heq ▸ hd

/-! ### Waiting -/

/-- A wait leaves the power as it is and is recorded with the depth it starts with. -/
theorem waitForIrqDone_at {p : Power} (h : p.reset = decide (0 < p.engineClk ∧ 0 < p.digitalClk))
    (hsafe : p.Safe) (flag timeout : ℕ) : Ends (At p ws) (waitForIrqDone flag timeout)
      (fun _ => At p (ws ++ [⟨flag, timeout, p.irqDepth⟩])) fun _ =>
        At p (ws ++ [⟨flag, timeout, p.irqDepth⟩]) := by
  refine .bind (I := fun _ => At p (ws ++ [⟨flag, timeout, p.irqDepth⟩]))
    (.modify fun d hd => ⟨hd.power, hd.safe, by rw [hd.waits, hd.power]⟩) fun _ => ?_
  refine .bind (.modifyGet (Q := fun _ => At p (ws ++ [⟨flag, timeout, p.irqDepth⟩]))
    fun _ hd => ⟨hd.power, hd.safe, hd.waits⟩) fun answer => .read fun d hd =>
      .cases (fun _ => ?_) fun _ => ?_
  · exact .pure fun _ heq => heq ▸ hd
  · refine .bind ((drmLog_at _ _).noError.starting hd) fun _ => ?_
    refine .bind ((resetEngine_at h hsafe).noError) fun _ => ?_
    exact .throw fun _ h => h

theorem switchToCmdMode_at {p : Power} (h : p.reset = decide (0 < p.engineClk ∧ 0 < p.digitalClk))
    (hsafe : p.Safe) (flag timeout : ℕ) : Ends (At p ws) (switchToCmdMode flag timeout)
      (fun _ => At p (ws ++ [⟨flag, timeout, p.irqDepth⟩])) fun _ =>
        At p (ws ++ [⟨flag, timeout, p.irqDepth⟩]) := by
  refine .bind setCmdMode_at.noError fun _ => .onError (waitForIrqDone_at h hsafe flag timeout) fun _ => ?_
  exact (drmLog_at _ _).noError

/-- A transfer waits at least once, and always with the same depth. -/
def Waited (p : Power) (ws : List Wait) (d : Controller) : Prop :=
  ∃ w ws', (∀ w' ∈ w :: ws', w'.irqDepth = p.irqDepth) ∧ At p (ws ++ w :: ws') d

theorem waited_one {p : Power} {flag timeout : ℕ} {d : Controller}
    (h : At p (ws ++ [⟨flag, timeout, p.irqDepth⟩]) d) : Waited p ws d :=
  ⟨_, [], fun w hw => by rw [List.mem_singleton.mp hw], h⟩

theorem waited_two {p : Power} {flag timeout flag' timeout' : ℕ} {d : Controller}
    (h : At p (ws ++ [⟨flag, timeout, p.irqDepth⟩] ++
      [⟨flag', timeout', p.irqDepth⟩]) d) : Waited p ws d := by
  rw [List.append_assoc] at h
  refine ⟨_, _, ?_, h⟩
  intro w hw
  rcases List.mem_cons.mp hw with rfl | hw
  · rfl
  · rw [List.mem_singleton.mp hw]

theorem setMode_waited (p : Power) :
    Ends (Waited p ws) setMode (fun _ => Waited p ws) fun _ _ => False := by
  refine .modify fun d hd => ?_
  obtain ⟨w, ws', hdepth, hat⟩ := hd
  exact ⟨w, ws', hdepth, hat.power, hat.safe, hat.waits⟩

/-- The message is sent, after the way out of video mode if the controller is in it. -/
theorem send_at {p : Power} (h : p.reset = decide (0 < p.engineClk ∧ 0 < p.digitalClk)) (hsafe : p.Safe)
    (dsiMode : Bool) (flag : ℕ) : Ends (At p ws) (do
      if dsiMode then switchToCmdMode vmDoneIntFlag 500 else pure ()
      laneReady
      hostSendCmd flag) (fun _ => Waited p ws) fun _ => Waited p ws := by
  cases dsiMode with
  | true =>
    refine .bind ((switchToCmdMode_at h hsafe _ _).failing fun _ _ h => waited_one h)
      fun _ => .bind laneReady_at.noError fun _ => ?_
    exact (waitForIrqDone_at h hsafe _ _).post (fun _ _ h => waited_two h) fun _ _ h => waited_two h
  | false =>
    refine .bind laneReady_at.noError fun _ => ?_
    exact (waitForIrqDone_at h hsafe _ _).post (fun _ _ h => waited_one h) fun _ _ h => waited_one h

theorem hostTransfer_at {p : Power} (h : p.reset = decide (0 < p.engineClk ∧ 0 < p.digitalClk))
    (hsafe : p.Safe) (read : Bool) :
    Ends (At p ws) (hostTransfer read) (fun _ => Waited p ws) fun _ => Waited p ws := by
  refine .read fun d hd => .bind (I := fun _ => Waited p ws)
    (.attempt (Q := fun _ => Waited p ws) ((send_at h hsafe _ _).starting hd)) fun ret =>
      .cases (fun _ => ?_) fun _ => ?_
  · exact .bind (setMode_waited p).noError fun _ => .ofExcept (fun _ _ _ h => h) fun _ _ _ h => h
  · exact .ofExcept (fun _ _ _ h => h) fun _ _ _ h => h

/-! ### Power off -/

theorem poweroff_off : Ends (At .off ws) poweroff (fun _ => At .off ws) fun _ _ => False := by
  refine .read fun d hd => ?_
  rw [if_pos (by rw [hd.power]; rfl)]
  exact .pure fun _ heq => heq ▸ hd

theorem poweroff_on (n : ℕ) : Ends (At (.on (n + 2)) ws) poweroff (fun _ => At (.on (n + 1)) ws)
    fun _ _ => False := by
  have hcount : Ends (At (.on (n + 2)) ws) (change fun p => { p with refcount := p.refcount - 1 })
      (fun _ => At (.on (n + 1)) ws) fun _ _ => False := change_at (on_safe (n + 1))
  refine .read fun d hd => ?_
  rw [if_neg (by rw [hd.power]; simp [Power.on])]
  refine .bind (hcount.starting hd) fun _ => .read fun d hd => ?_
  rw [if_pos (by rw [hd.power]; simp [Power.on])]
  exact .pure fun _ heq => heq ▸ hd

/-- The last user's poweroff waits for `VM_DONE` with the IRQ disabled. -/
theorem poweroff_last : Ends (At (.on 1) ws) poweroff
    (fun _ => At .off (ws ++ [⟨vmDoneIntFlag, 500, 1⟩])) fun _ _ => False := by
  have hcount : Ends (At (.on 1) ws) (change fun p => { p with refcount := p.refcount - 1 })
      (fun _ => At { Power.on 1 with refcount := 0 } ws) fun _ _ => False := change_at (on_safe 0)
  have hdisable : Ends (At { Power.on 1 with refcount := 0 } ws) disableIrq
      (fun _ => At (.midway 0 1 1 1 true) ws) fun _ _ => False := change_at (midway_safe 0 1 1 1 true)
  have hswitch : Ends (At (.midway 0 1 1 1 true) ws) (attempt (switchToCmdMode vmDoneIntFlag 500))
      (fun _ => At (.midway 0 1 1 1 true) (ws ++ [⟨vmDoneIntFlag, 500, 1⟩])) fun _ _ => False :=
    .attempt (switchToCmdMode_at (by simp [Power.midway]) (midway_safe 0 1 1 1 true) _ _)
  refine .read fun d hd => ?_
  rw [if_neg (by rw [hd.power]; simp [Power.on])]
  refine .bind (hcount.starting hd) fun _ => .read fun d hd => ?_
  rw [if_neg (by rw [hd.power]; simp)]
  refine .bind (hdisable.starting hd) fun _ => .bind hswitch fun _ => ?_
  refine .bind (resetEngine_at (by simp [Power.midway]) (midway_safe 0 1 1 1 true)) fun _ => ?_
  refine .bind (change_at (midway_safe 0 1 0 1 false)) fun _ =>
    .bind (change_at (midway_safe 0 1 0 0 false)) fun _ => ?_
  refine .bind (I := fun _ => At .off (ws ++ [⟨vmDoneIntFlag, 500, 1⟩])) ?_ fun _ => ?_
  · exact change_at (midway_safe 0 0 0 0 false)
  · exact modify_at (fun _ => rfl) (fun _ => rfl) fun _ => rfl

end Power

/-! ### The invariant -/

/-- The power between two calls. -/
def Power.Level (p : Power) : Prop := p = .off ∨ ∃ n, p = .on (n + 1)

theorem level_on (n : ℕ) : (Power.on (n + 1)).Level := .inr ⟨n, rfl⟩

theorem level_off : Power.off.Level := .inl rfl

theorem Power.Level.reset {p : Power} (h : p.Level) :
    p.reset = decide (0 < p.engineClk ∧ 0 < p.digitalClk) := by
  rcases h with rfl | ⟨n, rfl⟩ <;> simp [Power.off, Power.on]

theorem Power.Level.safe {p : Power} (h : p.Level) : p.Safe := by
  rcases h with rfl | ⟨n, rfl⟩
  · exact safe_of_masked Int.one_pos
  · exact on_safe (n + 1)

structure Inv (d : Controller) : Prop where
  level : d.power.Level
  safe : ∀ p ∈ d.seen, p.Safe

theorem Requested.inv {d : Controller} (h : Requested d) : Inv d := by
  refine ⟨by rw [h.power]; exact level_off, ?_⟩
  intro p hp
  rw [h.seen] at hp
  exact absurd hp List.not_mem_nil

theorem Inv.unmasked {d : Controller} (h : Inv d) : Unmasked d := by
  refine ⟨?_, h.safe⟩
  rcases h.level with hoff | ⟨n, hon⟩
  · simp [hoff, Power.off]
  · simp [hon, Power.on]

theorem At.inv {p : Power} {ws : List Wait} {d : Controller} (h : At p ws d) (hp : p.Level) : Inv d :=
  ⟨by rw [h.power]; exact hp, h.safe⟩

/-- Between two calls, with these waits so far. -/
def Between (ws : List Wait) (d : Controller) : Prop := ∃ p, Power.Level p ∧ At p ws d

section Calls

variable {d : Controller}

theorem Inv.poweron (h : Inv d) : Between d.waits (finalState Dsi.poweron d) := by
  rcases h.level with hoff | ⟨n, hon⟩
  · have hends : Ends (At .off d.waits) Dsi.poweron (fun _ => Between d.waits) fun _ => Between d.waits :=
      poweron_off.post (fun _ _ h => ⟨_, level_on 0, h⟩) fun _ _ h => ⟨_, level_off, h⟩
    exact hends.final ⟨hoff, h.safe, rfl⟩
  · have hends : Ends (At (.on (n + 1)) d.waits) Dsi.poweron (fun _ => Between d.waits) fun _ =>
      Between d.waits :=
      (poweron_on n).post (fun _ _ h => ⟨_, level_on (n + 1), h⟩) fun _ _ h => h.elim
    exact hends.final ⟨hon, h.safe, rfl⟩

/-- A poweroff that does not drop the last use waits for nothing. -/
theorem Inv.poweroff (h : Inv d) (hlast : d.power.refcount ≠ 1) :
    Between d.waits (finalState Dsi.poweroff d) := by
  rcases h.level with hoff | ⟨_ | n, hon⟩
  · have hends : Ends (At .off d.waits) Dsi.poweroff (fun _ => Between d.waits) fun _ => Between d.waits :=
      poweroff_off.post (fun _ _ h => ⟨_, level_off, h⟩) fun _ _ h => h.elim
    exact hends.final ⟨hoff, h.safe, rfl⟩
  · exact absurd (congrArg Power.refcount hon) hlast
  · have hends : Ends (At (.on (n + 2)) d.waits) Dsi.poweroff (fun _ => Between d.waits) fun _ =>
      Between d.waits :=
      (poweroff_on n).post (fun _ _ h => ⟨_, level_on n, h⟩) fun _ _ h => h.elim
    exact hends.final ⟨hon, h.safe, rfl⟩

theorem Inv.poweroff_last (h : Inv d) (hlast : d.power.refcount = 1) :
    At .off (d.waits ++ [⟨vmDoneIntFlag, 500, 1⟩]) (finalState Dsi.poweroff d) := by
  rcases h.level with hoff | ⟨n, hon⟩
  · rw [hoff] at hlast
    cases hlast
  · rw [hon] at hlast
    obtain rfl : n = 0 := Nat.succ.inj hlast
    exact Dsi.poweroff_last.noError.final ⟨hon, h.safe, rfl⟩

theorem Inv.hostTransfer (h : Inv d) (read : Bool) :
    Waited d.power d.waits (finalState (Dsi.hostTransfer read) d) :=
  (hostTransfer_at h.level.reset h.level.safe read).final ⟨rfl, h.safe, rfl⟩

theorem Inv.switchToCmdMode (h : Inv d) (flag timeout : ℕ) :
    Waited d.power d.waits (finalState (Dsi.switchToCmdMode flag timeout) d) :=
  ((switchToCmdMode_at h.level.reset h.level.safe flag timeout).post (fun _ _ h => waited_one h)
    fun _ _ h => waited_one h).final ⟨rfl, h.safe, rfl⟩

theorem Waited.inv {ws : List Wait} {d' : Controller} (h : Waited d.power ws d') (hlevel : d.power.Level) :
    Inv d' := by
  obtain ⟨w, ws', hdepth, hat⟩ := h
  exact hat.inv hlevel

theorem Inv.call (h : Inv d) (c : Call) : Inv (callStep d c) := by
  cases c with
  | poweron =>
    obtain ⟨p, hp, hat⟩ := h.poweron
    exact hat.inv hp
  | poweroff =>
    by_cases hlast : d.power.refcount = 1
    · exact (h.poweroff_last hlast).inv level_off
    · obtain ⟨p, hp, hat⟩ := h.poweroff hlast
      exact hat.inv hp
  | hostTransfer read => exact (h.hostTransfer read).inv h.level
  | switchToCmdMode flag timeout => exact (h.switchToCmdMode flag timeout).inv h.level

end Calls

/-- In every run of power, transfers and mode switches, whatever fails in it: between two calls the IRQ is
    unmasked exactly if the controller is used, and unmasked it always has its clocks and a reset engine. -/
theorem irq_unmasked_while_powered {d : Controller} (h : Requested d) (calls : List Call) :
    Always callStep Unmasked d calls :=
  (always_of_inv (fun _ c h => h.call c) h.inv calls).mono fun _ h => h.unmasked

def probed : Controller where
  power := .off
  lanesReady := false
  videoMode := true
  videoFlag := true
  steps := fun k => if k = 2 then .error .EINVAL else .ok ()
  answers := Stream'.const true
  seen := []
  waits := []
  log := []

/-- The digital clock does not come on at first; then two users, one after the other. -/
theorem irq_unmasked_while_powered_twice : Always callStep Unmasked probed
    [.poweron, .poweron, .poweron, .poweroff, .poweroff, .poweroff] :=
  irq_unmasked_while_powered ⟨rfl, rfl, rfl⟩ [.poweron, .poweron, .poweron, .poweroff, .poweroff, .poweroff]

/-! ### Waits -/

section Waits

variable {d d' : Controller}

structure Waiting (d : Controller) : Prop extends Inv d where
  satisfiable : Satisfiable d

theorem Waited.satisfiable_iff (h : Waited d.power d.waits d') (hd : Satisfiable d) :
    Satisfiable d' ↔ d.power.irqDepth = 0 := by
  obtain ⟨w, ws', hdepth, hat⟩ := h
  rw [Satisfiable, hat.waits]
  refine ⟨?_, ?_⟩
  · intro hall
    rw [← hdepth w List.mem_cons_self]
    exact hall w (List.mem_append_right _ List.mem_cons_self)
  · intro hzero w' hw'
    rcases List.mem_append.mp hw' with hw' | hw'
    · exact hd w' hw'
    · rw [hdepth w' hw', hzero]

/-- A transfer or a mode switch is fine exactly if the controller is used. -/
theorem Waiting.waited_iff (h : Waiting d) (hw : Waited d.power d.waits d') :
    Satisfiable d' ↔ 0 < d.power.refcount := by
  rw [hw.satisfiable_iff h.satisfiable]
  rcases h.level with hoff | ⟨n, hon⟩
  · simp [hoff, Power.off]
  · simp [hon, Power.on]

theorem Waiting.call_iff (h : Waiting d) (c : Call) : Satisfiable (callStep d c) ↔ Powered d c := by
  cases c with
  | poweron =>
    obtain ⟨p, -, hat⟩ := h.toInv.poweron
    have hsame : Satisfiable (callStep d .poweron) := by
      intro w hw
      exact h.satisfiable w (hat.waits ▸ hw)
    exact ⟨fun _ => trivial, fun _ => hsame⟩
  | poweroff =>
    refine ⟨?_, ?_⟩
    · intro hsat hlast
      have hat := h.toInv.poweroff_last hlast
      have hwait : (⟨vmDoneIntFlag, 500, 1⟩ : Wait) ∈ (callStep d .poweroff).waits := by
        rw [callStep, Call.prog, hat.waits]
        exact List.mem_append_right _ List.mem_cons_self
      exact absurd (hsat _ hwait) Int.one_ne_zero
    · intro hlast
      obtain ⟨p, -, hat⟩ := h.toInv.poweroff hlast
      intro w hw
      exact h.satisfiable w (hat.waits ▸ hw)
  | hostTransfer read => exact h.waited_iff (h.toInv.hostTransfer read)
  | switchToCmdMode flag timeout => exact h.waited_iff (h.toInv.switchToCmdMode flag timeout)

end Waits

/-- In every run no wait starts with the IRQ masked exactly if no poweroff drops the last use and every
    transfer and mode switch is made while the controller is used. -/
theorem waits_unmasked_iff {d : Controller} (h : Requested d) (calls : List Call) :
    Always callStep Satisfiable d calls ↔ Steps callStep Powered d calls := by
  have hwaiting : Waiting d := ⟨h.inv, fun w hw => by rw [h.waits] at hw; exact absurd hw List.not_mem_nil⟩
  refine always_iff_steps (fun _ h => h.satisfiable) (fun d c _ h hpowered => ?_) (fun d c _ h hnot => ?_)
    hwaiting fun _ _ => trivial
  · exact ⟨h.toInv.call c, (h.call_iff c).mpr hpowered⟩
  · exact fun hsat => hnot ((h.call_iff c).mp hsat)

theorem waits_unmasked_iff_nested : Always callStep Satisfiable probed
    [.poweron, .poweron, .hostTransfer true] ↔
    Steps callStep Powered probed [.poweron, .poweron, .hostTransfer true] :=
  waits_unmasked_iff ⟨rfl, rfl, rfl⟩ [.poweron, .poweron, .hostTransfer true]

/-- The poweroff of the only user disables the IRQ and then waits 500 ms for it. -/
theorem poweroff_waits_masked : Requested { probed with steps := Stream'.const (.ok ()) } ∧
    ¬ Always callStep Satisfiable { probed with steps := Stream'.const (.ok ()) }
      [.poweron, .poweroff] := by
  refine ⟨⟨rfl, rfl, rfl⟩, ?_⟩
  intro h
  have hwait : (⟨vmDoneIntFlag, 500, 1⟩ : Wait) ∈
      (finalState poweroff (finalState poweron { probed with steps := Stream'.const (.ok ()) })).waits := by
    decide +kernel
  exact absurd (h.2.2 _ hwait) Int.one_ne_zero

end GeminiLinux.Dsi
