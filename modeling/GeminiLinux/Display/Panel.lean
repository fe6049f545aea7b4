import GeminiLinux.Lib.Prog
import GeminiLinux.Lib.Runs
import GeminiLinux.Kernel.Errno

/-! The SSD2092 panel: two bias supplies, a reset line, an optional backlight, and a table of writes that
    sets the controller up.

        prepare:    reset ─▶ avdd ─▶ avee ─▶ release, reset, release ─▶ table ─▶ prepared
                              ╰◀─ avdd off ◀─ avee off ◀─ reset ◀──────────╯ fails
        unprepare:  reset ─▶ avee off ─▶ avdd off

    A write that fails leaves the table at once, with the error of the write. Each prepare comes with what
    its fallible steps return. Every change of the supplies and the reset line is recorded, and so is
    everything that is done to the panel, with the state it is done in. -/

namespace GeminiLinux.PanelSsd2092
open Prog Runs

/-! ### The panel -/

/-- `struct ssd2092`: how often this driver has enabled each supply, whether reset is asserted, and the
    backlight, if there is one. -/
@[ext] structure Priv where
  avdd : ℕ
  avee : ℕ
  resetGpio : Bool
  backlight : Option Bool
  prepared : Bool
  enabled : Bool
  deriving DecidableEq

inductive Act where
  | genericWrite (d : List UInt8)
  | dcsWriteBuffer (d : List UInt8)
  | setDisplayOff | enterSleepMode
  | backlightEnable | backlightDisable
  | msleep (ms : ℕ)
  deriving DecidableEq

structure Entry where
  act : Act
  priv : Priv
  deriving DecidableEq

structure Panel where
  priv : Priv
  outcomes : Stream' (Except Errno Unit)
  seen : List Priv
  acts : List Entry
  log : List (String × List ℤ)

abbrev PanelM := EStateM Errno Panel

def change (f : Priv → Priv) : PanelM Unit :=
  modify fun p => { p with priv := f p.priv, seen := p.seen ++ [f p.priv] }

def act (a : Act) : PanelM Unit := modify fun p => { p with acts := p.acts ++ [⟨a, p.priv⟩] }

def devErr (fmt : String) (args : List ℤ) : PanelM Unit :=
  modify fun p => { p with log := p.log ++ [(fmt, args)] }

def msleep (ms : ℕ) : PanelM Unit := act (.msleep ms)

/-- A call that may fail. -/
def step : PanelM Unit := do
  let r ← modifyGet fun p => (p.outcomes.head, { p with outcomes := p.outcomes.tail })
  MonadExcept.ofExcept r

def setReset (asserted : Bool) : PanelM Unit := change fun s => { s with resetGpio := asserted }

def regulatorEnableAvdd : PanelM Unit := do
  step
  change fun s => { s with avdd := s.avdd + 1 }

def regulatorDisableAvdd : PanelM Unit := change fun s => { s with avdd := s.avdd - 1 }

def regulatorEnableAvee : PanelM Unit := do
  step
  change fun s => { s with avee := s.avee + 1 }

def regulatorDisableAvee : PanelM Unit := change fun s => { s with avee := s.avee - 1 }

/-! ### The table -/

inductive InitStep where
  | dcs (cmd : UInt8) (params : List UInt8)
  | msleep (ms : ℕ)
  deriving DecidableEq

/-- `ssd2092_dcs`: manufacturer registers are sent as generic packets. -/
def ssd2092Dcs (cmd : UInt8) (params : List UInt8) : PanelM Unit :=
  onError (do
    act (if 0xb0 ≤ cmd then .genericWrite (cmd :: params) else .dcsWriteBuffer (cmd :: params))
    step) fun e => devErr "DSI write (cmd 0x%02x) failed: %zd" [cmd.toNat, e.ret]

def InitStep.prog : InitStep → PanelM Unit
  | .dcs cmd params => ssd2092Dcs cmd params
  | .msleep ms => PanelSsd2092.msleep ms

/-- The writes and delays of `ssd2092_init_sequence`. -/
def initSteps : List InitStep :=
  [.dcs 0x28 [], .dcs 0x10 [], .dcs 0xb5 [0x00, 0x00], .dcs 0xb3 [0x03, 0x96], .dcs 0xb4 [0x21, 0xff],
    .dcs 0xe1 [0x00, 0x00], .dcs 0xe1 [0x03, 0x00, 0x10], .dcs 0xb0 [0x04, 0x01], .dcs 0xb0 [0x07, 0x14],
    .dcs 0xc6 [0x04, 0x2d], .dcs 0xb9 [0x0e, 0x44], .dcs 0xc1 [0x0c, 0x26], .dcs 0xc1 [0x08, 0x99],
    .dcs 0xb9 [0x23, 0x00], .dcs 0xc2 [0x04, 0x0f], .dcs 0xb9 [0x11, 0x22], .dcs 0xb9 [0x12, 0x22],
    .dcs 0xb9 [0x13, 0x22], .dcs 0xb3 [0x19, 0x0b], .dcs 0xb0 [0x3d, 0xc8], .dcs 0xb3 [0x0f, 0x20],
    .dcs 0x36 [0x02], .dcs 0xc7 [0x01, 0x09], .dcs 0xb3 [0x15, 0x80], .dcs 0xb3 [0x1e, 0x02],
    .dcs 0xb3 [0x14, 0xc0], .dcs 0xb3 [0x16, 0x50], .dcs 0xb3 [0x1c, 0xe4], .dcs 0xb3 [0x28, 0x09],
    .dcs 0xb3 [0x24, 0x19], .dcs 0xb0 [0x12, 0x00], .dcs 0xb0 [0x13, 0x14], .dcs 0xb0 [0x1a, 0x00],
    .dcs 0xb0 [0x1b, 0x14], .dcs 0xc1 [0x0d, 0x87], .dcs 0xc1 [0x0e, 0x87],
    .dcs 0xc3 [0x00, 0x10, 0x2e, 0x3e, 0x48, 0x5e, 0x6b, 0x7a, 0x83, 0x97, 0xa3, 0xa8, 0xa5, 0xac, 0xad,
      0xb5, 0xc1, 0xc4, 0x4e, 0x4f, 0x59, 0x5a],
    .dcs 0xc3 [0x15, 0x10, 0x2e, 0x3e, 0x48, 0x5e, 0x6b, 0x7a, 0x83, 0x97, 0xa3, 0xa8, 0xa5, 0xac, 0xad,
      0xb5, 0xc1, 0xc4, 0x4e, 0x4f, 0x59, 0x5a],
    .dcs 0xbb [0x01, 0x8a], .dcs 0xbb [0x02, 0x23], .dcs 0xbb [0x03, 0xbc], .dcs 0xbb [0x04, 0xc0],
    .dcs 0xbb [0x05, 0x19], .dcs 0xbb [0x06, 0x37], .dcs 0xbb [0x07, 0xee], .dcs 0xbb [0x08, 0xdd],
    .dcs 0xbb [0x09, 0xcc], .dcs 0xbb [0x0a, 0x36], .dcs 0xbb [0x0b, 0x70], .dcs 0xbb [0x0c, 0x00],
    .dcs 0xbb [0x0d, 0x8a], .dcs 0xbb [0x0e, 0x23], .dcs 0xbb [0x0f, 0xbc], .dcs 0xbb [0x10, 0xc0],
    .dcs 0xbb [0x11, 0x18], .dcs 0xbb [0x12, 0xa7], .dcs 0xbb [0x13, 0xee], .dcs 0xbb [0x14, 0xdd],
    .dcs 0xbb [0x15, 0xcc], .dcs 0xbb [0x16, 0x36], .dcs 0xbb [0x17, 0x70], .dcs 0xbb [0x18, 0x00],
    .dcs 0xbb [0x31, 0x01], .dcs 0xbd [0x00, 0xf0], .dcs 0xbd [0x01, 0xf0], .dcs 0xbd [0x02, 0xf0],
    .dcs 0xbd [0x03, 0xf0], .dcs 0xbd [0x1a, 0x02], .dcs 0xbd [0x1b, 0x24], .dcs 0xbd [0x1d, 0x01],
    .dcs 0xbd [0x1e, 0x01], .dcs 0xbd [0x21, 0x00], .dcs 0xbd [0x1f, 0x79], .dcs 0xbd [0x20, 0x14],
    .dcs 0xbd [0x22, 0x89], .dcs 0xbd [0x23, 0x13], .dcs 0xbd [0x24, 0x35], .dcs 0xbd [0x26, 0x01],
    .dcs 0xbd [0x27, 0x01], .dcs 0xbd [0x2a, 0x00], .dcs 0xbd [0x28, 0x79], .dcs 0xbd [0x29, 0x14],
    .dcs 0xbd [0x2b, 0x89], .dcs 0xbd [0x2c, 0x33], .dcs 0xbd [0x2d, 0x33], .dcs 0xbd [0x2e, 0x11],
    .dcs 0xbd [0x2f, 0x11], .dcs 0xbd [0x31, 0x22], .dcs 0xbd [0x32, 0x01], .dcs 0xbd [0x33, 0x04],
    .dcs 0xbd [0x34, 0x11], .dcs 0xbd [0x35, 0x11], .dcs 0xbd [0x37, 0x22], .dcs 0xbd [0x38, 0x01],
    .dcs 0xbd [0x39, 0x04], .dcs 0xbd [0x3a, 0x1e], .dcs 0xbd [0x3b, 0x1e], .dcs 0xbd [0x3c, 0x1e],
    .dcs 0xbd [0x3d, 0x1e], .dcs 0xbd [0x40, 0xaa], .dcs 0xbd [0x42, 0x1e], .dcs 0xbd [0x43, 0x1e],
    .dcs 0xbd [0x44, 0x1e], .dcs 0xbd [0x45, 0x1e], .dcs 0xbd [0x48, 0xaa], .dcs 0xba [0x02, 0x05],
    .dcs 0xba [0x03, 0x01], .dcs 0xbc [0x1e, 0x71], .dcs 0xbc [0x24, 0x83], .dcs 0xb8 [0x03, 0xa9],
    .dcs 0xba [0x15, 0x41], .dcs 0xbb [0x19, 0x8a], .dcs 0xbb [0x1a, 0x32], .dcs 0xbb [0x1b, 0xbc],
    .dcs 0xbb [0x1c, 0xc2], .dcs 0xbb [0x1d, 0x39], .dcs 0xbb [0x1e, 0x37], .dcs 0xbb [0x1f, 0xee],
    .dcs 0xbb [0x20, 0xdd], .dcs 0xbb [0x21, 0xcc], .dcs 0xbb [0x22, 0x36], .dcs 0xbb [0x23, 0x70],
    .dcs 0xbb [0x24, 0x00], .dcs 0xbb [0x25, 0x8a], .dcs 0xbb [0x26, 0x32], .dcs 0xbb [0x27, 0xbc],
    .dcs 0xbb [0x28, 0xc2], .dcs 0xbb [0x29, 0x38], .dcs 0xbb [0x2a, 0xa7], .dcs 0xbb [0x2b, 0xee],
    .dcs 0xbb [0x2c, 0xdd], .dcs 0xbb [0x2d, 0xcc], .dcs 0xbb [0x2e, 0x36], .dcs 0xbb [0x2f, 0x70],
    .dcs 0xbb [0x30, 0x00], .dcs 0xb8 [0x15, 0xa2], .dcs 0xb0 [0x39, 0x00], .dcs 0xc6 [0x00, 0x03, 0x40],
    .dcs 0xb3 [0x18, 0x00], .dcs 0xba [0x17, 0x28], .dcs 0xba [0x23, 0x15], .dcs 0xb0 [0x06, 0x2c],
    .dcs 0xba [0x17, 0x28], .dcs 0xba [0x23, 0x15], .dcs 0xba [0x16, 0x00], .dcs 0xba [0x28, 0x02, 0x02],
    .dcs 0xba [0x0f, 0x8c], .dcs 0xba [0x10, 0x0c], .dcs 0xba [0x11, 0x23],
    .dcs 0xba [0x12, 0x9d, 0x9d, 0x9d], .dcs 0xba [0x25, 0x22], .dcs 0xba [0x0d, 0x40, 0x02],
    .dcs 0xba [0x2f, 0x8c], .dcs 0xc2 [0x04, 0x00], .dcs 0xc2 [0x05, 0xc0],
    .dcs 0xb9 [0x11, 0x00, 0x00, 0x00, 0x00, 0x00, 0x00, 0x00, 0x00, 0x00], .dcs 0xba [0x15, 0x33],
    .dcs 0xb9 [0x00, 0x5f, 0x5f, 0x61, 0x0a], .dcs 0xbd [0x08, 0x07], .dcs 0xbd [0x09, 0x07],
    .dcs 0xbc [0x03, 0x00], .dcs 0xbc [0x04, 0x00], .dcs 0xbc [0x05, 0x00], .dcs 0xbc [0x07, 0x10],
    .dcs 0xbc [0x08, 0x10], .dcs 0xbc [0x09, 0x10], .dcs 0xb9 [0x11, 0x00], .dcs 0xb9 [0x12, 0x00],
    .dcs 0xb9 [0x13, 0x00], .dcs 0xb9 [0x1d, 0x00], .dcs 0xb9 [0x1e, 0x00], .dcs 0xb9 [0x1f, 0x00],
    .dcs 0xc2 [0x00, 0x07], .dcs 0xc1 [0x0b, 0x1f], .dcs 0xb1 [0x05, 0x2f], .dcs 0x35 [0x00],
    .dcs 0xb0 [0x01, 0x08, 0x70], .dcs 0xb9 [0x25, 0xa0], .dcs 0xba [0x2f, 0xcc], .dcs 0xc1 [0x02, 0xb0],
    .dcs 0xb3 [0x1c, 0xc4], .dcs 0xb3 [0x1d, 0x80], .dcs 0xbd [0x11, 0x02, 0x22], .dcs 0x36 [0x09],
    .dcs 0x11 [0x00], .msleep 120, .dcs 0x29 [0x00], .msleep 50, .dcs 0x51 [0xff], .dcs 0x53 [0x24],
    .dcs 0x55 [0x00]]

def ssd2092InitSequence : PanelM Unit := initSteps.forM InitStep.prog

/-! ### The panel's functions -/

def ssd2092Prepare : PanelM Unit := do
  if (← get).priv.prepared then pure ()
  else do
    setReset true
    onError regulatorEnableAvdd fun e => devErr "failed to enable avdd: %d" [e.ret]
    onError (do
      onError regulatorEnableAvee fun e => devErr "failed to enable avee: %d" [e.ret]
      msleep 20
      setReset false
      msleep 10
      setReset true
      msleep 10
      setReset false
      msleep 20
      -- `disable_avee` falls through to `disable_avdd`
      onError ssd2092InitSequence fun e => do
        devErr "init sequence failed: %d" [e.ret]
        setReset true
        regulatorDisableAvee) fun _ => regulatorDisableAvdd
    change fun s => { s with prepared := true }

/-- `backlight_enable` or `backlight_disable`, where there is a backlight. -/
def setBacklight (a : Act) (lit : Bool) : PanelM Unit := do
  if (← get).priv.backlight.isSome then do
    act a
    change fun s => { s with backlight := some lit }
  else pure ()

def ssd2092Enable : PanelM Unit := do
  if (← get).priv.enabled then pure ()
  else do
    setBacklight .backlightEnable true
    change fun s => { s with enabled := true }

def ssd2092Disable : PanelM Unit := do
  if !(← get).priv.enabled then pure ()
  else do
    setBacklight .backlightDisable false
    act .setDisplayOff
    msleep 50
    act .enterSleepMode
    msleep 120
    change fun s => { s with enabled := false }

def ssd2092Unprepare : PanelM Unit := do
  if !(← get).priv.prepared then pure ()
  else do
    setReset true
    msleep 10
    regulatorDisableAvee
    regulatorDisableAvdd
    change fun s => { s with prepared := false }

/-! ### Runs -/

/-- A call, with what the fallible steps of a prepare return. -/
inductive Call where
  | prepare (outcomes : Stream' (Except Errno Unit))
  | enable | disable | unprepare

def Call.prog : Call → PanelM Unit
  | .prepare outcomes => do
    modify fun p => { p with outcomes }
    ssd2092Prepare
  | .enable => ssd2092Enable
  | .disable => ssd2092Disable
  | .unprepare => ssd2092Unprepare

def callStep (p : Panel) (c : Call) : Panel := finalState c.prog p

/-- As `ssd2092_probe` leaves it. -/
structure Probed (p : Panel) : Prop where
  avdd : p.priv.avdd = 0
  avee : p.priv.avee = 0
  resetGpio : p.priv.resetGpio = true
  prepared : p.priv.prepared = false
  enabled : p.priv.enabled = false
  backlight : p.priv.backlight ≠ some true
  seen : p.seen = []
  acts : p.acts = []

/-- Both supplies are on and reset is released. -/
def Priv.Powered (s : Priv) : Prop := 0 < s.avdd ∧ 0 < s.avee ∧ s.resetGpio = false

def Act.isInit : Act → Bool
  | .genericWrite _ => true
  | .dcsWriteBuffer _ => true
  | _ => false

/-- The first error of the first `n` outcomes. -/
def firstError : ℕ → Stream' (Except Errno Unit) → Except Errno Unit
  | 0, _ => .ok ()
  | n + 1, outcomes => do
    outcomes.head
    firstError n outcomes.tail

/-- The steps of a prepare that may fail: the two supplies and the writes. -/
def prepareSteps : ℕ := 2 + initSteps.countP fun s => s matches .dcs _ _

/-- The supplies and reset follow the flag, avee has never been on without avdd, and nothing has been
    written to a controller that has no power. -/
structure Follows (p : Panel) : Prop where
  avdd : p.priv.avdd = if p.priv.prepared then 1 else 0
  avee : p.priv.avee = if p.priv.prepared then 1 else 0
  resetGpio : p.priv.resetGpio = !p.priv.prepared
  seen : ∀ s ∈ p.seen, 0 < s.avee → 0 < s.avdd
  acts : ∀ e ∈ p.acts, e.act.isInit = true → e.priv.Powered

/-- A prepare made now returns the first error of its steps, and one that fails leaves the panel as it is. -/
structure Atomic (p : Panel) : Prop where
  returns : ∀ outcomes, outcome (Call.prepare outcomes).prog p =
    if p.priv.prepared then .ok () else firstError prepareSteps outcomes
  undone : ∀ outcomes e, outcome (Call.prepare outcomes).prog p = .error e →
    (callStep p (.prepare outcomes)).priv = p.priv

/-! ### What is done and what is tried -/

theorem firstError_add (n m : ℕ) (outcomes : Stream' (Except Errno Unit)) :
    firstError (n + m) outcomes = firstError n outcomes >>= fun _ => firstError m (outcomes.drop n) := by
  induction n generalizing outcomes with
  | zero =>
    rw [Nat.zero_add]
    rfl
  | succ n ih =>
    rw [Nat.succ_add, firstError, firstError, ih]
    rcases outcomes.head with e | _
    · rfl
    · rfl

/-- The panel is `s`, `outcomes` are still to come, the supplies have come and gone in order, and what has
    been done is `Q`. -/
structure At (Q : Entry → Prop) (s : Priv) (outcomes : Stream' (Except Errno Unit)) (p : Panel) : Prop where
  priv : p.priv = s
  outcomes : p.outcomes = outcomes
  seen : ∀ s ∈ p.seen, 0 < s.avee → 0 < s.avdd
  acts : ∀ e ∈ p.acts, Q e

/-- `p` takes the panel from `s` to `s'` and cannot fail. -/
def Does (Q : Entry → Prop) (s s' : Priv) (p : PanelM Unit) : Prop :=
  ∀ outcomes, Ends (At Q s outcomes) p (fun _ => At Q s' outcomes) fun _ _ => False

/-- `p` tries `n` steps: it takes the panel from `s` to `s'`, or to `f` and fails with the first error. -/
def Tries (Q : Entry → Prop) (n : ℕ) (s s' f : Priv) (p : PanelM Unit) : Prop :=
  ∀ outcomes, Ends (At Q s outcomes) p
    (fun _ q => firstError n outcomes = .ok () ∧ At Q s' (outcomes.drop n) q)
    fun e q => firstError n outcomes = .error e ∧ ∃ outcomes', At Q f outcomes' q

section Rules

variable {Q : Entry → Prop} {s s' s'' f f' : Priv} {p q : PanelM Unit} {n m : ℕ}

theorem Does.change {g : Priv → Priv} (h : 0 < (g s).avee → 0 < (g s).avdd) :
    Does Q s (g s) (change g) := by
  refine fun outcomes => .modify fun p hp => ⟨congrArg g hp.priv, hp.outcomes, fun s' hs' => ?_, hp.acts⟩
  rcases List.mem_append.mp hs' with hs' | hs'
  · exact hp.seen s' hs'
  · rw [List.mem_singleton.mp hs', hp.priv]
    exact h

theorem Does.act {a : Act} (h : Q ⟨a, s⟩) : Does Q s s (act a) := by
  refine fun outcomes => .modify fun p hp => ⟨hp.priv, hp.outcomes, hp.seen, fun e he => ?_⟩
  rcases List.mem_append.mp he with he | he
  · exact hp.acts e he
  · rw [List.mem_singleton.mp he, hp.priv]
    exact h

theorem Does.devErr (fmt : String) (args : List ℤ) : Does Q s s (devErr fmt args) :=
  fun _ => .modify fun _ hp => ⟨hp.priv, hp.outcomes, hp.seen, hp.acts⟩

theorem Does.pure : Does Q s s (Pure.pure ()) := fun _ => .pure fun _ h => h

theorem Does.bind (hp : Does Q s s' p) (hq : Does Q s' s'' q) : Does Q s s'' (p >>= fun _ => q) :=
  fun outcomes => .bind (hp outcomes) fun _ => hq outcomes

theorem Tries.step : Tries Q 1 s s s step := by
  refine fun outcomes => .bind (.modifyGet (Q := fun r p => r = outcomes.head ∧ At Q s outcomes.tail p)
    fun p hp => ⟨by rw [hp.outcomes], hp.priv, by rw [hp.outcomes], hp.seen, hp.acts⟩) fun r =>
      .of_and fun hr => ?_
  refine .ofExcept (fun p a ha hp => ⟨?_, ?_⟩) fun p e he hp => ⟨?_, outcomes.tail, hp⟩
  · rw [firstError, ← hr, ha]
    rfl
  · exact hp
  · rw [firstError, ← hr, he]
    rfl

/-- After what cannot fail. -/
theorem Tries.after (hp : Does Q s s' p) (hq : Tries Q n s' s'' f q) :
    Tries Q n s s'' f (p >>= fun _ => q) :=
  fun outcomes => .bind (hp outcomes).noError fun _ => hq outcomes

/-- Before what cannot fail. -/
theorem Tries.andThen (hp : Tries Q n s s' f p) (hq : Does Q s' s'' q) :
    Tries Q n s s'' f (p >>= fun _ => q) := by
  refine fun outcomes => .bind (hp outcomes) fun _ => .of_and fun hok => ?_
  exact (hq _).noError.returning fun _ _ h => ⟨hok, h⟩

/-- One after the other, with one way out of both. -/
theorem Tries.bind (hp : Tries Q n s s' f p) (hq : Tries Q m s' s'' f q) :
    Tries Q (n + m) s s'' f (p >>= fun _ => q) := by
  intro outcomes
  refine .bind ((hp outcomes).failing ?_) fun _ => .of_and fun hok => ?_
  · rintro e q ⟨herror, hf⟩
    rw [firstError_add, herror]
    exact ⟨rfl, hf⟩
  · refine (hq _).post ?_ ?_
    · rintro _ q ⟨hok', hq⟩
      rw [firstError_add, hok, ← Stream'.drop_drop]
      exact ⟨hok', hq⟩
    · rintro e q ⟨herror, hf⟩
      rw [firstError_add, hok]
      exact ⟨herror, hf⟩

theorem Tries.onError {undo : Errno → PanelM Unit} (hp : Tries Q n s s' f p)
    (hundo : ∀ e, Does Q f f' (undo e)) : Tries Q n s s' f' (onError p undo) := by
  intro outcomes
  refine .onError (hp outcomes) fun e => .of_and fun herror => .of_exists fun outcomes' => ?_
  exact (hundo e outcomes').noError.returning fun _ _ h => ⟨herror, outcomes', h⟩

theorem Does.read {g : Panel → PanelM Unit} (h : ∀ p, p.priv = s → Does Q s s' (g p)) :
    Does Q s s' (EStateM.get >>= g) :=
  fun outcomes => .read fun p hp => (h p hp.priv outcomes).starting hp

theorem Tries.read {g : Panel → PanelM Unit} (h : ∀ p, p.priv = s → Tries Q n s s' f (g p)) :
    Tries Q n s s' f (EStateM.get >>= g) :=
  fun outcomes => .read fun p hp => (h p hp.priv outcomes).starting hp

/-- A program that tries no step. -/
theorem Tries.of_does (hp : Does Q s s' p) : Tries Q 0 s s' f p := by
  intro outcomes
  exact (hp outcomes).noError.returning fun _ _ h => ⟨rfl, h⟩

end Rules

/-! ### What the functions do -/

/-- Writes to a controller with power may be done, and delays. -/
structure Allows (Q : Entry → Prop) : Prop where
  init : ∀ a s, a.isInit = true → s.Powered → Q ⟨a, s⟩
  msleep : ∀ ms s, Q ⟨.msleep ms, s⟩

/-- The panel between two calls. -/
def Priv.of (prepared : Bool) (backlight : Option Bool) (enabled : Bool) : Priv where
  avdd := if prepared then 1 else 0
  avee := if prepared then 1 else 0
  resetGpio := !prepared
  backlight := backlight
  prepared := prepared
  enabled := enabled

section Functions

variable {Q : Entry → Prop} (hQ : Allows Q) {s : Priv} {prepared enabled : Bool} {backlight : Option Bool}
include hQ

theorem msleep_does (ms : ℕ) : Does Q s s (msleep ms) := .act (hQ.msleep ms s)

theorem ssd2092Dcs_tries (hs : s.Powered) (cmd : UInt8) (params : List UInt8) :
    Tries Q 1 s s s (ssd2092Dcs cmd params) := by
  refine .onError (.after (.act (hQ.init _ s ?_ hs)) .step) fun e => .devErr _ _
  split_ifs
  · rfl
  · rfl

/-- The table is tried write by write. -/
theorem forM_tries (hs : s.Powered) (steps : List InitStep) :
    Tries Q (steps.countP fun s => s matches .dcs _ _) s s s (steps.forM InitStep.prog) := by
  induction steps with
  | nil => exact .of_does fun _ => .pure fun _ h => h
  | cons step steps ih =>
    rw [List.countP_cons, Nat.add_comm]
    cases step with
    | dcs cmd params => exact .bind (ssd2092Dcs_tries hQ hs cmd params) ih
    | msleep ms => exact .bind (.of_does (msleep_does hQ ms)) ih

/-- The panel in the middle of a prepare. -/
def Priv.midway (avdd avee : ℕ) (resetGpio : Bool) (backlight : Option Bool) (enabled : Bool) : Priv :=
  { avdd, avee, resetGpio, backlight, prepared := false, enabled }

/-- The table, or the way back down to the supply that was switched on first. -/
theorem table_tries : Tries Q (initSteps.countP fun s => s matches .dcs _ _)
    (.midway 1 1 false backlight enabled) (.midway 1 1 false backlight enabled)
    (.midway 1 0 true backlight enabled)
    (onError ssd2092InitSequence fun e => do
      devErr "init sequence failed: %d" [e.ret]
      setReset true
      regulatorDisableAvee) := by
  have hpowered : (Priv.midway 1 1 false backlight enabled).Powered := ⟨Nat.one_pos, Nat.one_pos, rfl⟩
  have hassert : Does Q (.midway 1 1 false backlight enabled) (.midway 1 1 true backlight enabled)
      (setReset true) := .change fun _ => Nat.one_pos
  have haveeOff : Does Q (.midway 1 1 true backlight enabled) (.midway 1 0 true backlight enabled)
      regulatorDisableAvee := .change fun _ => Nat.one_pos
  refine .onError (forM_tries hQ hpowered initSteps) fun e => ?_
  exact .bind (.devErr _ _) (.bind hassert haveeOff)

/-- The two supplies and the writes are tried in this order, and each label undoes what came before it. -/
theorem prepare_off : Tries Q prepareSteps (.of false backlight enabled) (.of true backlight enabled)
    (.of false backlight enabled) ssd2092Prepare := by
  have hfirst : Does Q (.of false backlight enabled) (.midway 0 0 true backlight enabled)
      (setReset true) := .change fun h => absurd h (lt_irrefl 0)
  have havdd : Tries Q 1 (.midway 0 0 true backlight enabled) (.midway 1 0 true backlight enabled)
      (.of false backlight enabled) regulatorEnableAvdd := .andThen .step (.change fun _ => Nat.one_pos)
  have havddOff : Does Q (.midway 1 0 true backlight enabled) (.of false backlight enabled)
      regulatorDisableAvdd := .change fun h => absurd h (lt_irrefl 0)
  have havee : Tries Q 1 (.midway 1 0 true backlight enabled) (.midway 1 1 true backlight enabled)
      (.midway 1 0 true backlight enabled) regulatorEnableAvee := .andThen .step (.change fun _ => Nat.one_pos)
  have hrelease : Does Q (.midway 1 1 true backlight enabled) (.midway 1 1 false backlight enabled)
      (setReset false) := .change fun _ => Nat.one_pos
  have hassert : Does Q (.midway 1 1 false backlight enabled) (.midway 1 1 true backlight enabled)
      (setReset true) := .change fun _ => Nat.one_pos
  have hprepared : Does Q (.midway 1 1 false backlight enabled) (.of true backlight enabled)
      (change fun s => { s with prepared := true }) := .change fun _ => Nat.one_pos
  have hsteps : prepareSteps = 1 + (1 + initSteps.countP fun s => s matches .dcs _ _) := by
    rw [prepareSteps, ← Nat.add_assoc]
  rw [hsteps]
  refine .read fun p hp => ?_
  rw [if_neg (by rw [hp]; simp [Priv.of])]
  refine .after hfirst (.bind (.onError havdd fun e => .devErr _ _) (.andThen ?_ hprepared))
  refine .onError ?_ fun _ => havddOff
  refine .bind (.onError havee fun e => .devErr _ _) (.after (msleep_does hQ 20) (.after hrelease ?_))
  refine .after (msleep_does hQ 10) (.after hassert (.after (msleep_does hQ 10) ?_))
  exact .after hrelease (.after (msleep_does hQ 20) (table_tries hQ))

omit hQ in
theorem prepare_on : Does Q (.of true backlight enabled) (.of true backlight enabled) ssd2092Prepare := by
  refine .read fun p hp => ?_
  rw [if_pos (by rw [hp]; rfl)]
  exact .pure

omit hQ in
theorem enable_on (henabled : s.enabled = true) : Does Q s s ssd2092Enable := by
  refine .read fun p hp => ?_
  rw [if_pos (by rw [hp, henabled])]
  exact .pure

omit hQ in
theorem setBacklight_does {a : Act} {lit : Bool}
    (ha : backlight.isSome = true → Q ⟨a, .of prepared backlight enabled⟩) :
    Does Q (.of prepared backlight enabled) (.of prepared (backlight.map fun _ => lit) enabled)
      (setBacklight a lit) := by
  have hsafe : 0 < (Priv.of prepared (some lit) enabled).avee →
      0 < (Priv.of prepared (some lit) enabled).avdd :=
    fun h => h
  refine .read fun p hp => ?_
  cases backlight with
  | none =>
    rw [if_neg (by rw [hp]; simp [Priv.of])]
    exact .pure
  | some b =>
    rw [if_pos (by rw [hp]; rfl)]
    exact .bind (.act (ha rfl)) (.change hsafe)

omit hQ in
/-- An enable lights the backlight in the state it finds. -/
theorem enable_off (hlight : backlight.isSome = true → Q ⟨.backlightEnable, .of prepared backlight false⟩) :
    Does Q (.of prepared backlight false) (.of prepared (backlight.map fun _ => true) true)
      ssd2092Enable := by
  have hsafe : 0 < (Priv.of prepared (backlight.map fun _ => true) true).avee →
      0 < (Priv.of prepared (backlight.map fun _ => true) true).avdd := fun h => h
  refine .read fun p hp => ?_
  rw [if_neg (by rw [hp]; simp [Priv.of])]
  exact .bind (setBacklight_does hlight) (.change hsafe)

omit hQ in
theorem disable_off (henabled : s.enabled = false) : Does Q s s ssd2092Disable := by
  refine .read fun p hp => ?_
  rw [if_pos (by rw [hp, henabled]; rfl)]
  exact .pure

/-- A disable sends both commands in the state it finds, with the backlight off. -/
theorem disable_on (hlight : Q ⟨.backlightDisable, .of prepared backlight true⟩)
    (hoff : ∀ backlight, Q ⟨.setDisplayOff, .of prepared backlight true⟩)
    (hsleep : ∀ backlight, Q ⟨.enterSleepMode, .of prepared backlight true⟩) :
    Does Q (.of prepared backlight true) (.of prepared (backlight.map fun _ => false) false)
      ssd2092Disable := by
  refine .read fun p hp => ?_
  rw [if_neg (by rw [hp]; simp [Priv.of])]
  refine .bind (setBacklight_does fun _ => hlight) (.bind (.act (hoff _)) ?_)
  refine .bind (msleep_does hQ 50) (.bind (.act (hsleep _)) (.bind (msleep_does hQ 120) ?_))
  have hsafe : 0 < (Priv.of prepared (backlight.map fun _ => false) false).avee →
      0 < (Priv.of prepared (backlight.map fun _ => false) false).avdd := fun h => h
  exact .change hsafe

theorem unprepare_on : Does Q (.of true backlight enabled)
    (.of false backlight enabled) ssd2092Unprepare := by
  refine .read fun p hp => ?_
  rw [if_neg (by rw [hp]; simp [Priv.of])]
  refine .bind (.change fun _ => Nat.one_pos) (.bind (msleep_does hQ 10) ?_)
  refine .bind (.change fun h => absurd h (lt_irrefl 0))
    (.bind (.change fun h => absurd h (lt_irrefl 0)) ?_)
  exact .change fun h => absurd h (lt_irrefl 0)

omit hQ in
theorem unprepare_off : Does Q (.of false backlight enabled)
    (.of false backlight enabled) ssd2092Unprepare := by
  refine .read fun p hp => ?_
  rw [if_pos (by rw [hp]; rfl)]
  exact .pure

/-- A prepare that comes with its outcomes returns the first error of its steps, and leaves the panel
    prepared or as it is. -/
theorem prepare_ends (outcomes outcomes' : Stream' (Except Errno Unit)) :
    Ends (At Q (.of prepared backlight enabled) outcomes') (Call.prepare outcomes).prog
      (fun _ p => (if prepared then .ok () else firstError prepareSteps outcomes) = .ok () ∧
        ∃ rest, At Q (.of true backlight enabled) rest p)
      fun e p => (if prepared then .ok () else firstError prepareSteps outcomes) = .error e ∧
        ∃ rest, At Q (.of prepared backlight enabled) rest p := by
  refine .bind (I := fun _ => At Q (.of prepared backlight enabled) outcomes)
    (.modify fun p hp => ⟨hp.priv, rfl, hp.seen, hp.acts⟩) fun _ => ?_
  cases prepared with
  | false =>
    simp only [Bool.false_eq_true, if_false]
    refine (prepare_off hQ outcomes).returning ?_
    rintro _ p ⟨hok, hp⟩
    exact ⟨hok, _, hp⟩
  | true => exact (prepare_on outcomes).noError.returning fun _ p hp => ⟨rfl, _, hp⟩

end Functions

/-! ### Every run -/

/-- Writes of the table have power. -/
def InitPowered (e : Entry) : Prop := e.act.isInit = true → e.priv.Powered

theorem allows_initPowered : Allows InitPowered := ⟨fun _ _ _ h _ => h, nofun⟩

/-- What holds between any two calls. -/
def Inv (p : Panel) : Prop := ∃ prepared backlight enabled outcomes,
  At InitPowered (.of prepared backlight enabled) outcomes p

theorem Inv.of_probed {p : Panel} (h : Probed p) : Inv p := by
  refine ⟨false, p.priv.backlight, false, p.outcomes, ?_, rfl, by simp [h.seen], by simp [h.acts]⟩
  exact Priv.ext h.avdd h.avee h.resetGpio rfl h.prepared h.enabled

theorem Does.inv {p : Panel} {q : PanelM Unit} {prepared prepared' enabled enabled' : Bool}
    {backlight backlight' : Option Bool} {outcomes : Stream' (Except Errno Unit)}
    (h : Does InitPowered (.of prepared backlight enabled) (.of prepared' backlight' enabled') q)
    (hp : At InitPowered (.of prepared backlight enabled) outcomes p) : Inv (finalState q p) :=
  Ends.final (R := Inv) ((h outcomes).noError.returning
    (fun _ _ h => ⟨prepared', backlight', enabled', _, h⟩)) hp

theorem Inv.call {p : Panel} (h : Inv p) (c : Call) : Inv (callStep p c) := by
  obtain ⟨prepared, backlight, enabled, outcomes, hp⟩ := h
  cases c with
  | prepare outcomes' =>
    refine Ends.final (R := Inv) ((prepare_ends allows_initPowered outcomes' outcomes).post ?_ ?_) hp
    · rintro _ p ⟨_, rest, hp⟩
      exact ⟨_, _, _, _, hp⟩
    · rintro _ p ⟨_, rest, hp⟩
      exact ⟨_, _, _, _, hp⟩
  | enable =>
    cases enabled with
    | false => exact (enable_off fun _ => nofun).inv hp
    | true => exact (enable_on rfl).inv hp
  | disable =>
    cases enabled with
    | false => exact (disable_off rfl).inv hp
    | true => exact (disable_on allows_initPowered nofun (fun _ => nofun) fun _ => nofun).inv hp
  | unprepare =>
    cases prepared with
    | false => exact unprepare_off.inv hp
    | true => exact (unprepare_on allows_initPowered).inv hp

theorem Inv.follows {p : Panel} (h : Inv p) : Follows p := by
  obtain ⟨prepared, backlight, enabled, outcomes, hp⟩ := h
  refine ⟨?_, ?_, ?_, hp.seen, hp.acts⟩
  · rw [hp.priv]
    rfl
  · rw [hp.priv]
    rfl
  · rw [hp.priv]
    rfl

theorem Inv.atomic {p : Panel} (h : Inv p) : Atomic p := by
  obtain ⟨prepared, backlight, enabled, outcomes, hp⟩ := h
  have hprepared : p.priv.prepared = prepared := by rw [hp.priv]; rfl
  refine ⟨?_, ?_⟩
  · intro outcomes'
    rw [hprepared]
    exact ((prepare_ends allows_initPowered outcomes' outcomes).post (fun _ _ h => h.1)
      fun _ _ h => h.1).outcome_eq hp
  · intro outcomes' e he
    obtain ⟨_, rest, hp'⟩ := (prepare_ends allows_initPowered outcomes' outcomes).final_error hp he
    exact hp'.priv.trans hp.priv.symm

/-- In every run of prepares, enables, disables and unprepares, whatever fails in it: between two calls
    the supplies and reset follow the flag, and a prepare that fails changes nothing and returns the error
    of its first failing step; avee is never on without avdd, and the table is written only to a
    controller that has power. -/
theorem follows_prepared {p : Panel} (h : Probed p) (calls : List Call) :
    Always callStep (fun p => Follows p ∧ Atomic p) p calls := by
  have hinv : ∀ p c, Inv p → Inv (callStep p c) := fun _ c h => h.call c
  exact (always_of_inv hinv (Inv.of_probed h) calls).mono fun _ h => ⟨h.follows, h.atomic⟩

def probed : Panel where
  priv := .of false (some false) false
  outcomes := Stream'.const (.ok ())
  seen := []
  acts := []
  log := []

/-- Only the step of this number fails. -/
def failAt (k : ℕ) : Stream' (Except Errno Unit) := fun n => if n = k then .error .ETIMEDOUT else .ok ()

/-- A supply fails, then a write, and the third prepare succeeds. -/
def thirdTime : List Call :=
  [.prepare (failAt 1), .unprepare, .prepare (failAt 100), .enable, .disable,
    .prepare (Stream'.const (.ok ())), .prepare (failAt 0), .enable, .unprepare]

theorem probed_probed : Probed probed := ⟨rfl, rfl, rfl, rfl, rfl, by decide, rfl, rfl⟩

theorem follows_prepared_thirdTime : Always callStep (fun p => Follows p ∧ Atomic p) probed thirdTime :=
  follows_prepared probed_probed thirdTime

/-- The second write fails. -/
example : (callStep probed (.prepare (failAt 3))).log =
    [("DSI write (cmd 0x%02x) failed: %zd", [0x10, -110]), ("init sequence failed: %d", [-110])] := by
  decide +kernel

end GeminiLinux.PanelSsd2092
