import GeminiLinux.Gpio.Aw9523b
import GeminiLinux.Lib.Runs

/-! The interrupt path of the expander, step by step. The chip asserts INT as long as an enabled pin differs
    from the level last read of its port, by whomever; reading the port takes that away. The handler
    reads the ports one after the other, compares with `prev_state` and signals the lines that differ.

        pin ──differs──▶ INT ──▶ due ──enter──▶ read P0 ─▶ read P1 ─▶ prev_state ─▶ signal ... ─▶ return
                          ▲                        │ fails   │ fails                            │
                          └── mask, unmask, get    └─────────┴──────────────────────────────────┘

    INT is a level: a run of the handler is due when INT comes on, and again if it is still on when the
    handler returns. Between any two steps of the handler the pins may change, consumers may read
    lines, and lines may be masked and unmasked under the bus lock. -/

namespace GeminiLinux.Aw9523b
open Prog Regmap Runs

/-! ### The system -/

/-- Where the handler is. -/
inductive Handler where
  | idle
  | entered
  | gotP0 (p0 : BitVec 8)
  | gotBoth (p0 p1 : BitVec 8)
  | signalling (lines : List ℕ)
  deriving DecidableEq

/-- Who has the mutex that `bus_lock` takes and `bus_sync_unlock` gives back after two writes. -/
inductive BusLock where
  | free | locked | syncedP0
  deriving DecidableEq

/-- The driver and its chip, the handler, whether a run of it is due, the bus lock, and the lines whose
    level has changed, one entry a change. -/
structure Sys where
  aw : Aw
  handler : Handler
  due : Bool
  bus : BusLock
  changes : List ℕ

inductive Event where
  | toggle (line : Fin 16)
  | enter
  | handler
  | get (offset : Fin 16)
  | busLock
  | mask (line : Fin 16)
  | unmask (line : Fin 16)
  | sync
  deriving DecidableEq

/-- The interrupt-enable registers: 1 = disabled. -/
def Aw.intDisabled (aw : Aw) : BitVec 16 := inputState (aw.map.regs regP0Int) (aw.map.regs regP1Int)

/-- INT: an enabled pin differs from the level last read of it. -/
def Aw.asserted (aw : Aw) : Bool := decide ((aw.pins ^^^ aw.latched) &&& ~~~aw.intDisabled ≠ 0)

/-- A read of an input register, with what the handler does next if it succeeds. -/
def handlerRead (s : Sys) (reg : ℕ) (fmt : String) (got : BitVec 8 → Handler) : Sys :=
  match outcome (regmapRead reg) s.aw with
  | .ok p => { s with aw := finalState (regmapRead reg) s.aw, handler := got p }
  | .error e => { s with
      aw := finalState (devErr fmt [e.ret]) (finalState (regmapRead reg) s.aw), handler := .idle }

/-- The handler goes on by one step. -/
def handlerNext (s : Sys) : Sys :=
  match s.handler with
  | .idle => s
  | .entered => handlerRead s regP0In "IRQ: failed to read P0_IN: %d" .gotP0
  | .gotP0 p0 => handlerRead s regP1In "IRQ: failed to read P1_IN: %d" (.gotBoth p0)
  | .gotBoth p0 p1 => { s with
      aw := finalState (irqChanged p0 p1) s.aw
      handler := .signalling (setBits ((inputState p0 p1 ^^^ s.aw.prevState) &&& ~~~s.aw.irqMask)) }
  | .signalling (line :: lines) =>
    { s with aw := finalState (handleNestedIrq line) s.aw, handler := .signalling lines }
  | .signalling [] => { s with handler := .idle }

/-- `bus_sync_unlock`, write by write. -/
def syncNext (s : Sys) : Sys :=
  match s.bus with
  | .free => s
  | .locked => { s with
      aw := finalState (regmapWrite regP0Int ((s.aw.irqMask &&& 0xff).setWidth 8)) s.aw, bus := .syncedP0 }
  | .syncedP0 => { s with
      aw := finalState (regmapWrite regP1Int ((s.aw.irqMask >>> 8 &&& 0xff).setWidth 8)) s.aw,
      bus := .free }

/-- What an event does, but for the runs of the handler it makes due. One that cannot happen does nothing. -/
def next (s : Sys) : Event → Sys
  | .toggle line => { s with
      aw := { s.aw with pins := s.aw.pins ^^^ BitVec.twoPow 16 line }, changes := s.changes ++ [line.val] }
  | .enter => if s.handler = .idle then { s with handler := .entered, due := false } else s
  | .handler => handlerNext s
  | .get offset => { s with aw := finalState (get offset) s.aw }
  | .busLock => if s.bus = .free then { s with bus := .locked } else s
  | .mask line => if s.bus = .locked then { s with aw := finalState (irqMask line) s.aw } else s
  | .unmask line => if s.bus = .locked then { s with aw := finalState (irqUnmask line) s.aw } else s
  | .sync => syncNext s

/-- INT has come on, or it is on as the handler returns. -/
def Fires (s s' : Sys) : Prop :=
  s'.aw.asserted = true ∧ (s.aw.asserted = false ∨ s.handler ≠ .idle ∧ s'.handler = .idle)

instance (s s' : Sys) : Decidable (Fires s s') := by unfold Fires; infer_instance

def step (s : Sys) (e : Event) : Sys :=
  if Fires s (next s e) then { next s e with due := true } else next s e

/-- INT is off, and the handler is neither running nor due. -/
structure Quiescent (s : Sys) : Prop where
  idle : s.handler = .idle
  due : s.due = false
  asserted : s.aw.asserted = false

/-- All that has changed at the line has been signalled, two changes being as good as none. -/
def Signalled (line : ℕ) (s : Sys) : Prop := s.aw.nested.count line % 2 = s.changes.count line % 2

/-- The consumers are told all changes of the line, as far as they are told anything when all is quiet. -/
def NoneLost (line : ℕ) (s : Sys) : Prop := Quiescent s → Signalled line s

/-- All is quiet, `prev_state` is what is at the pins, and nothing has been counted yet. -/
structure Seeded (s : Sys) : Prop where
  idle : s.handler = .idle
  due : s.due = false
  free : s.bus = .free
  latched : s.aw.latched = s.aw.pins
  prevState : s.aw.prevState = s.aw.pins
  nested : s.aw.nested = []
  changes : s.changes = []

/-- The line is unmasked in the driver and enabled in the chip. -/
structure Unmasked (line : ℕ) (s : Sys) : Prop where
  irqMask : s.aw.irqMask.getLsbD line = false
  intDisabled : s.aw.intDisabled.getLsbD line = false

/-- The handler returns: a read fails, or it has signalled all it had to. -/
def Returns (s : Sys) (e : Event) : Prop :=
  e = .handler ∧ match s.handler with
    | .entered | .gotP0 _ => ∃ err, s.aw.map.xfers.head = .error err
    | .signalling [] => True
    | _ => False

/-- If the handler returns with INT off and no run due, the last read of the line's port, by whomever, has
    returned the level that `prev_state` has. -/
def UpToDate (line : ℕ) (s : Sys) (e : Event) : Prop :=
  Returns s e → s.aw.asserted = false → s.due = false →
    s.aw.latched.getLsbD line = s.aw.prevState.getLsbD line

/-! ### What the accesses change -/

/-- At most a port is sampled: what the two states of the driver and its chip have in common. -/
structure Samples (aw aw' : Aw) : Prop where
  pins : aw'.pins = aw.pins
  prevState : aw'.prevState = aw.prevState
  irqMask : aw'.irqMask = aw.irqMask
  nested : aw'.nested = aw.nested
  regs : aw'.map.regs = aw.map.regs
  latched : ∀ line, aw'.latched.getLsbD line = aw.latched.getLsbD line ∨
    aw'.latched.getLsbD line = aw.pins.getLsbD line

theorem regmapRead_ok {reg : ℕ} (hreg : cached reg = false) {aw : Aw} (h : aw.map.xfers.head = .ok ()) :
    regmapRead reg aw = .ok (portLevels aw.pins reg)
      { aw.sample reg with map := { aw.map with xfers := aw.map.xfers.tail } } := by
  rw [regmapRead, if_neg (by rw [hreg]; decide), bind_apply]
  unfold onMap zoom transfer
  rw [bind_apply, modifyGet_apply, h]
  rfl

theorem regmapRead_error {reg : ℕ} (hreg : cached reg = false) {aw : Aw} {e : Errno}
    (h : aw.map.xfers.head = .error e) :
    regmapRead reg aw = .error e { aw with map := { aw.map with xfers := aw.map.xfers.tail } } := by
  rw [regmapRead, if_neg (by rw [hreg]; decide), bind_apply]
  unfold onMap zoom transfer
  rw [bind_apply, modifyGet_apply, h]
  rfl

theorem regmapRead_samples {reg : ℕ} (hreg : cached reg = false) (aw : Aw) :
    Samples aw (finalState (regmapRead reg) aw) := by
  rcases hhead : aw.map.xfers.head with e | ⟨⟩
  · rw [finalState, regmapRead_error hreg hhead]
    exact ⟨rfl, rfl, rfl, rfl, rfl, fun _ => .inl rfl⟩
  · rw [finalState, regmapRead_ok hreg hhead]
    refine ⟨rfl, rfl, rfl, rfl, rfl, ?_⟩
    intro line
    show (updateBits aw.latched (portLines reg) aw.pins).getLsbD line = aw.latched.getLsbD line ∨
      (updateBits aw.latched (portLines reg) aw.pins).getLsbD line = aw.pins.getLsbD line
    rw [getLsbD_updateBits]
    split_ifs
    · exact .inr rfl
    · exact .inl rfl

theorem get_samples (offset : Fin 16) (aw : Aw) : Samples aw (finalState (get offset) aw) := by
  have hreg : cached (portReg offset regP0In) = false := by
    unfold portReg
    split_ifs <;> rfl
  unfold get
  rw [finalState_bind_pure]
  exact regmapRead_samples hreg aw

/-- At most a register is written. -/
structure Writes (reg : ℕ) (val : BitVec 8) (aw aw' : Aw) : Prop where
  pins : aw'.pins = aw.pins
  latched : aw'.latched = aw.latched
  prevState : aw'.prevState = aw.prevState
  irqMask : aw'.irqMask = aw.irqMask
  nested : aw'.nested = aw.nested
  regs : aw'.map.regs = aw.map.regs ∨ aw'.map.regs = Function.update aw.map.regs reg val

theorem regmapWrite_writes (reg : ℕ) (val : BitVec 8) (aw : Aw) :
    Writes reg val aw (finalState (regmapWrite reg val) aw) := by
  unfold regmapWrite onMap zoom finalState
  rcases hhead : aw.map.xfers.head with e | ⟨⟩
  · simp only [Regmap.regmapWrite, remember, transfer, bind_apply, modify_apply, modifyGet_apply, hhead]
    exact ⟨rfl, rfl, rfl, rfl, rfl, .inl rfl⟩
  · simp only [Regmap.regmapWrite, remember, transfer, bind_apply, modify_apply, modifyGet_apply, hhead]
    exact ⟨rfl, rfl, rfl, rfl, rfl, .inr rfl⟩

/-! ### Bits of the masks and of the inputs -/

theorem getLsbD_inputState (p0 p1 : BitVec 8) (line : Fin 16) :
    (inputState p0 p1).getLsbD line =
      if line.val < portSize then p0.getLsbD line else p1.getLsbD (line - portSize) := by
  rw [inputState, BitVec.getLsbD_or, BitVec.getLsbD_shiftLeft, BitVec.getLsbD_setWidth,
    BitVec.getLsbD_setWidth]
  have hline := line.isLt
  unfold portSize
  split_ifs with h
  · simp [h, hline]
  · have hp0 : p0.getLsbD line = false := BitVec.getLsbD_of_ge p0 line (Nat.le_of_not_lt h)
    simp [h, hline, hp0]
    omega

theorem count_setBits (changed : BitVec 16) (line : Fin 16) :
    (setBits changed).count line.val = (changed.getLsbD line).toNat := by
  rw [setBits]
  cases hbit : changed.getLsbD line with
  | true =>
    rw [List.count_filter hbit]
    exact List.count_eq_one_of_mem List.nodup_range (List.mem_range.mpr line.isLt)
  | false =>
    rw [Bool.toNat_false, List.count_eq_zero]
    intro hmem
    rw [List.mem_filter, hbit] at hmem
    exact Bool.noConfusion hmem.2

/-- As long as INT is off, the pin of an enabled line is at the level last read of it. -/
theorem latched_eq_pins {line : Fin 16} {aw : Aw} (henabled : aw.intDisabled.getLsbD line = false)
    (h : aw.asserted = false) : aw.latched.getLsbD line = aw.pins.getLsbD line := by
  have hzero : (aw.pins ^^^ aw.latched) &&& ~~~aw.intDisabled = 0 := of_not_not (of_decide_eq_false h)
  have hbit : ((aw.pins ^^^ aw.latched) &&& ~~~aw.intDisabled).getLsbD line = false := by
    rw [hzero]
    exact BitVec.getLsbD_zero
  rw [BitVec.getLsbD_and, BitVec.getLsbD_not, henabled, BitVec.getLsbD_xor, decide_eq_true line.isLt,
    Bool.not_false, Bool.and_true, Bool.and_true] at hbit
  exact (bne_eq_false_iff_eq.mp hbit).symm

theorem inputState_portLevels (levels : BitVec 16) :
    inputState (portLevels levels regP0In) (portLevels levels regP1In) = levels := by
  apply BitVec.eq_of_getLsbD_eq
  intro i hi
  rw [getLsbD_inputState _ _ ⟨i, hi⟩, portLevels, portLevels, BitVec.getLsbD_extractLsb',
    BitVec.getLsbD_extractLsb']
  simp only [regP0In, regP1In, portSize, Nat.zero_mul, Nat.one_mul, Nat.zero_add]
  split_ifs with hport
  · rw [decide_eq_true hport, Bool.true_and]
  · have hbit : i - 8 < 8 := by omega
    simp only [Nat.add_sub_cancel' (Nat.le_of_not_lt hport), hbit, decide_true, Bool.true_and]

theorem updateBits_ports (orig levels : BitVec 16) :
    updateBits (updateBits orig (portLines regP0In) levels) (portLines regP1In) levels = levels := by
  apply BitVec.eq_of_getLsbD_eq
  intro i hi
  rw [getLsbD_updateBits, getLsbD_updateBits]
  split_ifs with h1 h0
  · rfl
  · rfl
  · have hport : ∀ i < 16, (portLines regP0In).getLsbD i = true ∨ (portLines regP1In).getLsbD i = true := by
      decide
    exact absurd (hport i hi) (not_or_intro h0 h1)

/-- The seeding of the probe: if both reads get through, `prev_state` is what is at the pins. -/
theorem seedPrevState_seeds {aw : Aw} (h0 : aw.map.xfers.head = .ok ())
    (h1 : aw.map.xfers.tail.head = .ok ()) :
    (finalState seedPrevState aw).prevState = aw.pins ∧ (finalState seedPrevState aw).latched = aw.pins ∧
      (finalState seedPrevState aw).pins = aw.pins := by
  have hreads : (do
      let p0 ← regmapRead regP0In
      let p1 ← regmapRead regP1In
      pure (inputState p0 p1) : AwM (BitVec 16)) aw =
        .ok (inputState (portLevels aw.pins regP0In) (portLevels aw.pins regP1In)) { aw with
          map := { aw.map with xfers := aw.map.xfers.tail.tail }
          latched := updateBits (updateBits aw.latched (portLines regP0In) aw.pins) (portLines regP1In)
            aw.pins } := by
    rw [bind_apply, regmapRead_ok rfl h0]
    simp only [bind_apply]
    rw [regmapRead_ok rfl h1]
    rfl
  rw [seedPrevState, finalState_bind_ok _ (outcome_attempt _ _), finalState_attempt]
  unfold outcome finalState
  rw [hreads]
  exact ⟨inputState_portLevels aw.pins, updateBits_ports aw.latched aw.pins, rfl⟩

/-! ### What an event does -/

/-- The lines that the handler has found changed and not signalled yet. -/
def Handler.rest : Handler → List ℕ
  | .idle | .entered | .gotP0 _ | .gotBoth _ _ => []
  | .signalling lines => lines

/-- All lines signalled, those that the running handler is about to signal included. -/
def Sys.signals (s : Sys) : List ℕ := s.aw.nested ++ s.handler.rest

section HandlerRead

variable {reg : ℕ} (hreg : cached reg = false) (s : Sys) (fmt : String) (got : BitVec 8 → Handler)

@[simp] theorem handlerRead_changes : (handlerRead s reg fmt got).changes = s.changes := by
  unfold handlerRead
  split <;> rfl

@[simp] theorem handlerRead_due : (handlerRead s reg fmt got).due = s.due := by
  unfold handlerRead
  split <;> rfl

include hreg

theorem handlerRead_aw : Samples s.aw (handlerRead s reg fmt got).aw := by
  have h := regmapRead_samples hreg s.aw
  unfold handlerRead
  split
  · exact h
  · exact ⟨h.pins, h.prevState, h.irqMask, h.nested, h.regs, h.latched⟩

/-- The handler goes on if the transfer gets through, and returns with nothing sampled if not. -/
theorem handlerRead_cases :
    (∃ p, s.aw.map.xfers.head = .ok () ∧ (handlerRead s reg fmt got).handler = got p) ∨
    ((∃ e, s.aw.map.xfers.head = .error e) ∧ (handlerRead s reg fmt got).handler = .idle ∧
      (handlerRead s reg fmt got).aw.latched = s.aw.latched) := by
  unfold handlerRead outcome finalState
  rcases hhead : s.aw.map.xfers.head with e | ⟨⟩
  · rw [regmapRead_error hreg hhead]
    exact .inr ⟨⟨e, rfl⟩, rfl, rfl⟩
  · rw [regmapRead_ok hreg hhead]
    exact .inl ⟨portLevels s.aw.pins reg, rfl, rfl⟩

theorem handlerRead_signals (hgot : ∀ p, (got p).rest = []) (hrest : s.handler.rest = []) :
    (handlerRead s reg fmt got).signals = s.signals := by
  have hsame : (handlerRead s reg fmt got).handler.rest = [] := by
    rcases handlerRead_cases hreg s fmt got with ⟨p, _, hp⟩ | ⟨_, hidle, _⟩
    · rw [hp, hgot]
    · rw [hidle, Handler.rest]
  rw [Sys.signals, Sys.signals, (handlerRead_aw hreg s fmt got).nested, hsame, hrest]

end HandlerRead

section Event

variable {line : Fin 16} {s : Sys}

/-- A sample leaves the line unmasked, as it leaves both masks alone. -/
theorem Unmasked.samples (h : Unmasked line s) {s' : Sys} (hs : Samples s.aw s'.aw) : Unmasked line s' where
  irqMask := by rw [hs.irqMask, h.irqMask]
  intDisabled := by rw [Aw.intDisabled, hs.regs]; exact h.intDisabled

/-- What `bus_sync_unlock` writes enables the lines that are unmasked. -/
theorem Unmasked.writes (h : Unmasked line s) {s' : Sys} {reg : ℕ} {val : BitVec 8}
    (hs : Writes reg val s.aw s'.aw)
    (hval : reg = regP0Int ∧ val = (s.aw.irqMask &&& 0xff).setWidth 8 ∨
      reg = regP1Int ∧ val = (s.aw.irqMask >>> 8 &&& 0xff).setWidth 8) : Unmasked line s' := by
  refine ⟨by rw [hs.irqMask, h.irqMask], ?_⟩
  have hold := h.intDisabled
  rcases hs.regs with hregs | hregs
  · rwa [Aw.intDisabled, hregs]
  · have hmask := h.irqMask
    rw [Aw.intDisabled, getLsbD_inputState] at hold ⊢
    rw [hregs]
    rcases hval with ⟨rfl, rfl⟩ | ⟨rfl, rfl⟩
    · split_ifs at hold ⊢ with hport
      · rw [Function.update_self, BitVec.getLsbD_setWidth, BitVec.getLsbD_and, hmask, Bool.false_and,
          Bool.and_false]
      · exact hold
    · split_ifs at hold ⊢ with hport
      · exact hold
      · have hbit : 8 + (line.val - portSize) = line := Nat.add_sub_cancel' (Nat.le_of_not_lt hport)
        rw [Function.update_self, BitVec.getLsbD_setWidth, BitVec.getLsbD_and, BitVec.getLsbD_ushiftRight,
          hbit, hmask, Bool.false_and, Bool.and_false]

/-- The handler changes no register, no mask and no pin. -/
theorem handlerNext_keeps (s : Sys) : (handlerNext s).aw.map.regs = s.aw.map.regs ∧
    (handlerNext s).aw.irqMask = s.aw.irqMask ∧ (handlerNext s).aw.pins = s.aw.pins ∧
    (handlerNext s).changes = s.changes := by
  have hread : ∀ reg fmt got, cached reg = false → (handlerRead s reg fmt got).aw.map.regs = s.aw.map.regs ∧
      (handlerRead s reg fmt got).aw.irqMask = s.aw.irqMask ∧
        (handlerRead s reg fmt got).aw.pins = s.aw.pins ∧
      (handlerRead s reg fmt got).changes = s.changes := by
    intro reg fmt got hreg
    have hsamples := handlerRead_aw hreg s fmt got
    exact ⟨hsamples.regs, hsamples.irqMask, hsamples.pins, handlerRead_changes s _ _⟩
  rw [handlerNext]
  split
  · exact ⟨rfl, rfl, rfl, rfl⟩
  · exact hread _ _ _ rfl
  · exact hread _ _ _ rfl
  · exact ⟨rfl, rfl, rfl, rfl⟩
  · exact ⟨rfl, rfl, rfl, rfl⟩
  · exact ⟨rfl, rfl, rfl, rfl⟩

/-- No event but a mask of the line itself takes it away. -/
theorem next_unmasked (h : Unmasked line s) {e : Event} (he : e ≠ .mask line) :
    Unmasked line (next s e) := by
  cases e with
  | toggle line' => exact ⟨h.irqMask, h.intDisabled⟩
  | enter =>
    rw [next]
    split_ifs
    · exact ⟨h.irqMask, h.intDisabled⟩
    · exact h
  | handler =>
    obtain ⟨hregs, hirqMask, -, -⟩ := handlerNext_keeps s
    refine ⟨hirqMask.symm ▸ h.irqMask, ?_⟩
    rw [next, Aw.intDisabled, hregs]
    exact h.intDisabled
  | get offset => exact h.samples (get_samples offset s.aw)
  | busLock =>
    rw [next]
    split_ifs
    · exact ⟨h.irqMask, h.intDisabled⟩
    · exact h
  | mask line' =>
    have hne : line'.val ≠ line := fun heq => he (by rw [Fin.ext heq])
    rw [next]
    split_ifs
    · refine ⟨?_, h.intDisabled⟩
      show (s.aw.irqMask ||| BitVec.twoPow 16 line').getLsbD line = false
      rw [BitVec.getLsbD_or, BitVec.getLsbD_twoPow, h.irqMask, decide_eq_false hne, Bool.and_false,
        Bool.or_false]
    · exact h
  | unmask line' =>
    rw [next]
    split_ifs
    · refine ⟨?_, h.intDisabled⟩
      show (s.aw.irqMask &&& ~~~BitVec.twoPow 16 line').getLsbD line = false
      rw [BitVec.getLsbD_and, h.irqMask, Bool.false_and]
    · exact h
  | sync =>
    rw [next, syncNext]
    split
    · exact h
    · exact h.writes (regmapWrite_writes _ _ s.aw) (.inl ⟨rfl, rfl⟩)
    · exact h.writes (regmapWrite_writes _ _ s.aw) (.inr ⟨rfl, rfl⟩)

/-- An event at the pins is the only one that changes a level, and it counts as one change. -/
theorem next_still {e : Event} (he : ∀ line', e ≠ .toggle line') :
    (next s e).aw.pins = s.aw.pins ∧ (next s e).changes = s.changes := by
  cases e with
  | toggle line' => exact absurd rfl (he line')
  | handler =>
    obtain ⟨-, -, hpins, hchanges⟩ := handlerNext_keeps s
    exact ⟨hpins, hchanges⟩
  | get offset => exact ⟨(get_samples offset s.aw).pins, rfl⟩
  | sync =>
    rw [next, syncNext]
    split
    · exact ⟨rfl, rfl⟩
    · exact ⟨(regmapWrite_writes _ _ s.aw).pins, rfl⟩
    · exact ⟨(regmapWrite_writes _ _ s.aw).pins, rfl⟩
  | enter | busLock | mask _ | unmask _ =>
    rw [next]
    split_ifs <;> exact ⟨rfl, rfl⟩

theorem next_level (line : Fin 16) (s : Sys) (e : Event) :
    (((next s e).changes.count line.val).bodd ^^ (next s e).aw.pins.getLsbD line) =
      ((s.changes.count line.val).bodd ^^ s.aw.pins.getLsbD line) := by
  by_cases he : ∃ line', e = .toggle line'
  · obtain ⟨line', rfl⟩ := he
    show (((s.changes ++ [line'.val]).count line.val).bodd ^^
      (s.aw.pins ^^^ BitVec.twoPow 16 line').getLsbD line) = _
    rw [BitVec.getLsbD_xor, BitVec.getLsbD_twoPow, List.count_append, List.count_singleton, Nat.bodd_add,
      decide_eq_true line'.isLt, Bool.true_and]
    by_cases hline : line' = line
    · subst hline
      simp
    · have hne : line'.val ≠ line := fun heq => hline (Fin.ext heq)
      simp [hne]
  · have hstill := next_still (s := s) fun line' heq => he ⟨line', heq⟩
    rw [hstill.1, hstill.2]

/-- What the handler has no part in: the line may have been sampled by somebody else. -/
structure Outside (line : ℕ) (s s' : Sys) : Prop where
  handler : s'.handler = s.handler
  due : s'.due = s.due
  prevState : s'.aw.prevState = s.aw.prevState
  nested : s'.aw.nested = s.aw.nested
  latched : s'.aw.latched.getLsbD line = s.aw.latched.getLsbD line ∨
    s'.aw.latched.getLsbD line = s.aw.pins.getLsbD line

theorem next_outside (line : ℕ) (s : Sys) {e : Event} (hhandler : e ≠ .handler) (henter : e ≠ .enter) :
    Outside line s (next s e) := by
  have hsame : Outside line s s := ⟨rfl, rfl, rfl, rfl, .inl rfl⟩
  cases e with
  | handler => exact absurd rfl hhandler
  | enter => exact absurd rfl henter
  | toggle line' => exact ⟨rfl, rfl, rfl, rfl, .inl rfl⟩
  | get offset =>
    have h := get_samples offset s.aw
    exact ⟨rfl, rfl, h.prevState, h.nested, h.latched line⟩
  | sync =>
    rw [next, syncNext]
    split
    · exact hsame
    · have h := regmapWrite_writes regP0Int ((s.aw.irqMask &&& 0xff).setWidth 8) s.aw
      exact ⟨rfl, rfl, h.prevState, h.nested, .inl (congrArg (·.getLsbD line) h.latched)⟩
    · have h := regmapWrite_writes regP1Int ((s.aw.irqMask >>> 8 &&& 0xff).setWidth 8) s.aw
      exact ⟨rfl, rfl, h.prevState, h.nested, .inl (congrArg (·.getLsbD line) h.latched)⟩
  | busLock | mask _ | unmask _ =>
    rw [next]
    split_ifs
    · exact ⟨rfl, rfl, rfl, rfl, .inl rfl⟩
    · exact hsame

/-- A line is signalled as often as `prev_state` changes at it, as far as the parity goes. -/
theorem handlerNext_signals (h : Unmasked line s) :
    (((handlerNext s).signals.count line.val).bodd ^^ (handlerNext s).aw.prevState.getLsbD line) =
      ((s.signals.count line.val).bodd ^^ s.aw.prevState.getLsbD line) := by
  rw [handlerNext]
  split
  · rfl
  · rename_i hentered
    rw [handlerRead_signals rfl s _ _ (fun _ => rfl) (by rw [hentered, Handler.rest]),
      (handlerRead_aw rfl s _ _).prevState]
  · rename_i hgotP0
    rw [handlerRead_signals rfl s _ _ (fun _ => rfl) (by rw [hgotP0, Handler.rest]),
      (handlerRead_aw rfl s _ _).prevState]
  · rename_i p0 p1 hgotBoth
    show (((s.aw.nested ++ setBits ((inputState p0 p1 ^^^ s.aw.prevState) &&& ~~~s.aw.irqMask)).count
      line.val).bodd ^^ (inputState p0 p1).getLsbD line) = _
    rw [Sys.signals, hgotBoth, Handler.rest, List.append_nil, List.count_append, count_setBits,
      Nat.bodd_add, BitVec.getLsbD_and, BitVec.getLsbD_not, h.irqMask, BitVec.getLsbD_xor,
      decide_eq_true line.isLt]
    cases (inputState p0 p1).getLsbD line <;> cases s.aw.prevState.getLsbD line <;> simp
  · rename_i line' lines hsignalling
    show ((((s.aw.nested ++ [line']) ++ lines).count line.val).bodd ^^ _) = _
    rw [Sys.signals, hsignalling, Handler.rest, List.append_assoc]
    rfl
  · rename_i hsignalling
    show (((s.aw.nested ++ []).count line.val).bodd ^^ _) = _
    rw [Sys.signals, hsignalling, Handler.rest]

theorem next_signals (h : Unmasked line s) (e : Event) :
    (((next s e).signals.count line.val).bodd ^^ (next s e).aw.prevState.getLsbD line) =
      ((s.signals.count line.val).bodd ^^ s.aw.prevState.getLsbD line) := by
  rcases eq_or_ne e .handler with rfl | hhandler
  · exact handlerNext_signals h
  rcases eq_or_ne e .enter with rfl | henter
  · rw [next]
    split_ifs with hidle
    · show (((s.aw.nested ++ []).count line.val).bodd ^^ _) = _
      rw [Sys.signals, hidle]
      rfl
    · rfl
  · have hout := next_outside line s hhandler henter
    rw [Sys.signals, Sys.signals, hout.nested, hout.handler, hout.prevState]

/-- What the last step of a run of the handler leaves alone. -/
structure Returned (s s' : Sys) : Prop where
  handler : s'.handler = .idle
  due : s'.due = s.due
  asserted : s'.aw.asserted = s.aw.asserted
  latched : s'.aw.latched = s.aw.latched
  prevState : s'.aw.prevState = s.aw.prevState

theorem handlerRead_returned {reg : ℕ} (hreg : cached reg = false) (fmt : String)
    {got : BitVec 8 → Handler} (hgot : ∀ p, got p ≠ .idle)
    (h : (handlerRead s reg fmt got).handler = .idle ∨ ∃ e, s.aw.map.xfers.head = .error e) :
    (∃ e, s.aw.map.xfers.head = .error e) ∧ Returned s (handlerRead s reg fmt got) := by
  have haw := handlerRead_aw hreg s fmt got
  rcases handlerRead_cases hreg s fmt got with ⟨p, hok, hp⟩ | ⟨herror, hidle, hlatched⟩
  · rcases h with h | ⟨e, he⟩
    · exact absurd (hp.symm.trans h) (hgot p)
    · rw [hok] at he
      cases he
  · refine ⟨herror, hidle, handlerRead_due s fmt got, ?_, hlatched, haw.prevState⟩
    rw [Aw.asserted, Aw.asserted, Aw.intDisabled, haw.pins, hlatched, haw.regs]
    rfl

/-- Only a failed read and the end of the signalling make the handler return. -/
theorem returns_of_idle (h : s.handler ≠ .idle) (hidle : (next s .handler).handler = .idle) :
    Returns s .handler := by
  refine ⟨rfl, ?_⟩
  rw [next, handlerNext] at hidle
  cases hs : s.handler with
  | idle => exact absurd hs h
  | entered =>
    rw [hs] at hidle
    exact (handlerRead_returned rfl _ (fun p => Handler.noConfusion) (.inl hidle)).1
  | gotP0 p0 =>
    rw [hs] at hidle
    exact (handlerRead_returned rfl _ (fun p => Handler.noConfusion) (.inl hidle)).1
  | gotBoth p0 p1 =>
    rw [hs] at hidle
    cases hidle
  | signalling lines =>
    cases lines with
    | nil => trivial
    | cons line' lines =>
      rw [hs] at hidle
      cases hidle

theorem Returns.returned {e : Event} (h : Returns s e) : Returned s (next s e) := by
  obtain ⟨rfl, h⟩ := h
  rw [next, handlerNext]
  cases hs : s.handler with
  | idle => rw [hs] at h; exact absurd h id
  | entered =>
    rw [hs] at h
    exact (handlerRead_returned rfl _ (fun p => Handler.noConfusion) (.inr h)).2
  | gotP0 p0 =>
    rw [hs] at h
    exact (handlerRead_returned rfl _ (fun p => Handler.noConfusion) (.inr h)).2
  | gotBoth p0 p1 => rw [hs] at h; exact absurd h id
  | signalling lines =>
    rw [hs] at h
    cases lines with
    | nil => exact ⟨rfl, rfl, rfl, rfl, rfl⟩
    | cons line' lines => exact absurd h id

end Event

/-! ### The handler and the lock by themselves -/

theorem step_aw (s : Sys) (e : Event) : (step s e).aw = (next s e).aw := by
  unfold step
  split_ifs <;> rfl

theorem step_handler (s : Sys) (e : Event) : (step s e).handler = (next s e).handler := by
  unfold step
  split_ifs <;> rfl

theorem step_bus (s : Sys) (e : Event) : (step s e).bus = (next s e).bus := by
  unfold step
  split_ifs <;> rfl

/-- The driver after `n` more steps of the handler, in which it returns, is `aw`. -/
def EndsAfter (n : ℕ) (s : Sys) (aw : Aw) : Prop :=
  (run step s (.replicate n .handler)).aw = aw ∧ (run step s (.replicate n .handler)).handler = .idle

theorem endsAfter_succ {n : ℕ} {s : Sys} {aw : Aw} (h : EndsAfter n (step s .handler) aw) :
    EndsAfter (n + 1) s aw := h

theorem signalling_ends (lines : List ℕ) {s : Sys} (hs : s.handler = .signalling lines) :
    EndsAfter (lines.length + 1) s (finalState (handleNestedIrqs lines) s.aw) := by
  induction lines generalizing s with
  | nil =>
    refine ⟨?_, ?_⟩
    · show (step s .handler).aw = s.aw
      rw [step_aw, next, handlerNext, hs]
    · show (step s .handler).handler = .idle
      rw [step_handler, next, handlerNext, hs]
  | cons line lines ih =>
    have haw : (step s .handler).aw = finalState (handleNestedIrq line) s.aw := by
      rw [step_aw, next, handlerNext, hs]
    have hnext : (step s .handler).handler = .signalling lines := by
      rw [step_handler, next, handlerNext, hs]
    have hrest := ih hnext
    rw [haw] at hrest
    exact endsAfter_succ hrest

theorem outcome_irqChanged (p0 p1 : BitVec 8) (aw : Aw) : outcome (irqChanged p0 p1) aw =
    .ok ((inputState p0 p1 ^^^ aw.prevState) &&& ~~~aw.irqMask) := rfl

theorem gotBoth_ends {s : Sys} {p0 p1 : BitVec 8} (hs : s.handler = .gotBoth p0 p1) :
    ∃ n, EndsAfter n s (finalState (handleNestedIrqs
      (setBits ((inputState p0 p1 ^^^ s.aw.prevState) &&& ~~~s.aw.irqMask)))
        (finalState (irqChanged p0 p1) s.aw)) := by
  have haw : (step s .handler).aw = finalState (irqChanged p0 p1) s.aw := by
    rw [step_aw, next, handlerNext, hs]
  have hnext : (step s .handler).handler =
      .signalling (setBits ((inputState p0 p1 ^^^ s.aw.prevState) &&& ~~~s.aw.irqMask)) := by
    rw [step_handler, next, handlerNext, hs]
  have hrest := signalling_ends _ hnext
  rw [haw] at hrest
  exact ⟨_, endsAfter_succ hrest⟩

section Reads

variable {s : Sys} {reg : ℕ} {fmt : String} {got : BitVec 8 → Handler}
  (h : handlerNext s = handlerRead s reg fmt got)
include h

theorem read_fails_ends {e : Errno} (he : outcome (regmapRead reg) s.aw = .error e) :
    EndsAfter 1 s (finalState (devErr fmt [e.ret]) (finalState (regmapRead reg) s.aw)) := by
  refine ⟨?_, ?_⟩
  · show (step s .handler).aw = _
    rw [step_aw, next, h]
    simp only [handlerRead, he]
  · show (step s .handler).handler = _
    rw [step_handler, next, h]
    simp only [handlerRead, he]

theorem step_reads {p : BitVec 8} (hp : outcome (regmapRead reg) s.aw = .ok p) :
    (step s .handler).aw = finalState (regmapRead reg) s.aw ∧ (step s .handler).handler = got p := by
  rw [step_aw, step_handler, next, h]
  simp only [handlerRead, hp, and_self]

end Reads

/-- Left to itself, the handler does what `aw9523b_irq_handler` does. -/
theorem handler_ends {s : Sys} (hs : s.handler = .entered) :
    ∃ n, EndsAfter n s (finalState irqHandler s.aw) := by
  have hread0 : handlerNext s = handlerRead s regP0In "IRQ: failed to read P0_IN: %d" .gotP0 := by
    rw [handlerNext, hs]
  unfold irqHandler
  rw [finalState_bind_ok _ (outcome_attempt _ _), finalState_attempt]
  rcases hp0 : outcome (regmapRead regP0In) s.aw with e | p0
  · simp only [finalState_bind_pure]
    exact ⟨1, read_fails_ends hread0 hp0⟩
  obtain ⟨haw, hs⟩ := step_reads hread0 hp0
  have hread1 : handlerNext (step s .handler) =
      handlerRead (step s .handler) regP1In "IRQ: failed to read P1_IN: %d" (.gotBoth p0) := by
    rw [handlerNext, hs]
  simp only
  rw [finalState_bind_ok _ (outcome_attempt _ _), finalState_attempt, ← haw]
  rcases hp1 : outcome (regmapRead regP1In) (step s .handler).aw with e | p1
  · simp only [finalState_bind_pure]
    exact ⟨2, endsAfter_succ (read_fails_ends hread1 hp1)⟩
  obtain ⟨haw', hs'⟩ := step_reads hread1 hp1
  obtain ⟨n, hn⟩ := gotBoth_ends hs'
  refine ⟨n + 2, endsAfter_succ (endsAfter_succ ?_)⟩
  simp only
  rw [← haw', finalState_bind_ok _ (outcome_irqChanged p0 p1 _)]
  split_ifs with hchanged
  · rw [hchanged] at hn
    exact hn
  · rw [finalState_bind_pure]
    exact hn

/-- The two steps of `bus_sync_unlock` do what it does and give the lock back. -/
theorem sync_ends {s : Sys} (hs : s.bus = .locked) :
    (run step s [.sync, .sync]).aw = finalState irqBusSyncUnlock s.aw ∧
      (run step s [.sync, .sync]).bus = .free := by
  have haw : (step s .sync).aw = finalState (regmapWrite regP0Int
    ((s.aw.irqMask &&& 0xff).setWidth 8)) s.aw := by
    rw [step_aw, next, syncNext, hs]
  have hbus : (step s .sync).bus = .syncedP0 := by rw [step_bus, next, syncNext, hs]
  refine ⟨?_, ?_⟩
  · show (step (step s .sync) .sync).aw = _
    rw [step_aw, next, syncNext, hbus, haw, (regmapWrite_writes _ _ s.aw).irqMask, irqBusSyncUnlock]
    rw [finalState_bind_ok _ (outcome_get s.aw), finalState_get, finalState_bind_ok _ (outcome_attempt _ _),
      finalState_attempt, finalState_bind_pure, finalState_attempt]
  · show (step (step s .sync) .sync).bus = _
    rw [step_bus, next, syncNext, hbus]

/-! ### The invariant -/

theorem toNat_eq_iff_of_xor : ∀ {a b c d : Bool}, (a ^^ b) = (c ^^ d) → (c.toNat = a.toNat ↔ b = d) := by
  decide

/-- The line is unmasked, and changes at the pin and signals have both been counted right since a moment
    when the pin and `prev_state` were both at `level`. -/
structure Counted (level : Bool) (line : ℕ) (s : Sys) : Prop where
  unmasked : Unmasked line s
  changes : ((s.changes.count line).bodd ^^ s.aw.pins.getLsbD line) = level
  signals : ((s.signals.count line).bodd ^^ s.aw.prevState.getLsbD line) = level

/-- When no run of the handler is due or under way, INT is off, and `prev_state` is what was last read. -/
structure Tracked (level : Bool) (line : ℕ) (s : Sys) : Prop extends Counted level line s where
  quiet : s.handler = .idle → s.due = false →
    s.aw.asserted = false ∧ s.aw.latched.getLsbD line = s.aw.prevState.getLsbD line

section Invariant

variable {level : Bool} {line : Fin 16} {s : Sys}

theorem Counted.next (h : Counted level line s) {e : Event} (he : e ≠ .mask line) :
    Counted level line (next s e) where
  unmasked := next_unmasked h.unmasked he
  changes := (next_level line s e).trans h.changes
  signals := (next_signals h.unmasked e).trans h.signals

/-- In a quiet state all changes are signalled exactly if `prev_state` has the level last read. -/
theorem Counted.signalled_iff (h : Counted level line s) (hs : Quiescent s) :
    Signalled line s ↔ s.aw.latched.getLsbD line = s.aw.prevState.getLsbD line := by
  have hsignals : s.signals = s.aw.nested := by
    rw [Sys.signals, hs.idle, Handler.rest, List.append_nil]
  have hcount := h.changes.trans h.signals.symm
  rw [← latched_eq_pins h.unmasked.intDisabled hs.asserted, hsignals] at hcount
  rw [Signalled, Nat.mod_two_of_bodd, Nat.mod_two_of_bodd]
  exact toNat_eq_iff_of_xor hcount

theorem Counted.due (h : Counted level line s) (due : Bool) : Counted level line { s with due } :=
  ⟨⟨h.unmasked.irqMask, h.unmasked.intDisabled⟩, h.changes, h.signals⟩

theorem Tracked.noneLost (h : Tracked level line s) : NoneLost line s := fun hs =>
  (h.toCounted.signalled_iff hs).mpr (h.quiet hs.idle hs.due).2

theorem Seeded.tracked (h : Seeded s) (hs : Unmasked line s) :
    Tracked (s.aw.pins.getLsbD line) line s where
  unmasked := hs
  changes := by rw [h.changes, List.count_nil, Nat.bodd_zero, Bool.false_xor]
  signals := by
    rw [Sys.signals, h.nested, h.idle, h.prevState, Handler.rest, List.append_nil, List.count_nil,
      Nat.bodd_zero, Bool.false_xor]
  quiet _ _ := by
    refine ⟨?_, by rw [h.latched, h.prevState]⟩
    rw [Aw.asserted, h.latched, BitVec.xor_self, BitVec.zero_and]
    rfl

/-- If nobody runs the handler afterwards although it is idle, INT was off before and has stayed off. -/
theorem not_fires_quiet (h : Tracked level line s) {e : Event} (hidle : (next s e).handler = .idle)
    (hdue : (next s e).due = false) (hfires : ¬ Fires s (next s e)) (hkeep : (next s e).due = s.due) :
    (next s e).aw.asserted = false := by
  by_contra hon
  rw [Bool.not_eq_false] at hon
  have hbefore : s.aw.asserted = true ∧ s.handler = .idle := by
    refine ⟨?_, ?_⟩
    · by_contra hoff
      exact hfires ⟨hon, .inl (Bool.eq_false_iff.mpr hoff)⟩
    · by_contra hrunning
      exact hfires ⟨hon, .inr ⟨hrunning, hidle⟩⟩
  have hoff := (h.quiet hbefore.2 (hkeep.symm.trans hdue)).1
  rw [hbefore.1] at hoff
  cases hoff

/-- What is last read of the line is still what `prev_state` has, unless a run of the handler has ended
    with something else read. -/
theorem next_quiet (h : Tracked level line s) {e : Event} (hup : UpToDate line s e)
    (hidle : (next s e).handler = .idle) (hdue : (next s e).due = false) (hfires : ¬ Fires s (next s e)) :
    (next s e).aw.asserted = false ∧
      (next s e).aw.latched.getLsbD line = (next s e).aw.prevState.getLsbD line := by
  rcases eq_or_ne e .handler with rfl | hhandler
  · by_cases hs : s.handler = .idle
    · have hsame : next s .handler = s := by rw [next, handlerNext, hs]
      rw [hsame] at hdue ⊢
      exact h.quiet hs hdue
    · have hreturns := returns_of_idle hs hidle
      have hret := hreturns.returned
      have hoff := not_fires_quiet h hidle hdue hfires hret.due
      rw [hret.latched, hret.prevState]
      exact ⟨hoff, hup hreturns (hret.asserted.symm.trans hoff) (hret.due.symm.trans hdue)⟩
  rcases eq_or_ne e .enter with rfl | henter
  · rw [next] at hidle
    split_ifs at hidle with hs
    exact absurd hidle hs
  · have hout := next_outside line s hhandler henter
    have hquiet := h.quiet (hout.handler.symm.trans hidle) (hout.due.symm.trans hdue)
    refine ⟨not_fires_quiet h hidle hdue hfires hout.due, ?_⟩
    rw [hout.prevState]
    rcases hout.latched with hlatched | hlatched
    · rw [hlatched, hquiet.2]
    · rw [hlatched, ← latched_eq_pins h.unmasked.intDisabled hquiet.1, hquiet.2]

theorem Tracked.step (h : Tracked level line s) {e : Event} (he : e ≠ .mask line)
    (hup : UpToDate line s e) : Tracked level line (step s e) := by
  unfold Aw9523b.step
  split_ifs with hfires
  · exact ⟨(h.toCounted.next he).due true, fun _ hdue => Bool.noConfusion hdue⟩
  · exact ⟨h.toCounted.next he, fun hidle hdue => next_quiet h hup hidle hdue hfires⟩

/-- A run of the handler that ends quietly, with something else read than `prev_state` has, has lost it. -/
theorem Tracked.lost (h : Tracked level line s) {e : Event} (he : e ≠ .mask line)
    (hup : ¬ UpToDate line s e) : ¬ NoneLost line (Aw9523b.step s e) := by
  unfold UpToDate at hup
  push Not at hup
  obtain ⟨hreturns, hoff, hdue, hne⟩ := hup
  have hret := hreturns.returned
  have hquiet : Quiescent (Aw9523b.next s e) :=
    ⟨hret.handler, hret.due.trans hdue, hret.asserted.trans hoff⟩
  have hfires : ¬ Fires s (Aw9523b.next s e) := fun hf => Bool.noConfusion (hquiet.asserted.symm.trans hf.1)
  intro hnone
  rw [Aw9523b.step, if_neg hfires] at hnone
  have hsig := ((h.toCounted.next he).signalled_iff hquiet).mp (hnone hquiet)
  rw [hret.latched, hret.prevState] at hsig
  exact hne hsig

end Invariant

/-- All lines unmasked and enabled, all levels low, and the second transfer fails. -/
def secondFails : Sys where
  aw := {
    map := {
      regs := fun _ => 0, cache := fun _ => none, seen := []
      xfers := fun k => if k = 1 then .error (.other 6) else .ok () }
    defaults := fun _ => 0, pins := 0, latched := 0, irqMask := 0, prevState := 0, nested := [], log := [] }
  handler := .idle
  due := false
  bus := .free
  changes := []

theorem secondFails_seeded : Seeded secondFails := ⟨rfl, rfl, rfl, rfl, rfl, rfl, rfl⟩

theorem secondFails_unmasked : Unmasked (0 : Fin 16) secondFails := ⟨by decide, by decide⟩

end GeminiLinux.Aw9523b
