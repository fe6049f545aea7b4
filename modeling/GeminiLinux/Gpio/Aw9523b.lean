import GeminiLinux.Kernel.Regmap

/-! The AW9523B GPIO expander: two ports of eight lines behind I2C, each port with a register for its
    inputs, its output latch, its directions (1 = input) and its interrupt enables (0 = enabled).

        line 0-7  ─▶ port 0, bit = line          P0_IN P0_OUT P0_CFG P0_INT
        line 8-15 ─▶ port 1, bit = line - 8      P1_IN P1_OUT P1_CFG P1_INT

    The input registers are volatile: reading one samples the pins of its port, and the chip remembers the
    levels it has handed out. All other registers go through the cache of the register map. -/

namespace GeminiLinux.Aw9523b
open Prog Regmap

/-! ### Registers -/

def regP0In : ℕ := 0x00
def regP1In : ℕ := 0x01
def regP0Out : ℕ := 0x02
def regP1Out : ℕ := 0x03
def regP0Cfg : ℕ := 0x04
def regP1Cfg : ℕ := 0x05
def regP0Int : ℕ := 0x06
def regP1Int : ℕ := 0x07
def regId : ℕ := 0x10
def regCtl : ℕ := 0x11
def regP0Led : ℕ := 0x12
def regP1Led : ℕ := 0x13
def regReset : ℕ := 0x7f

def idValue : BitVec 8 := 0x23
def numGpios : ℕ := 16
def portSize : ℕ := 8
def ctlP0PushPull : BitVec 8 := BitVec.twoPow 8 4

def gpioLineDirectionOut : ℤ := 0
def gpioLineDirectionIn : ℤ := 1

/-- All registers but those of `aw9523b_volatile_ranges`. -/
def cached (reg : ℕ) : Bool := !(regP0In ≤ reg && reg ≤ regP1In)

/-! ### The driver and its chip -/

/-- `struct aw9523b` and the chip: the register map, what a soft reset sets the registers to, the levels
    at the pins and those last read of each; the lines signalled so far, and the log. -/
structure Aw where
  map : Map 8
  defaults : ℕ → BitVec 8
  pins : BitVec 16
  latched : BitVec 16
  irqMask : BitVec 16
  prevState : BitVec 16
  nested : List ℕ
  log : List (String × List ℤ)

abbrev AwM := EStateM Errno Aw

def devErr (fmt : String) (args : List ℤ) : AwM Unit :=
  modify fun aw => { aw with log := aw.log ++ [(fmt, args)] }

/-- `if (ret) return dev_err_probe(...);`, which does not log a deferral as an error. -/
def orErrProbe {α : Type} (p : AwM α) (fmt : String) : AwM α :=
  onError p fun e => if e = .EPROBE_DEFER then pure () else devErr fmt [e.ret]

def onMap {α : Type} (p : MapM 8 α) : AwM α := zoom Aw.map (fun map aw => { aw with map }) p

/-- The levels of port 0 or 1. -/
def portLevels (levels : BitVec 16) (port : ℕ) : BitVec 8 := levels.extractLsb' (port * portSize) 8

/-- The lines of port 0 or 1. -/
def portLines (port : ℕ) : BitVec 16 := if port = 0 then 0x00ff else 0xff00

/-- A read of an input register that has got through. -/
def Aw.sample (aw : Aw) (port : ℕ) : Aw :=
  { aw with latched := updateBits aw.latched (portLines port) aw.pins }

def regmapRead (reg : ℕ) : AwM (BitVec 8) :=
  if cached reg then onMap (Regmap.regmapRead cached reg)
  else do
    onMap transfer
    modifyGet fun aw => (portLevels aw.pins reg, aw.sample reg)

def regmapWrite (reg : ℕ) (val : BitVec 8) : AwM Unit := onMap (Regmap.regmapWrite cached reg val)

def regmapUpdateBits (reg : ℕ) (mask val : BitVec 8) : AwM Unit :=
  onMap (Regmap.regmapUpdateBits cached reg mask val)

/-! ### GPIO helpers -/

def portReg (gpio p0Reg : ℕ) : ℕ := if gpio < portSize then p0Reg else p0Reg + 1

def portBit (gpio : ℕ) : ℕ := if gpio < portSize then gpio else gpio - portSize

/-- `BIT(aw9523b_port_bit(gpio))`. -/
def lineBit (gpio : ℕ) : BitVec 8 := BitVec.twoPow 8 (portBit gpio)

/-! ### The `gpio_chip` operations -/

def getDirection (offset : ℕ) : AwM ℤ := do
  let val ← regmapRead (portReg offset regP0Cfg)
  pure (if val &&& lineBit offset ≠ 0 then gpioLineDirectionIn else gpioLineDirectionOut)

def directionInput (offset : ℕ) : AwM Unit :=
  regmapUpdateBits (portReg offset regP0Cfg) (lineBit offset) (lineBit offset)

def directionOutput (offset : ℕ) (value : ℤ) : AwM Unit := do
  regmapUpdateBits (portReg offset regP0Out) (lineBit offset) (if value ≠ 0 then lineBit offset else 0)
  regmapUpdateBits (portReg offset regP0Cfg) (lineBit offset) 0

def get (offset : ℕ) : AwM ℤ := do
  let val ← regmapRead (portReg offset regP0In)
  pure (if val &&& lineBit offset ≠ 0 then 1 else 0)

/-- `aw9523b_set`, which returns nothing. -/
def set (offset : ℕ) (value : ℤ) : AwM Unit := do
  let _ ← attempt (regmapUpdateBits (portReg offset regP0Out) (lineBit offset)
    (if value ≠ 0 then lineBit offset else 0))

/-! ### The `irq_chip` operations -/

def irqMask (hwirq : ℕ) : AwM Unit :=
  modify fun aw => { aw with irqMask := aw.irqMask ||| BitVec.twoPow 16 hwirq }

def irqUnmask (hwirq : ℕ) : AwM Unit :=
  modify fun aw => { aw with irqMask := aw.irqMask &&& ~~~BitVec.twoPow 16 hwirq }

/-- `aw9523b_irq_bus_sync_unlock`; what the writes return is not looked at. -/
def irqBusSyncUnlock : AwM Unit := do
  let aw ← MonadState.get
  let _ ← attempt (regmapWrite regP0Int ((aw.irqMask &&& 0xff).setWidth 8))
  let _ ← attempt (regmapWrite regP1Int ((aw.irqMask >>> 8 &&& 0xff).setWidth 8))

inductive IrqReturn where
  | none | handled
  deriving DecidableEq

/-- `(p1 << 8) | p0`. -/
def inputState (p0 p1 : BitVec 8) : BitVec 16 := p1.setWidth 16 <<< 8 ||| p0.setWidth 16

/-- The set bits of `changed`, from the lowest on. -/
def setBits (changed : BitVec 16) : List ℕ := (List.range numGpios).filter (changed.getLsbD ·)

def handleNestedIrq (line : ℕ) : AwM Unit := modify fun aw => { aw with nested := aw.nested ++ [line] }

def handleNestedIrqs : List ℕ → AwM Unit
  | [] => pure ()
  | line :: lines => do
    handleNestedIrq line
    handleNestedIrqs lines

/-- The part of `aw9523b_irq_handler` that has both input registers. -/
def irqChanged (p0 p1 : BitVec 8) : AwM (BitVec 16) :=
  modifyGet fun aw => ((inputState p0 p1 ^^^ aw.prevState) &&& ~~~aw.irqMask,
    { aw with prevState := inputState p0 p1 })

def irqHandler : AwM IrqReturn := do
  match ← attempt (regmapRead regP0In) with
  | .error e => do
    devErr "IRQ: failed to read P0_IN: %d" [e.ret]
    pure .none
  | .ok p0 =>
    match ← attempt (regmapRead regP1In) with
    | .error e => do
      devErr "IRQ: failed to read P1_IN: %d" [e.ret]
      pure .none
    | .ok p1 => do
      let changed ← irqChanged p0 p1
      if changed = 0 then pure .none
      else do
        handleNestedIrqs (setBits changed)
        pure .handled

/-! ### Probe -/

/-- `aw9523b_write`. -/
def writeReg (reg : ℕ) (val : BitVec 8) : AwM Unit :=
  onError (regmapWrite reg val) fun e => devErr "write reg 0x%02x failed: %d" [reg, e.ret]

/-- What the kernel gives `aw9523b_probe`, in the order it asks. -/
structure ProbeEnv where
  kzalloc : Bool
  regmapInit : Except Errno Unit
  resetGpio : Except Errno Unit
  gpiochipAdd : Except Errno Unit
  /-- Whether the client has an interrupt. -/
  irq : Bool
  requestIrq : Except Errno Unit

/-- The chip takes the reset: every register but the one just written goes to its default. -/
def softReset : AwM Unit := modify fun aw => { aw with map := { aw.map with
  regs := fun reg => if reg = regReset then aw.map.regs reg else aw.defaults reg } }

/-- The first read of the inputs, for the handler to compare with; a failure leaves the state as it is. -/
def seedPrevState : AwM Unit := do
  match ← attempt (do
    let p0 ← regmapRead regP0In
    let p1 ← regmapRead regP1In
    pure (inputState p0 p1)) with
  | .ok state => modify fun aw => { aw with prevState := state }
  | .error _ => pure ()

/-- Reset, identification and the registers' first contents. -/
def initChip : AwM Unit := do
  writeReg regReset 0x00
  softReset
  let id ← orErrProbe (regmapRead regId) "failed to read chip ID"
  if id ≠ idValue then do
    devErr "unexpected chip ID 0x%02x (expected 0x%02x)" [id.toNat, idValue.toNat]
    throw .ENODEV
  else do
    writeReg regP0Led 0xff
    writeReg regP1Led 0xff
    writeReg regP0Cfg 0xff
    writeReg regP1Cfg 0xff
    writeReg regP0Int 0xff
    writeReg regP1Int 0xff
    writeReg regCtl ctlP0PushPull

def probe (env : ProbeEnv) : AwM Unit := do
  if !env.kzalloc then throw .ENOMEM
  else do
    modify fun aw => { aw with irqMask := 0, prevState := 0 }
    orErrProbe (MonadExcept.ofExcept env.regmapInit) "regmap init failed"
    modify fun aw => { aw with map := { aw.map with cache := fun _ => none } }
    orErrProbe (MonadExcept.ofExcept env.resetGpio) "failed to get reset GPIO"
    initChip
    modify fun aw => { aw with irqMask := 0xffff }
    orErrProbe (MonadExcept.ofExcept env.gpiochipAdd) "failed to add gpiochip"
    if env.irq then do
      seedPrevState
      orErrProbe (MonadExcept.ofExcept env.requestIrq) "failed to request IRQ"
    else pure ()

end GeminiLinux.Aw9523b
