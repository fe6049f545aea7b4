import GeminiLinux.Lib.Prog
import GeminiLinux.Kernel.Errno
import GeminiLinux.Kernel.InputMt

/-! The polled SSD2092 touchscreen driver. After a reset the chip is in its bootloader with the touch
    MCU (TMC) stalled; the DS handshake releases it, and from then on a poll reads the
    Status&Length word, which stays latched until INT_CLEAR is written, and the point records.

        reset ──▶ stalled ──DS_CPU_CONTROL<-0──▶ running
        poll:  S&L ─▶ 0: return | BOOT: config, ack | AUX: re-init, return | points: report, ack

    Whether a transfer succeeds, what it reads and how the INT line stands at each sample is given
    by streams. The trace records what goes over the bus (with the state of the TMC at that time),
    the reset line, the log and the packets handed to the input core. -/

namespace GeminiLinux.Ssd2092
open Prog InputMt

/-! ### Registers -/

def dsClearInt : ℕ := 0x0001
def dsCpuControl : ℕ := 0x0002
def dsEflashWrite : ℕ := 0x0004

def regIntClear : ℕ := 0x0043
def regTouchMode : ℕ := 0x0050
def regXResolution : ℕ := 0x0056
def regYResolution : ℕ := 0x0057
def regUsingPointNum : ℕ := 0x0059
def regStatusLength : ℕ := 0x0af0
def regStatusLengthAlt : ℕ := 0x00f0
def regPointData : ℕ := 0x0af1
def regAux : ℕ := 0x0af8

def statusAux : ℕ := 0x40
def statusBootSt : ℕ := 0x80
def idAxisLast : ℕ := 0x0e
def intReadyMs : ℕ := 400
def maxPoint : ℕ := 10
def pointSz : ℕ := 6
def maxPkt : ℕ := maxPoint * pointSz + 2
def defaultXRes : ℕ := 1080
def defaultYRes : ℕ := 2160

instance : NeZero maxPoint := ⟨by decide⟩

/-! ### The driver and what it touches -/

inductive Ev where
  | send (pkt : List UInt8) (ok running : Bool)
  | recv (len : ℕ) (ok : Bool)
  | reset (asserted : Bool)
  | log (fmt : String) (args : List ℤ)
  | packet (evs : List InputEv)
  deriving DecidableEq

/-- `struct ssd2092`, the input device, the chip's run state, what the bus and the INT line will do,
    and the trace so far. A transfer that succeeds delivers as many bytes as it asks for. -/
structure Ts where
  maxX : ℕ
  maxY : ℕ
  prop : TouchProp
  mt : Mt maxPoint
  running : Bool
  i2c : Stream' (Except Errno (ℕ → UInt8))
  intPin : Stream' Bool
  trace : List Ev

abbrev TsM := EStateM Errno Ts

def devLog (fmt : String) (args : List ℤ) : TsM Unit :=
  modify fun ts => { ts with trace := ts.trace ++ [.log fmt args] }

/-- `if (ret) { dev_err(...); return ret; }`. -/
def orFail {α : Type} (p : TsM α) (fmt : String) : TsM α := onError p fun e => devLog fmt [e.ret]

/-- A register address on the wire, little endian. -/
def regBytes (reg : ℕ) : List UInt8 := [UInt8.ofNat (reg &&& 0xff), UInt8.ofNat (reg >>> 8)]

def le16 (buf : List UInt8) (i : ℕ) : ℕ := (buf.getD i 0).toNat + 2 ^ 8 * (buf.getD (i + 1) 0).toNat

/-- The packet that releases the TMC: DS_CPU_CONTROL <- 0. -/
def unstallPkt : List UInt8 := regBytes dsCpuControl ++ regBytes 0x0000

/-- The packet that acknowledges: INT_CLEAR <- 1. -/
def intClearPkt : List UInt8 := regBytes regIntClear ++ regBytes 0x0001

def i2cMasterSend (pkt : List UInt8) : TsM Unit := fun ts =>
  match ts.i2c.head with
  | .ok _ => .ok () { ts with
      i2c := ts.i2c.tail
      running := ts.running || pkt == unstallPkt
      trace := ts.trace ++ [.send pkt true ts.running] }
  | .error e => .error e { ts with
      i2c := ts.i2c.tail
      trace := ts.trace ++ [.send pkt false ts.running] }

def i2cMasterRecv (len : ℕ) : TsM (List UInt8) := fun ts =>
  match ts.i2c.head with
  | .ok data => .ok ((List.range len).map data) { ts with
      i2c := ts.i2c.tail, trace := ts.trace ++ [.recv len true] }
  | .error e => .error e { ts with i2c := ts.i2c.tail, trace := ts.trace ++ [.recv len false] }

/-- The TMC stalls in reset and stays so. -/
def gpiodSetReset (asserted : Bool) : TsM Unit :=
  modify fun ts => { ts with
    running := ts.running && !asserted, trace := ts.trace ++ [.reset asserted] }

def intAsserted : TsM Bool :=
  modifyGet fun ts => (ts.intPin.head, { ts with intPin := ts.intPin.tail })

/-! ### Transfers -/

def readReg (reg len : ℕ) : TsM (List UInt8) := do
  i2cMasterSend (regBytes reg)
  i2cMasterRecv len

def readCmd (cmd : List UInt8) (len : ℕ) : TsM (List UInt8) := do
  i2cMasterSend cmd
  i2cMasterRecv len

def write (reg : ℕ) (val : List UInt8) : TsM Unit :=
  if val.length + 2 > 8 then throw .EINVAL else i2cMasterSend (regBytes reg ++ val)

def writeWord (reg val : ℕ) : TsM Unit := write reg (regBytes val)

def eflashWrite (addr data : ℕ) : TsM Unit := write dsEflashWrite (regBytes addr ++ regBytes data)

/-- XOR in the high byte, byte sum in the low byte. -/
def checksumOk (data : List UInt8) (csum : ℕ) : Bool :=
  (data.foldl (· ^^^ ·) 0).toNat == csum >>> 8 && (data.foldl (· + ·) 0).toNat == csum &&& 0xff

/-! ### Reset, handshake, configuration -/

def waitInt : ℕ → TsM Unit
  | 0 => throw .ETIMEDOUT
  | timeoutMs + 1 => do
    if ← intAsserted then pure () else waitInt timeoutMs

def hwReset : TsM Unit := do
  gpiodSetReset false
  gpiodSetReset true
  gpiodSetReset false
  orFail (waitInt intReadyMs) "INT never asserted after reset (DS not ready): %d"

def intClear : TsM Unit := writeWord regIntClear 0x0001

def dsHandshake : TsM Unit := do
  let bootSt ← orFail (readCmd [0x00, 0x00, 0x00, 0x00] 2) "DS boot status read failed: %d"
  devLog "DS boot status 0x%04x" [le16 bootSt 0]
  let ver ← orFail (readCmd [0x0f, 0x00, 0x80, 0x00] 10) "DS version read failed: %d"
  devLog "DS ID words %04x %04x %04x %04x %04x"
    [le16 ver 0, le16 ver 2, le16 ver 4, le16 ver 6, le16 ver 8]
  orFail (do eflashWrite 0xe003 0x0007; eflashWrite 0xe000 0x0048) "DS init code write failed: %d"
  orFail (writeWord dsClearInt 0x0000) "DS int clear failed: %d"
  orFail (writeWord dsCpuControl 0x0000) "TMC unstall failed: %d"
  match ← attempt (waitInt intReadyMs) with
  | .ok _ => pure ()
  | .error _ => devLog "INT not asserted after unstall (continuing)" []

/-- What `ssd2092_tmc_config` logs when it succeeds. -/
def tmcConfigFmt : String := "TMC config: %ux%u, %u points"

/-- A resolution the 12-bit coordinate fields cannot have. -/
def outOfRange (maxX maxY : ℕ) : Prop := maxX = 0 ∨ maxX > 4095 ∨ maxY = 0 ∨ maxY > 4095

instance (maxX maxY : ℕ) : Decidable (outOfRange maxX maxY) := by unfold outOfRange; infer_instance

/-- The transfers of `ssd2092_tmc_config`; it returns what was read last. -/
def tmcRead : TsM ℕ := do
  orFail (writeWord regTouchMode 0x0000) "set touch mode failed: %d"
  let x ← orFail (readReg regXResolution 2) "X resolution read failed: %d"
  modify fun ts => { ts with maxX := le16 x 0 }
  let y ← orFail (readReg regYResolution 2) "Y resolution read failed: %d"
  modify fun ts => { ts with maxY := le16 y 0 }
  match ← attempt (readReg regUsingPointNum 2) with
  | .ok val => pure (le16 val 0)
  | .error e => do
    devLog "point-num read failed: %d" [e.ret]
    pure (le16 y 0)

/-- The end of `ssd2092_tmc_config`. -/
def tmcGeometry (val : ℕ) : TsM Unit := do
  let ts ← get
  devLog tmcConfigFmt [ts.maxX, ts.maxY, val]
  if outOfRange ts.maxX ts.maxY then do
    devLog "implausible resolution, using %ux%u default" [defaultXRes, defaultYRes]
    modify fun ts => { ts with maxX := defaultXRes, maxY := defaultYRes }
  else pure ()

def tmcConfig : TsM Unit := do
  let val ← tmcRead
  tmcGeometry val

/-- `ssd2092_reinit`, which returns nothing. -/
def reinit : TsM Unit := do
  let _ ← attempt (do hwReset; dsHandshake; tmcConfig)

/-! ### The poll -/

/-- One read of Status&Length and its checksum word, made again at the other address if the first
    is echoed back. -/
def readSnlWords : TsM (List UInt8) := do
  let snl ← readReg regStatusLength 4
  if le16 snl 0 = regStatusLength then readReg regStatusLengthAlt 4 else pure snl

/-- The tries of `ssd2092_read_snl` that are left. -/
def readSnlTries : ℕ → TsM ℕ
  | 0 => throw .EBADMSG
  | tries + 1 => do
    let snl ← readSnlWords
    if checksumOk (snl.take 2) (le16 snl 2) then pure (le16 snl 0) else readSnlTries tries

def readSnl : TsM ℕ := readSnlTries 3

/-- A 6-byte point record: id, x_lsb, y_lsb, x_y_msb, weight, and a byte the driver does not use. -/
structure Record where
  id : ℕ
  x : ℕ
  y : ℕ
  w : ℕ
  deriving DecidableEq

def record (rec : List UInt8) : Record :=
  let msb := (rec.getD 3 0).toNat
  { id := (rec.getD 0 0).toNat
    x := (msb &&& 0xf0) <<< 4 ||| (rec.getD 1 0).toNat
    y := (msb &&& 0x0f) <<< 8 ||| (rec.getD 2 0).toNat
    w := (rec.getD 4 0).toNat }

/-- The complete records at the front of a packet. -/
def records (pkt : List UInt8) (count : ℕ) : List Record :=
  (List.range count).map fun i => record (pkt.drop (i * pointSz))

/-- What one record tells the input core; key, gesture and aux records are not ported. -/
def recordEvents (prop : TouchProp) (r : Record) : List InputEv :=
  if r.id > idAxisLast then []
  else [.mtSlot r.id, .slotState (r.w > 0)] ++
    if r.w > 0 then [reportPos prop r.x r.y, .pressure r.w] else []

/-- The packet `ssd2092_report_points` hands to the input core. -/
def pointsPacket (prop : TouchProp) (pkt : List UInt8) (count : ℕ) : List InputEv :=
  (records pkt count).flatMap (recordEvents prop) ++ [.syncFrame]

def reportPoints (pkt : List UInt8) (count : ℕ) : TsM Unit :=
  modify fun ts => { ts with
    mt := ts.mt.run (pointsPacket ts.prop pkt count)
    trace := ts.trace ++ [.packet (pointsPacket ts.prop pkt count)] }

def status (info : ℕ) : ℕ := info >>> 8
def len (info : ℕ) : ℕ := info &&& 0xff

/-- The length the point read asks for, without the checksum word. -/
def pointLen (info : ℕ) : ℕ := min (len info) (maxPkt - 2)

def readPoints (info : ℕ) : TsM Unit := do
  match ← attempt (readReg regPointData (pointLen info + 2)) with
  | .error e => devLog "point read failed: %d" [e.ret]
  | .ok pkt =>
    if checksumOk (pkt.take (pointLen info)) (le16 pkt (pointLen info)) then
      reportPoints pkt (pointLen info / pointSz)
    else devLog "point checksum fail" []

/-- The AUX word, 0 if it cannot be read. -/
def auxWord : Except Errno (List UInt8) → ℕ
  | .ok buf => le16 buf 0
  | .error _ => 0

def auxEvent : TsM Unit := do
  let aux ← attempt (readReg regAux 2)
  devLog "AUX event 0x%04x, re-initialising" [auxWord aux]
  reinit

/-- `ssd2092_poll` from the S&L word down to its label `ack`; `false` is a return that does not get
    there. -/
def pollWord (info : ℕ) : TsM Bool :=
  if info = 0 then pure false
  else if status info &&& statusBootSt ≠ 0 then do
    devLog "TMC boot flag set, re-sending config" []
    let _ ← attempt tmcConfig
    pure true
  else if status info &&& statusAux ≠ 0 then do
    auxEvent
    pure false
  else if len info ≠ 0 ∧ status info &&& 0x7f ≠ 0 then do
    readPoints info
    pure true
  else pure true

/-- `ssd2092_poll` down to its label `ack`. -/
def pollBody : TsM Bool := do
  match ← attempt readSnl with
  | .error e => do
    devLog "S&L read failed: %d" [e.ret]
    pure true
  | .ok info => pollWord info

def poll : TsM Unit := do
  if ← pollBody then
    let _ ← attempt intClear
  else pure ()

/-! ### Probe -/

/-- What the kernel gives `ssd2092_probe`, in the order it asks. -/
structure ProbeEnv where
  kzalloc : Bool
  resetGpio : Except Errno Unit
  irqGpio : Except Errno Unit
  inputAlloc : Bool
  /-- `touchscreen_parse_properties`, from the ranges of the axes. -/
  parseProperties : ℕ → ℕ → TouchProp
  initSlots : Except Errno Unit
  setupPolling : Except Errno Unit
  registerDevice : Except Errno Unit

def probe (env : ProbeEnv) : TsM Unit := do
  if !env.kzalloc then throw .ENOMEM
  else do
    orFail (MonadExcept.ofExcept env.resetGpio) "failed to get reset GPIO"
    gpiodSetReset true
    orFail (MonadExcept.ofExcept env.irqGpio) "failed to get INT GPIO"
    orFail hwReset "chip not ready after reset"
    orFail dsHandshake "DS handshake failed"
    orFail tmcConfig "TMC config failed"
    orFail (if env.inputAlloc then pure () else throw .ENOMEM) "input allocation failed"
    modify fun ts => { ts with prop := env.parseProperties (ts.maxX - 1) (ts.maxY - 1) }
    orFail (MonadExcept.ofExcept env.initSlots) "MT slot init failed"
    modify fun ts => { ts with mt := Mt.init maxPoint }
    orFail (MonadExcept.ofExcept env.setupPolling) "polling setup failed"
    orFail (MonadExcept.ofExcept env.registerDevice) "input registration failed"
    let ts ← get
    devLog "SSD2092 ready (%ux%u, polling %ums)" [ts.maxX, ts.maxY, 10]

/-! ### A driver that has been probed -/

/-- A successful probe leaves this state. -/
def Probed (ts : Ts) : Prop :=
  ∃ env ts₀, outcome (probe env) ts₀ = .ok () ∧ finalState (probe env) ts₀ = ts

/-- Before the probe: the chip in reset, and what the bus and the INT line will do. -/
def powerOn (i2c : Stream' (Except Errno (ℕ → UInt8))) (intPin : Stream' Bool) : Ts where
  maxX := 0
  maxY := 0
  prop := ⟨0, 0, false, false, false⟩
  mt := Mt.init maxPoint
  running := false
  i2c := i2c
  intPin := intPin
  trace := []

def goodEnv : ProbeEnv where
  kzalloc := true
  resetGpio := .ok ()
  irqGpio := .ok ()
  inputAlloc := true
  parseProperties := fun maxX maxY => ⟨maxX, maxY, false, false, false⟩
  initSlots := .ok ()
  setupPolling := .ok ()
  registerDevice := .ok ()

/-- A transfer that succeeds; if it reads, with these bytes first. -/
def reply (bytes : List UInt8) : Except Errno (ℕ → UInt8) := .ok fun i => bytes.getD i 0

/-- A probe makes fifteen transfers and waits twice for INT; these are the ones after it, and those
    after them read zeros. -/
def bus (i2c : List (Except Errno (ℕ → UInt8))) : Stream' (Except Errno (ℕ → UInt8)) :=
  List.replicate 15 (reply []) ++ i2c ++ₛ Stream'.const (reply [])

def afterProbe (i2c : List (Except Errno (ℕ → UInt8))) (intPin : Stream' Bool) : Ts :=
  finalState (probe goodEnv) (powerOn (bus i2c) intPin)

theorem afterProbe_probed {i2c : List (Except Errno (ℕ → UInt8))} {intPin : Stream' Bool}
    (h : outcome (probe goodEnv) (powerOn (bus i2c) intPin) = .ok ()) :
    Probed (afterProbe i2c intPin) := ⟨goodEnv, powerOn (bus i2c) intPin, h, rfl⟩

/-- What a poll that reads a packet of points sees of them, and the acknowledgement. -/
def pointsReplies (snl pkt : List UInt8) : List (Except Errno (ℕ → UInt8)) :=
  [reply [], reply snl, reply [], reply pkt, reply []]

/-- One record: id 0 at (10, 20), weight 5. -/
def fingerPkt : List UInt8 := [0, 10, 20, 0, 5, 0, 35, 27]

end GeminiLinux.Ssd2092
