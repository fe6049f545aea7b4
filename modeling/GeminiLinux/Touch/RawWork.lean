import GeminiLinux.Kernel.Errno
import GeminiLinux.Lib.Runs
import GeminiLinux.Touch.RawQueue
import GeminiLinux.Touch.VendorReport

/-! The works of the vendor's touch driver that read raw data: those of a production test (MP test), those of a
    raw data touch mode, and those of an aging mode, which read their points and a frame behind them. The first
    two take `raw_data_lock` first and give it back last, and read a frame in chunks into the queue's slot:

        down_trylock ── S&L ── chunk … chunk ── put_queue ── INT_CLEAR ── up
             │ taken                                              ▲
             └────────────────────────────────────────────────────┘

    Whoever finds the semaphore taken gives it back all the same. The test's work leaves without giving it back
    as long as the chip is not ready for the test. A command is one step, between two works. -/

namespace GeminiLinux.RawWork
open Rings Runs
open Solomon (solomonMaxPoint solomonMaxRawdataQueue Frame SolomonData getRearQueueBuff putQueue getFrontQueueBuff
  getQueue clearQueue)

def mptestStop : BitVec 16 := 0x0000
def mptestReadyStop : BitVec 16 := 0x8000
def mptestReadyStart : BitVec 16 := 0x4000
def mptestLpmNcRange : BitVec 16 := 0x0006
def mptestLpmLcRange : BitVec 16 := 0x0008
def mptestLpmLcJitter : BitVec 16 := 0x0009

def touchPointMode : ℕ := 0
def agingRawDataMode : ℕ := 31

def solomonMaxNode : ℕ := 18 * 32

/-- `sizeof(rawData[0])`. -/
def slotSize : ℕ := 2 * (solomonMaxNode + 4 * solomonMaxPoint + 2)

/-- `-EAGAIN`. -/
def eagain : ℤ := -11

/-- `struct solomon_config`, as far as frames go. The driver takes the numbers that the chip gives it; that a
    frame fits into its slot is not checked. -/
structure SolomonConfig where
  xNode : ℕ
  yNode : ℕ
  i2cLength : ℕ
  fits : xNode * yNode * 2 ≤ slotSize

/-- The bytes of a frame. -/
def SolomonConfig.size (config : SolomonConfig) : ℕ := config.xNode * config.yNode * 2

/-- What a work finds: the interrupt pin, the S&L word, whether its write of the test mode succeeds, whether
    `solomon_read_points` gets behind the packet, and what the reads of the chunks give. -/
structure Bus where
  intPin : Bool
  pointInfo : Except Errno (BitVec 16)
  setMptest : Except Errno Unit
  pointsRead : Bool
  chunks : Stream' (Except Errno (ℕ → UInt8))

/-- The keys that a test sends: `KEY_BACK`, and the one with code 98, on which the application fetches its frames. -/
inductive Key where
  | back | rawData
  deriving DecidableEq

/-- The driver's data, and what was done since: the keys sent, the works that left before the chip was ready and
    those that found the semaphore taken, and, since the queue was last cleared, what the works read for the
    frames they published, and the frames taken or skipped. -/
structure Raw where
  ftdata : SolomonData
  mptestMode : BitVec 16
  touchMode : ℕ
  rawDataLock : ℕ
  mpTotalCount : ℤ
  mpCurCount : ℤ
  mpSkipCount : ℤ
  mpNeedback : ℤ
  keys : List Key
  notReady : ℕ
  lost : ℕ
  reads : List Frame
  gots : List Frame

/-- Behind the driver's start. -/
def start (rawData : ℕ → Frame) : Raw where
  ftdata := ⟨0, 0, rawData⟩
  mptestMode := mptestStop
  touchMode := touchPointMode
  rawDataLock := 1
  mpTotalCount := -1
  mpCurCount := 0
  mpSkipCount := 0
  mpNeedback := 0
  keys := []
  notReady := 0
  lost := 0
  reads := []
  gots := []

/-! ### A frame -/

/-- How the loop over a frame's chunks ends: behind the frame, with what the last read gave back; with a read that
    failed; or with `max` below zero. -/
inductive LoopEnd where
  | done (err : ℤ)
  | failed (err : ℤ)
  | max

/-- The loop with `sz` bytes to go, and the bytes that it reads. -/
def readChunks (i2cLength : ℕ) : ℕ → ℕ → ℤ → Stream' (Except Errno (ℕ → UInt8)) → LoopEnd × List UInt8
  | max, sz, err, chunks =>
    if sz = 0 then (.done err, [])
    else
      let len := if sz ≤ i2cLength then sz else i2cLength
      match chunks.head with
      | .error e => (.failed e.ret, [])
      | .ok bytes =>
        let chunk := (List.range len).map bytes
        match max with
        | 0 => (.max, chunk)
        | max + 1 =>
          let (loopEnd, rest) := readChunks i2cLength max (sz - i2cLength) len chunks.tail
          (loopEnd, chunk ++ rest)

/-- The bytes that were read, over the beginning of what the slot held. -/
def overlay (old read : Frame) : Frame := read ++ old.drop read.length

def fill (ftdata : SolomonData) (slot : ℕ) (read : Frame) : SolomonData :=
  { ftdata with rawData := Function.update ftdata.rawData slot (overlay (ftdata.rawData slot) read) }

def solomonGetRawdata (config : SolomonConfig) (chunks : Stream' (Except Errno (ℕ → UInt8))) : ℤ × Frame :=
  match readChunks config.i2cLength 50 config.size 0 chunks with
  | (.done err, read) => (err, read)
  | (.failed err, read) => (err, read)
  | (.max, read) => (eagain, read)

/-- A frame is published, whatever became of its reads. -/
def solomonGetRawdataByQueue (config : SolomonConfig) (chunks : Stream' (Except Errno (ℕ → UInt8))) (s : Raw) :
    ℤ × Raw :=
  match getRearQueueBuff s.ftdata with
  | none => (eagain, s)
  | some slot =>
    let (err, read) := solomonGetRawdata config chunks
    (err, { s with ftdata := putQueue (fill s.ftdata slot read), reads := s.reads ++ [read] })

/-! ### The works -/

def clear (s : Raw) : Raw := { s with ftdata := clearQueue s.ftdata, reads := [], gots := [] }

/-- The oldest frame is gone. -/
def drop (s : Raw) : Raw :=
  match getFrontQueueBuff s.ftdata with
  | none => s
  | some slot => { s with ftdata := getQueue s.ftdata, gots := s.gots ++ [s.ftdata.rawData slot] }

/-- The mode and the queue do not wait for the write to succeed. -/
def solomonSetMptest (value : BitVec 16) (s : Raw) : Raw := clear { s with mptestMode := value }

/-- A counted work: it stops the test, or counts to the next key. -/
def countDown (s : Raw) : Raw :=
  let s := { s with mpCurCount := s.mpCurCount - 1 }
  if s.mptestMode &&& mptestReadyStop = mptestReadyStop then solomonSetMptest mptestStop s
  else if s.mpCurCount ≤ 0 then
    { s with
      keys := s.keys ++ (if 0 < s.mpNeedback then [.back] else []) ++ [.rawData], mpCurCount := s.mpTotalCount }
  else s

def solomonReadMptest (config : SolomonConfig) (bus : Bus) (s : Raw) : Raw :=
  let s := (solomonGetRawdataByQueue config bus.chunks s).2
  if 0 < s.mpSkipCount then
    let s := drop s
    let s := if s.mpSkipCount = 1 then clear s else s
    { s with mpSkipCount := s.mpSkipCount - 1 }
  else countDown s

def down (s : Raw) : Raw := { s with rawDataLock := s.rawDataLock - 1 }

def up (s : Raw) : Raw := { s with rawDataLock := s.rawDataLock + 1 }

/-- `solomon_read_mpdata`; `solomon_work` does not look at its result. -/
def solomonReadMpdata (config : SolomonConfig) (bus : Bus) (s : Raw) : Raw :=
  if bus.intPin then s
  else if s.rawDataLock = 0 then up { s with lost := s.lost + 1 }
  else
    match bus.pointInfo with
    | .error _ => up (down s)
    | .ok info =>
      if s.mptestMode &&& mptestReadyStart = mptestReadyStart then
        if info &&& 0x8000 = 0 then { down s with notReady := s.notReady + 1 }
        else
          let s := solomonSetMptest (s.mptestMode &&& ~~~mptestReadyStart) (down s)
          match bus.setMptest with
          | .error _ => up s
          | .ok _ => up { s with mptestMode := s.mptestMode &&& ~~~mptestReadyStart }
      else up (solomonReadMptest config bus (down s))

/-- `solomon_read_rawdata`: a frame with a read that failed is not published. -/
def solomonReadRawdata (config : SolomonConfig) (bus : Bus) (s : Raw) : Raw :=
  if bus.intPin then s
  else if s.rawDataLock = 0 then up { s with lost := s.lost + 1 }
  else
    let s := down s
    match bus.pointInfo with
    | .error _ => up s
    | .ok _ =>
      match getRearQueueBuff s.ftdata with
      | none => up s
      | some slot =>
        match readChunks config.i2cLength 10 config.size 0 bus.chunks with
        | (.failed _, read) => up { s with ftdata := fill s.ftdata slot read }
        | (_, read) => up { s with ftdata := putQueue (fill s.ftdata slot read), reads := s.reads ++ [read] }

/-- `solomon_read_points`, as far as frames go: an aging mode publishes one behind the packet. -/
def solomonReadPoints (config : SolomonConfig) (bus : Bus) (s : Raw) : Raw :=
  if bus.pointsRead ∧ agingRawDataMode ≤ s.touchMode then (solomonGetRawdataByQueue config bus.chunks s).2 else s

/-- `solomon_work`. -/
def solomonWork (config : SolomonConfig) (bus : Bus) (s : Raw) : Raw :=
  if mptestStop < s.mptestMode then solomonReadMpdata config bus s
  else if touchPointMode < s.touchMode ∧ s.touchMode < agingRawDataMode then solomonReadRawdata config bus s
  else solomonReadPoints config bus s

/-! ### The commands -/

/-- `TOUCH_IOCTL_MP_TEST`. -/
def mpTest (mode : BitVec 32) (count needback : ℤ) (s : Raw) : Raw :=
  if mode = 0 then
    let s := if s.mptestMode ≠ mptestStop then solomonSetMptest mptestStop s else s
    { s with mpTotalCount := -1, mpCurCount := 0, mpNeedback := 0 }
  else
    clear { s with
      mptestMode := mode.setWidth 16 ||| mptestReadyStart
      mpTotalCount := count
      mpCurCount := count
      mpNeedback := needback
      mpSkipCount := 1 }

/-- `ssl_mptest`; `occupied` is whether `solomon_set_mptest_alone` is turned away. -/
def sslMptest (mode : BitVec 16) (occupied : Bool) (s : Raw) : Raw :=
  if mode = 0 then { s with mptestMode := s.mptestMode ||| mptestReadyStop, mpTotalCount := -1, mpCurCount := 0 }
  else
    let s := if occupied then clear s else solomonSetMptest mode (clear s)
    { s with
      -- Every mode is one or the other, so this is always 10.
      mpTotalCount := if mode ≥ mptestLpmNcRange ∨ mode ≤ mptestLpmLcRange then 10 else -1
      mpCurCount := 0
      mpSkipCount := if mode ≥ mptestLpmNcRange ∧ mode ≤ mptestLpmLcJitter then 100 else 0 }

/-- `TOUCH_IOCTL_GET_RAW_DATA`; `copied` is whether both its copies succeed. -/
def getRawData (copied : Bool) (s : Raw) : Raw :=
  if s.touchMode = touchPointMode ∧ s.mptestMode = mptestStop then s
  else if copied then drop s
  else s

/-- A work; the commands, without the one of `ssdtouch` that uses slot 0 as a buffer of its own; the touch mode, as
    it is read back from the chip; and a new configuration, with the same numbers. -/
inductive Event where
  | work (bus : Bus)
  | mpTest (mode : BitVec 32) (count needback : ℤ)
  | sslMptest (mode : BitVec 16) (occupied : Bool)
  | touchMode (value : ℕ)
  | getRawData (copied : Bool)
  | queueClear
  | initConfig

def step (config : SolomonConfig) (s : Raw) : Event → Raw
  | .work bus => solomonWork config bus s
  | .mpTest mode count needback => mpTest mode count needback s
  | .sslMptest mode occupied => sslMptest mode occupied s
  | .touchMode value => { s with touchMode := value }
  | .getRawData copied => getRawData copied s
  | .queueClear => clear s
  | .initConfig => { s with mptestMode := mptestStop }

/-! ### The semaphore -/

section Semaphore

variable {config : SolomonConfig} {s s' s'' : Raw} {bus : Bus}

/-- A work that takes the semaphore and can read the S&L word. -/
structure Attends (s : Raw) (bus : Bus) : Prop where
  intPin : bus.intPin = false
  lock : s.rawDataLock ≠ 0
  pointInfo : bus.pointInfo.isOk

/-- The beginning of both works, with what they do with the S&L word. -/
def guarded (bus : Bus) (s : Raw) (attend : BitVec 16 → Raw) : Raw :=
  if bus.intPin then s
  else if s.rawDataLock = 0 then up { s with lost := s.lost + 1 }
  else
    match bus.pointInfo with
    | .error _ => up (down s)
    | .ok info => attend info

/-- What a work does that gets no further. -/
def idle (bus : Bus) (s : Raw) : Raw :=
  if bus.intPin then s else if s.rawDataLock = 0 then up { s with lost := s.lost + 1 } else up (down s)

theorem guarded_idle (h : ¬ Attends s bus) (attend : BitVec 16 → Raw) : guarded bus s attend = idle bus s := by
  rw [guarded, idle]
  split_ifs with hpin hlock
  · rfl
  · rfl
  · cases hread : bus.pointInfo with
    | error e => rfl
    | ok info => exact absurd ⟨Bool.not_eq_true _ ▸ hpin, hlock, by rw [hread]; rfl⟩ h

theorem guarded_attends (h : Attends s bus) (attend : BitVec 16 → Raw) :
    ∃ info, bus.pointInfo = .ok info ∧ guarded bus s attend = attend info := by
  rw [guarded, if_neg (by rw [h.intPin]; exact Bool.false_ne_true), if_neg h.lock]
  cases hread : bus.pointInfo with
  | error e =>
    have hok := h.pointInfo
    rw [hread] at hok
    exact absurd hok Bool.false_ne_true
  | ok info => exact ⟨info, rfl, rfl⟩

theorem readMpdata_idle (h : ¬ Attends s bus) : solomonReadMpdata config bus s = idle bus s := guarded_idle h _

theorem readRawdata_idle (h : ¬ Attends s bus) : solomonReadRawdata config bus s = idle bus s := guarded_idle h _

/-- The semaphore and those that it turned away stay as they are. -/
structure Unlocked (s s' : Raw) : Prop where
  lock : s'.rawDataLock = s.rawDataLock
  notReady : s'.notReady = s.notReady
  lost : s'.lost = s.lost

theorem Unlocked.refl (s : Raw) : Unlocked s s := ⟨rfl, rfl, rfl⟩

theorem Unlocked.trans (h : Unlocked s s') (h' : Unlocked s' s'') : Unlocked s s'' :=
  ⟨h'.lock.trans h.lock, h'.notReady.trans h.notReady, h'.lost.trans h.lost⟩

theorem unlocked_clear (s : Raw) : Unlocked s (clear s) := ⟨rfl, rfl, rfl⟩

theorem unlocked_drop (s : Raw) : Unlocked s (drop s) := by
  unfold drop
  split <;> exact ⟨rfl, rfl, rfl⟩

theorem unlocked_byQueue (config : SolomonConfig) (chunks : Stream' (Except Errno (ℕ → UInt8))) (s : Raw) :
    Unlocked s (solomonGetRawdataByQueue config chunks s).2 := by
  unfold solomonGetRawdataByQueue
  split <;> exact ⟨rfl, rfl, rfl⟩

theorem unlocked_readPoints (bus : Bus) (s : Raw) : Unlocked s (solomonReadPoints config bus s) := by
  unfold solomonReadPoints
  split_ifs
  · exact unlocked_byQueue config bus.chunks s
  · exact .refl s

theorem unlocked_countDown (s : Raw) : Unlocked s (countDown s) := by
  unfold countDown
  simp only
  split_ifs <;> exact ⟨rfl, rfl, rfl⟩

theorem unlocked_readMptest (bus : Bus) (s : Raw) : Unlocked s (solomonReadMptest config bus s) := by
  refine (unlocked_byQueue config bus.chunks s).trans ?_
  unfold solomonReadMptest
  simp only
  split_ifs
  · exact (unlocked_drop _).trans ⟨rfl, rfl, rfl⟩
  · exact (unlocked_drop _).trans ⟨rfl, rfl, rfl⟩
  · exact unlocked_countDown _

/-- The semaphore is a mutex, and a work that finds it taken answers for one that left without giving it back. -/
structure Counted (s : Raw) : Prop where
  lock_le : s.rawDataLock ≤ 1
  lost : s.lost + 1 = s.notReady + s.rawDataLock

theorem Counted.of_unlocked (h : Counted s) (h' : Unlocked s s') : Counted s' :=
  ⟨h'.lock ▸ h.lock_le, by rw [h'.lost, h'.notReady, h'.lock]; exact h.lost⟩

/-- A work that has taken the semaphore and gives it back. -/
theorem Counted.up (h : Counted s) (hlock : s.rawDataLock ≠ 0) (h' : Unlocked (down s) s') : Counted (up s') := by
  have hle := h.lock_le
  have hlost := h.lost
  have hdown : s'.rawDataLock = s.rawDataLock - 1 := h'.lock
  refine ⟨?_, ?_⟩
  · show s'.rawDataLock + 1 ≤ 1
    omega
  · show s'.lost + 1 = s'.notReady + (s'.rawDataLock + 1)
    have hnotReady : s'.notReady = s.notReady := h'.notReady
    have hlosts : s'.lost = s.lost := h'.lost
    omega

theorem Counted.lose (h : Counted s) (hlock : s.rawDataLock = 0) :
    Counted (RawWork.up { s with lost := s.lost + 1 }) := by
  have hlost := h.lost
  refine ⟨?_, ?_⟩
  · show s.rawDataLock + 1 ≤ 1
    omega
  · show s.lost + 1 + 1 = s.notReady + (s.rawDataLock + 1)
    omega

theorem counted_idle (bus : Bus) (h : Counted s) : Counted (idle bus s) := by
  unfold idle
  split_ifs with hpin hlock
  exacts [h, h.lose hlock, h.up hlock (.refl _)]

theorem counted_guarded (h : Counted s) {attend : BitVec 16 → Raw}
    (hattend : ∀ info, s.rawDataLock ≠ 0 → Counted (attend info)) : Counted (guarded bus s attend) := by
  by_cases hattends : Attends s bus
  · obtain ⟨info, -, heq⟩ := guarded_attends hattends attend
    rw [heq]
    exact hattend info hattends.lock
  · rw [guarded_idle hattends]
    exact counted_idle bus h

theorem counted_readMpdata (bus : Bus) (h : Counted s) : Counted (solomonReadMpdata config bus s) := by
  refine counted_guarded h fun info hlock => ?_
  simp only
  split_ifs
  · have hle := h.lock_le
    have hlost := h.lost
    refine ⟨?_, ?_⟩
    · show s.rawDataLock - 1 ≤ 1
      omega
    · show s.lost + 1 = s.notReady + 1 + (s.rawDataLock - 1)
      omega
  · cases bus.setMptest <;> exact h.up hlock ⟨rfl, rfl, rfl⟩
  · exact h.up hlock (unlocked_readMptest bus _)

theorem counted_readRawdata (bus : Bus) (h : Counted s) : Counted (solomonReadRawdata config bus s) := by
  refine counted_guarded h fun info hlock => ?_
  split
  · exact h.up hlock (.refl _)
  · split <;> exact h.up hlock ⟨rfl, rfl, rfl⟩

theorem unlocked_mpTest (mode : BitVec 32) (count needback : ℤ) (s : Raw) :
    Unlocked s (mpTest mode count needback s) := by
  unfold mpTest
  simp only
  split_ifs <;> exact ⟨rfl, rfl, rfl⟩

theorem unlocked_sslMptest (mode : BitVec 16) (occupied : Bool) (s : Raw) :
    Unlocked s (sslMptest mode occupied s) := by
  unfold sslMptest
  cases occupied <;> split_ifs <;> exact ⟨rfl, rfl, rfl⟩

theorem unlocked_getRawData (copied : Bool) (s : Raw) : Unlocked s (getRawData copied s) := by
  unfold getRawData
  split_ifs
  exacts [.refl s, unlocked_drop s, .refl s]

theorem counted_step (config : SolomonConfig) (s : Raw) (e : Event) (h : Counted s) : Counted (step config s e) := by
  cases e with
  | work bus =>
    rw [step, solomonWork]
    split_ifs
    exacts [counted_readMpdata bus h, counted_readRawdata bus h, h.of_unlocked (unlocked_readPoints bus s)]
  | mpTest mode count needback => exact h.of_unlocked (unlocked_mpTest mode count needback s)
  | sslMptest mode occupied => exact h.of_unlocked (unlocked_sslMptest mode occupied s)
  | touchMode value => exact h.of_unlocked ⟨rfl, rfl, rfl⟩
  | getRawData copied => exact h.of_unlocked (unlocked_getRawData copied s)
  | queueClear => exact h.of_unlocked (unlocked_clear s)
  | initConfig => exact h.of_unlocked ⟨rfl, rfl, rfl⟩

/-- A test was asked for and has not begun. -/
def Awaited (s : Raw) : Prop := s.mptestMode &&& mptestReadyStart = mptestReadyStart

/-- The chip has raised its interrupt, and says that it is ready. -/
def Ready (bus : Bus) : Prop := bus.intPin = false ∧ ∃ info, bus.pointInfo = .ok info ∧ info &&& 0x8000 ≠ 0

theorem started (mode : BitVec 16) : mode &&& ~~~mptestReadyStart &&& mptestReadyStart ≠ mptestReadyStart := by
  rw [BitVec.and_assoc, BitVec.and_comm (~~~_), show mptestReadyStart &&& ~~~mptestReadyStart = 0 by decide]
  simp only [BitVec.ofNat_eq_ofNat, BitVec.and_zero]
  decide

theorem Awaited.runs (h : Awaited s) : mptestStop < s.mptestMode := by
  refine (BitVec.pos_iff_ne_zero _).mpr fun hzero => ?_
  rw [Awaited, hzero] at h
  exact absurd h (by decide)

theorem Awaited.works (h : Awaited s) (bus : Bus) : solomonWork config bus s = solomonReadMpdata config bus s :=
  if_pos h.runs

theorem readMpdata_lost (hpin : bus.intPin = false) (hlock : s.rawDataLock = 0) :
    solomonReadMpdata config bus s = up { s with lost := s.lost + 1 } := by
  rw [readMpdata_idle (fun h => h.lock hlock), idle, if_neg (by rw [hpin]; exact Bool.false_ne_true), if_pos hlock]

/-- The test begins, whether the chip has taken its mode or not. -/
theorem readMpdata_ready (hready : Ready bus) (hwaits : Awaited s) (hlock : s.rawDataLock ≠ 0) :
    solomonReadMpdata config bus s = up (solomonSetMptest (s.mptestMode &&& ~~~mptestReadyStart) (down s)) := by
  obtain ⟨hpin, info, hinfo, hset⟩ := hready
  have hattends : Attends s bus := ⟨hpin, hlock, by rw [hinfo]; rfl⟩
  obtain ⟨info', hinfo', heq⟩ := guarded_attends hattends _
  obtain rfl : info = info' := Except.ok.inj (hinfo.symm.trans hinfo')
  refine heq.trans ?_
  rw [if_pos (show s.mptestMode &&& mptestReadyStart = mptestReadyStart from hwaits), if_neg hset]
  cases bus.setMptest with
  | error e => rfl
  | ok u =>
    show up { solomonSetMptest _ (down s) with mptestMode := s.mptestMode &&& ~~~mptestReadyStart &&& _ } = _
    rw [BitVec.and_assoc, BitVec.and_self]
    rfl

theorem mptestMode_drop (s : Raw) : (drop s).mptestMode = s.mptestMode := by
  unfold drop
  split <;> rfl

theorem mptestMode_byQueue (config : SolomonConfig) (chunks : Stream' (Except Errno (ℕ → UInt8))) (s : Raw) :
    (solomonGetRawdataByQueue config chunks s).2.mptestMode = s.mptestMode := by
  unfold solomonGetRawdataByQueue
  split <;> rfl

/-- A test goes on in its mode or stops. -/
theorem mptestMode_readMptest (bus : Bus) (s : Raw) : (solomonReadMptest config bus s).mptestMode = s.mptestMode ∨
    (solomonReadMptest config bus s).mptestMode = mptestStop := by
  rw [← mptestMode_byQueue config bus.chunks s]
  unfold solomonReadMptest countDown
  simp only
  split_ifs
  exacts [.inl (mptestMode_drop _), .inl (mptestMode_drop _), .inr rfl, .inl rfl, .inl rfl, .inl rfl]

theorem mptestMode_idle (bus : Bus) (s : Raw) : (idle bus s).mptestMode = s.mptestMode := by
  unfold idle
  split_ifs <;> rfl

theorem mptestMode_readRawdata (bus : Bus) (s : Raw) :
    (solomonReadRawdata config bus s).mptestMode = s.mptestMode := by
  by_cases hattends : Attends s bus
  · obtain ⟨info, -, heq⟩ := guarded_attends hattends _
    refine (congrArg Raw.mptestMode heq).trans ?_
    split
    · rfl
    · split <;> rfl
  · rw [readRawdata_idle hattends, mptestMode_idle]

theorem mptestMode_readPoints (bus : Bus) (s : Raw) : (solomonReadPoints config bus s).mptestMode = s.mptestMode := by
  unfold solomonReadPoints
  split_ifs
  · exact mptestMode_byQueue config bus.chunks s
  · rfl

theorem mptestMode_readMpdata (bus : Bus) (h : ¬ Awaited s) :
    (solomonReadMpdata config bus s).mptestMode = s.mptestMode ∨
      (solomonReadMpdata config bus s).mptestMode = mptestStop := by
  by_cases hattends : Attends s bus
  · obtain ⟨info, -, heq⟩ := guarded_attends hattends _
    rw [show solomonReadMpdata config bus s = _ from heq,
      if_neg (show ¬ s.mptestMode &&& mptestReadyStart = mptestReadyStart from h)]
    exact mptestMode_readMptest bus (down s)
  · exact .inl (by rw [readMpdata_idle hattends, mptestMode_idle])

/-- Only a command asks for a test. -/
theorem not_awaited_work (bus : Bus) (h : ¬ Awaited s) : ¬ Awaited (solomonWork config bus s) := by
  have hstop {t : Raw} (ht : t.mptestMode = s.mptestMode ∨ t.mptestMode = mptestStop) : ¬ Awaited t := by
    obtain ht | ht := ht
    · rwa [Awaited, ht]
    · rw [Awaited, ht]
      decide
  rw [solomonWork]
  split_ifs
  exacts [hstop (mptestMode_readMpdata bus h), hstop (.inl (mptestMode_readRawdata bus s)),
    hstop (.inl (mptestMode_readPoints bus s))]

/-- In every run the semaphore is a mutex, and the works that found it taken are as many as those that left
    it taken, but for the last of these. A test begins at a work that finds the chip ready unless the semaphore
    is taken there, and at the later of two such works that come directly in succession in any case. -/
theorem handshake (config : SolomonConfig) (rawData : ℕ → Frame) (es : List Event) :
    Always (step config) (fun s => s.rawDataLock ≤ 1 ∧ s.lost + 1 = s.notReady + s.rawDataLock ∧
      (Awaited s → ∀ bus, Ready bus → (Awaited (solomonWork config bus s) ↔ s.rawDataLock = 0) ∧
        ∀ bus', Ready bus' → ¬ Awaited (solomonWork config bus' (solomonWork config bus s)))) (start rawData) es := by
  have hstart : Counted (start rawData) := ⟨le_rfl, rfl⟩
  refine (always_of_inv (counted_step config) hstart es).mono fun s hs => ⟨hs.lock_le, hs.lost, ?_⟩
  intro hwaits bus hready
  have hbegin {t : Raw} {b : Bus} (ht : Awaited t) (hb : Ready b) (hlock : t.rawDataLock ≠ 0) :
      ¬ Awaited (solomonWork config b t) := by
    rw [ht.works, readMpdata_ready hb ht hlock]
    exact started t.mptestMode
  have hlose (hlock : s.rawDataLock = 0) : solomonWork config bus s = up { s with lost := s.lost + 1 } := by
    rw [hwaits.works, readMpdata_lost hready.1 hlock]
  refine ⟨⟨fun h => ?_, fun hlock => ?_⟩, fun bus' hready' => ?_⟩
  · by_contra hlock
    exact hbegin hwaits hready hlock h
  · rw [hlose hlock]
    exact hwaits
  · by_cases hlock : s.rawDataLock = 0
    · rw [hlose hlock]
      have htaken : Awaited (up { s with lost := s.lost + 1 }) := hwaits
      exact hbegin htaken hready' (Nat.succ_ne_zero _)
    · exact not_awaited_work bus' (hbegin hwaits hready hlock)

end Semaphore

end GeminiLinux.RawWork
