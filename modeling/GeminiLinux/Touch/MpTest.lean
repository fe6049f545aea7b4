import GeminiLinux.Lib.Batches
import GeminiLinux.Touch.RawFrames

/-! A production test and the application that asked for it. The driver skips a frame, and sends a key whenever
    `count` frames have been read since the last one; on the key the application takes that many:

        MP_TEST ──▶ wait until ready ──▶ skip one ──▶ count frames ──▶ key ──▶ count × GET_RAW_DATA ──▶ …

    Nothing tells the application that the queue was full. With `count` below one each frame sends a key. -/

namespace GeminiLinux.RawWork
open Rings Runs
open Solomon (solomonMaxRawdataQueue Frame SolomonData getRearQueueBuff putQueue getFrontQueueBuff getQueue clearQueue
  getRearQueueBuff_eq_some getFrontQueueBuff_eq_some putQueue_of_not_full getQueue_of_not_empty)

/-- A mode of the chip, without one of the driver's two flags. -/
structure TestMode (mode : BitVec 16) : Prop where
  ne_stop : mode ≠ mptestStop
  start : mode &&& mptestReadyStart = 0
  stop : mode &&& mptestReadyStop = 0

namespace TestMode

variable {mode : BitVec 16} (h : TestMode mode)
include h

theorem runs : mptestStop < mode := (BitVec.pos_iff_ne_zero _).mpr h.ne_stop

theorem not_ready_start : mode &&& mptestReadyStart ≠ mptestReadyStart := by
  rw [h.start]
  decide

theorem not_ready_stop : mode &&& mptestReadyStop ≠ mptestReadyStop := by
  rw [h.stop]
  decide

theorem begun : (mode ||| mptestReadyStart) &&& ~~~mptestReadyStart = mode := by
  ext i hi
  have hbit := congrArg (·[i]) h.start
  rw [BitVec.getElem_and] at hbit
  rw [BitVec.getElem_and, BitVec.getElem_or, BitVec.getElem_not]
  grind

end TestMode

theorem awaited_or (mode : BitVec 16) : (mode ||| mptestReadyStart) &&& mptestReadyStart = mptestReadyStart := by
  ext i hi
  rw [BitVec.getElem_and, BitVec.getElem_or]
  cases mode[i] <;> cases mptestReadyStart[i] <;> rfl

section Announced

/-- How many frames a key stands for. -/
def batch (count : ℤ) : ℕ := max 1 count.toNat

variable (config : SolomonConfig) (mode : BitVec 16) (count : ℤ) (keys : ℕ)

/-- The frames that the keys have announced since there were `keys` of them. -/
def announced (s : Raw) : ℕ := (s.keys.count .rawData - keys) * batch count

/-- The application takes what was announced, before the next work comes; and there are no other commands. -/
def Prompt (s : Raw) : Event → Prop
  | .work _ => s.gots.length = announced count keys s
  | .getRawData copied => copied = true ∧ s.gots.length < announced count keys s
  | _ => False

/-- A frame that was announced and was not taken is there. -/
def Served (s : Raw) : Prop :=
  s.gots.length < announced count keys s → (getFrontQueueBuff s.ftdata).isSome

/-- The test, seen as batches through a buffer of ten. -/
structure Tracks (s : Raw) (b : Batches.State) : Prop where
  valid : Valid solomonMaxRawdataQueue s.ftdata.ring
  waiting : Rings.count solomonMaxRawdataQueue s.ftdata.ring = b.waiting
  keys : s.keys.count .rawData = keys + b.batches
  taken : s.gots.length = b.taken
  total : s.mpTotalCount = count
  fresh : s.mpCurCount = count - b.fresh

/-- The test has begun, and its first frame was skipped. -/
structure Underway (s : Raw) : Prop where
  mode : s.mptestMode = mode
  skipped : s.mpSkipCount = 0

/-- The test is asked for, or its first frame is still to be skipped. -/
structure Starting (s : Raw) : Prop where
  mode : s.mptestMode = mode ∨ s.mptestMode = mode ||| mptestReadyStart
  skip : s.mpSkipCount = 1

variable {config mode count keys} {s : Raw} {b : Batches.State}

theorem announced_eq (h : Tracks count keys s b) : announced count keys s = b.batches * batch count := by
  rw [announced, h.keys, Nat.add_sub_cancel_left]

theorem isSome_front_iff (h : Tracks count keys s b) : (getFrontQueueBuff s.ftdata).isSome ↔ 0 < b.waiting := by
  have hempty := empty_iff h.valid
  rw [h.waiting] at hempty
  rw [getFrontQueueBuff, Nat.pos_iff_ne_zero, ne_eq, ← hempty]
  by_cases hring : s.ftdata.queueFront = s.ftdata.queueRear
  · rw [if_pos hring]
    exact ⟨fun h => absurd h Bool.false_ne_true, fun h => absurd hring h⟩
  · rw [if_neg hring]
    exact ⟨fun _ => hring, fun _ => rfl⟩

theorem served_iff (h : Tracks count keys s b) : Served count keys s ↔ Batches.Served (batch count) b := by
  rw [Served, isSome_front_iff h, announced_eq h, h.taken, Batches.Served]

theorem prompt_work_iff (h : Tracks count keys s b) (bus : Bus) :
    Prompt count keys s (.work bus) ↔ Batches.Prompt (batch count) b .make := by
  rw [Prompt, announced_eq h, h.taken, Batches.Prompt]

/-- Two states that are the same but for the semaphore, and what is counted of it. -/
structure Alike (s s' : Raw) : Prop where
  ftdata : s'.ftdata = s.ftdata
  mptestMode : s'.mptestMode = s.mptestMode
  mpTotalCount : s'.mpTotalCount = s.mpTotalCount
  mpCurCount : s'.mpCurCount = s.mpCurCount
  mpSkipCount : s'.mpSkipCount = s.mpSkipCount
  keys : s'.keys = s.keys
  gots : s'.gots = s.gots

theorem Tracks.congr {s' : Raw} (h : Tracks count keys s b) (heq : Alike s s') : Tracks count keys s' b :=
  ⟨heq.ftdata ▸ h.valid, heq.ftdata ▸ h.waiting, heq.keys ▸ h.keys, heq.gots ▸ h.taken, heq.mpTotalCount ▸ h.total,
    heq.mpCurCount ▸ h.fresh⟩

theorem Underway.congr {s' : Raw} (h : Underway mode s) (heq : Alike s s') : Underway mode s' :=
  ⟨heq.mptestMode.trans h.mode, heq.mpSkipCount.trans h.skipped⟩

theorem Starting.congr {s' : Raw} (h : Starting mode s) (heq : Alike s s') : Starting mode s' :=
  ⟨heq.mptestMode.symm ▸ h.mode, heq.mpSkipCount.trans h.skip⟩

theorem Tracks.clear (h : Tracks count keys s b) :
    Tracks count keys (clear s) { b with waiting := 0, taken := 0 } :=
  have hvalid : Valid solomonMaxRawdataQueue (RawWork.clear s).ftdata.ring :=
    ⟨Nat.zero_lt_succ 10, Nat.zero_lt_succ 10⟩
  ⟨hvalid, (empty_iff hvalid).mp rfl, h.keys, rfl, h.total, h.fresh⟩

theorem Tracks.drop (h : Tracks count keys s b) :
    Tracks count keys (drop s) (Batches.step 10 (batch count) b .take) := by
  have hempty := empty_iff h.valid
  rw [h.waiting] at hempty
  unfold RawWork.drop
  rw [Batches.step]
  split
  · next hnone =>
    rw [getFrontQueueBuff] at hnone
    split_ifs at hnone with hring
    rw [if_pos (hempty.mp hring)]
    exact h
  · next slot hslot =>
    have hring := (getFrontQueueBuff_eq_some hslot).1
    have hcount := count_get h.valid hring
    rw [if_neg (fun hzero => hring (hempty.mpr hzero)), getQueue_of_not_empty hring]
    refine ⟨h.valid.get, ?_, h.keys, ?_, h.total, h.fresh⟩
    · rw [h.waiting] at hcount
      exact Nat.eq_sub_of_add_eq hcount
    · show (s.gots ++ [_]).length = b.taken + 1
      rw [List.length_append, h.taken, List.length_singleton]

/-- A frame goes into the queue unless ten wait. -/
theorem Tracks.byQueue (h : Tracks count keys s b) (config : SolomonConfig)
    (chunks : Stream' (Except Errno (ℕ → UInt8))) :
    Tracks count keys (solomonGetRawdataByQueue config chunks s).2
      { b with waiting := if b.waiting < 10 then b.waiting + 1 else b.waiting } := by
  have hcount : Rings.count solomonMaxRawdataQueue s.ftdata.ring < 11 := count_lt h.valid
  have hfull_iff : Full solomonMaxRawdataQueue s.ftdata.ring ↔
      Rings.count solomonMaxRawdataQueue s.ftdata.ring + 1 = 11 := full_iff h.valid
  rw [h.waiting] at hcount hfull_iff
  by_cases hfull : Full solomonMaxRawdataQueue s.ftdata.ring
  · have hten : ¬ b.waiting < 10 := by
      rw [hfull_iff] at hfull
      omega
    rw [byQueue_full hfull, if_neg hten]
    exact h
  · have hroom : b.waiting < 10 := by
      rw [hfull_iff] at hfull
      omega
    rw [byQueue_room hfull, if_pos hroom]
    have hput : (publish (readChunks config.i2cLength 50 config.size 0 chunks).2 s).ftdata = _ :=
      putQueue_of_not_full hfull
    have hwaiting : Rings.count solomonMaxRawdataQueue (put solomonMaxRawdataQueue s.ftdata.ring) = b.waiting + 1 :=
      (count_put h.valid hfull).trans (congrArg (· + 1) h.waiting)
    refine ⟨?_, ?_, h.keys, h.taken, h.total, h.fresh⟩
    · rw [hput]
      exact ⟨h.valid.put.front_lt, h.valid.put.rear_lt⟩
    · rw [hput]
      exact hwaiting

theorem mpSkipCount_byQueue (config : SolomonConfig) (chunks : Stream' (Except Errno (ℕ → UInt8))) (s : Raw) :
    (solomonGetRawdataByQueue config chunks s).2.mpSkipCount = s.mpSkipCount := by
  unfold solomonGetRawdataByQueue
  split <;> rfl

/-- A counted work is a make. -/
theorem Tracks.counted (hmode : TestMode mode) (h : Tracks count keys s b) (hs : Underway mode s)
    (config : SolomonConfig) (bus : Bus) :
    Tracks count keys (solomonReadMptest config bus s) (Batches.step 10 (batch count) b .make) ∧
      Underway mode (solomonReadMptest config bus s) := by
  have hread := h.byQueue config bus.chunks
  have hmode' : (solomonGetRawdataByQueue config bus.chunks s).2.mptestMode = mode :=
    (mptestMode_byQueue config bus.chunks s).trans hs.mode
  have hskip : (solomonGetRawdataByQueue config bus.chunks s).2.mpSkipCount = 0 :=
    (mpSkipCount_byQueue config bus.chunks s).trans hs.skipped
  rw [solomonReadMptest]
  generalize (solomonGetRawdataByQueue config bus.chunks s).2 = t at hread hmode' hskip ⊢
  have hstop : ¬ t.mptestMode &&& mptestReadyStop = mptestReadyStop := by
    rw [hmode']
    exact hmode.not_ready_stop
  have hcur : t.mpCurCount = count - b.fresh := hread.fresh
  have hkey : t.mpCurCount - 1 ≤ 0 ↔ ¬ b.fresh + 1 < batch count := by
    rw [hcur, batch]
    omega
  simp only [hskip, lt_irrefl, if_false, countDown, if_neg hstop, Batches.step]
  by_cases hlast : b.fresh + 1 < batch count
  · rw [if_neg (fun hle => hkey.mp hle hlast), if_pos hlast]
    refine ⟨⟨hread.valid, hread.waiting, hread.keys, hread.taken, hread.total, ?_⟩, hmode', rfl⟩
    show t.mpCurCount - 1 = count - ((b.fresh + 1 : ℕ) : ℤ)
    omega
  · rw [if_pos (hkey.mpr hlast), if_neg hlast]
    refine ⟨⟨hread.valid, hread.waiting, ?_, hread.taken, hread.total, ?_⟩, hmode', rfl⟩
    · show List.count .rawData (t.keys ++ (if 0 < t.mpNeedback then [.back] else []) ++ [.rawData]) =
        keys + (b.batches + 1)
      have hkeys : t.keys.count .rawData = keys + b.batches := hread.keys
      have hback : List.count Key.rawData (if 0 < t.mpNeedback then [.back] else []) = 0 := by
        split_ifs <;> rfl
      rw [List.count_append, List.count_append, hkeys, hback]
      rfl
    · show t.mpTotalCount = count - ((0 : ℕ) : ℤ)
      rw [hread.total]
      omega

theorem settle_last (h : s.mpSkipCount = 1) : settle s = { clear (drop s) with mpSkipCount := 0 } := by
  have hdrop : (drop s).mpSkipCount = 1 := (mpSkipCount_drop s).trans h
  rw [settle, if_pos (by rw [h]; exact Int.one_pos)]
  simp only [if_pos hdrop]
  congr 1
  show (drop s).mpSkipCount - 1 = 0
  rw [hdrop]
  rfl

/-- The first frame is skipped, and the queue cleared behind it. -/
theorem Tracks.skipped (h : Tracks count keys s Batches.start) (hmode : s.mptestMode = mode)
    (hskip : s.mpSkipCount = 1) (config : SolomonConfig) (bus : Bus) :
    Tracks count keys (solomonReadMptest config bus s) Batches.start ∧
      Underway mode (solomonReadMptest config bus s) := by
  have hcleared := (h.byQueue config bus.chunks).drop.clear
  have hmode' := (mptestMode_drop _).trans ((mptestMode_byQueue config bus.chunks s).trans hmode)
  have hsettle := settle_last ((mpSkipCount_byQueue config bus.chunks s).trans hskip)
  rw [show solomonReadMptest config bus s = settle _ from rfl, hsettle]
  exact ⟨⟨hcleared.valid, hcleared.waiting, hcleared.keys, rfl, hcleared.total, hcleared.fresh⟩, hmode', rfl⟩

/-- A test that was asked for, and its batches: none is announced before it is under way. -/
structure Testing (mode : BitVec 16) (count : ℤ) (keys : ℕ) (s : Raw) (b : Batches.State) : Prop where
  tracks : Tracks count keys s b
  phase : Starting mode s ∧ b = Batches.start ∨ Underway mode s

theorem Testing.congr {s' : Raw} (h : Testing mode count keys s b) (heq : Alike s s') :
    Testing mode count keys s' b :=
  ⟨h.tracks.congr heq, h.phase.imp (fun hs => ⟨hs.1.congr heq, hs.2⟩) fun hs => hs.congr heq⟩

theorem work_begun {bus : Bus} (hmode : TestMode mode) (hs : s.mptestMode = mode) (hattends : Attends s bus) :
    solomonWork config bus s = up (solomonReadMptest config bus (down s)) := by
  have hnot : ¬ s.mptestMode &&& mptestReadyStart = mptestReadyStart := by
    rw [hs]
    exact hmode.not_ready_start
  obtain ⟨info, -, heq⟩ := guarded_attends hattends _
  rw [solomonWork, if_pos (hs ▸ hmode.runs)]
  exact heq.trans (if_neg hnot)

/-- A work that does not get as far as a frame changes nothing of the test. -/
theorem work_idle {bus : Bus} (hruns : mptestStop < s.mptestMode) (hattends : ¬ Attends s bus) :
    Alike s (solomonWork config bus s) := by
  rw [solomonWork, if_pos hruns, readMpdata_idle hattends, idle]
  split_ifs <;> exact ⟨rfl, rfl, rfl, rfl, rfl, rfl, rfl⟩

theorem alike_down (s : Raw) : Alike s (down s) := ⟨rfl, rfl, rfl, rfl, rfl, rfl, rfl⟩

theorem alike_up (s : Raw) : Alike s (up s) := ⟨rfl, rfl, rfl, rfl, rfl, rfl, rfl⟩

theorem awaited_of_mode (hs : s.mptestMode = mode ||| mptestReadyStart) : Awaited s := by
  rw [Awaited, hs]
  exact awaited_or mode

theorem Testing.runs (hmode : TestMode mode) (h : Testing mode count keys s b) : mptestStop < s.mptestMode := by
  obtain ⟨⟨hs | hs, -⟩, -⟩ | hs := h.phase
  · exact hs ▸ hmode.runs
  · exact (awaited_of_mode hs).runs
  · exact hs.mode ▸ hmode.runs

/-- The chip is ready for the test or is not yet. -/
theorem Testing.await (h : Testing mode count keys s Batches.start) (hmode : TestMode mode)
    (hs : s.mptestMode = mode ||| mptestReadyStart) (hskip : s.mpSkipCount = 1) {bus : Bus} (hattends : Attends s bus) :
    Testing mode count keys (solomonWork config bus s) Batches.start := by
  have hawaited : Awaited s := awaited_of_mode hs
  obtain ⟨info, hinfo, heq⟩ := guarded_attends hattends _
  rw [hawaited.works]
  by_cases hset : info &&& 0x8000 = 0
  · rw [show solomonReadMpdata config bus s = _ from heq,
      if_pos (show s.mptestMode &&& mptestReadyStart = mptestReadyStart from hawaited), if_pos hset]
    exact h.congr ⟨rfl, rfl, rfl, rfl, rfl, rfl, rfl⟩
  · rw [readMpdata_ready ⟨hattends.intPin, info, hinfo, hset⟩ hawaited hattends.lock, hs, hmode.begun]
    obtain ⟨hvalid, hwaiting, hkeys, htaken, htotal, hfresh⟩ := h.tracks.clear
    exact ⟨⟨hvalid, hwaiting, hkeys, htaken, htotal, hfresh⟩, .inl ⟨⟨.inl rfl, hskip⟩, rfl⟩⟩

/-- A work leaves the batches alone or is a make. -/
theorem testing_work (hmode : TestMode mode) (h : Testing mode count keys s b) (config : SolomonConfig) (bus : Bus) :
    Testing mode count keys (solomonWork config bus s) b ∨
      Testing mode count keys (solomonWork config bus s) (Batches.step 10 (batch count) b .make) := by
  by_cases hattends : Attends s bus
  · obtain ⟨⟨hs | hs, hskip⟩, rfl⟩ | hs := h.phase
    · rw [work_begun hmode hs hattends]
      obtain ⟨htracks, hunderway⟩ := (h.tracks.congr (alike_down s)).skipped hs hskip config bus
      exact .inl ⟨htracks.congr (alike_up _), .inr (hunderway.congr (alike_up _))⟩
    · exact .inl (h.await hmode hs hskip hattends)
    · rw [work_begun hmode hs.mode hattends]
      obtain ⟨htracks, hunderway⟩ :=
        (h.tracks.congr (alike_down s)).counted hmode (hs.congr (alike_down s)) config bus
      exact .inr ⟨htracks.congr (alike_up _), .inr (hunderway.congr (alike_up _))⟩
  · exact .inl (h.congr (work_idle (h.runs hmode) hattends))

/-- What is announced is taken from a test that is under way. -/
theorem Testing.take (hmode : TestMode mode) (h : Testing mode count keys s b) (hs : Underway mode s) :
    getRawData true s = drop s ∧
      Testing mode count keys (drop s) (Batches.step 10 (batch count) b .take) ∧ Underway mode (drop s) := by
  have hunderway : Underway mode (drop s) := ⟨(mptestMode_drop s).trans hs.mode, (mpSkipCount_drop s).trans hs.skipped⟩
  have hget : getRawData true s = drop s := by
    rw [getRawData, if_neg (fun hstop => hmode.ne_stop (hs.mode.symm.trans hstop.2))]
    rfl
  exact ⟨hget, ⟨h.tracks.drop, .inr hunderway⟩, hunderway⟩

theorem Testing.underway (h : Testing mode count keys s b) (hannounced : b.taken < b.batches * batch count) :
    Underway mode s := by
  obtain ⟨-, rfl⟩ | hs := h.phase
  · rw [show Batches.start.batches = 0 from rfl, Nat.zero_mul] at hannounced
    omega
  · exact hs

/-- Each run of the driver is one of its batches. -/
theorem served_of_batches (hmode : TestMode mode) (h : Testing mode count keys s b)
    (hstays : Stays (Batches.step 10 (batch count)) (Batches.Prompt (batch count)) (Batches.Served (batch count)) b) :
    Stays (step config) (Prompt count keys) (Served count keys) s := by
  intro es hes
  induction es generalizing s b with
  | nil => exact (served_iff h.tracks).mpr (hstays [] trivial)
  | cons e es ih =>
    have hserved : Served count keys s := (served_iff h.tracks).mpr (hstays [] trivial)
    obtain ⟨he, hes⟩ := hes
    refine ⟨hserved, ?_⟩
    cases e with
    | work bus =>
      obtain hkept | hmade := testing_work hmode h config bus
      · exact ih hkept hstays hes
      · exact ih hmade (hstays.next ((prompt_work_iff h.tracks bus).mp he)) hes
    | getRawData copied =>
      obtain ⟨rfl, hlt⟩ := he
      rw [announced_eq h.tracks, h.tracks.taken] at hlt
      obtain ⟨hget, htake, -⟩ := h.take hmode (h.underway hlt)
      have hstep : step config s (.getRawData true) = drop s := hget
      rw [hstep] at hes ⊢
      exact ih htake (hstays.next hlt) hes
    | mpTest mode count needback => exact he.elim
    | sslMptest mode occupied => exact he.elim
    | touchMode value => exact he.elim
    | queueClear => exact he.elim
    | initConfig => exact he.elim

/-- A work for which the chip is ready. -/
def ready : Bus := ⟨false, .ok 0x8000, .ok (), false, fun _ => .ok fun _ => 0⟩

/-- Each run of the batches is one of the driver's. -/
theorem batches_of_served (hmode : TestMode mode) (h : Testing mode count keys s b) (hs : Underway mode s)
    (hlock : s.rawDataLock ≠ 0) (hstays : Stays (step config) (Prompt count keys) (Served count keys) s) :
    Stays (Batches.step 10 (batch count)) (Batches.Prompt (batch count)) (Batches.Served (batch count)) b := by
  intro bs hbs
  induction bs generalizing s b with
  | nil => exact (served_iff h.tracks).mp (hstays [] trivial)
  | cons e bs ih =>
    have hserved : Batches.Served (batch count) b := (served_iff h.tracks).mp (hstays [] trivial)
    obtain ⟨he, hbs⟩ := hbs
    refine ⟨hserved, ?_⟩
    cases e with
    | make =>
      have hnext := hstays.next ((prompt_work_iff h.tracks ready).mpr he)
      have hwork : step config s (.work ready) = up (solomonReadMptest config ready (down s)) :=
        work_begun hmode hs.mode ⟨rfl, hlock, rfl⟩
      obtain ⟨htracks, hunderway⟩ :=
        (h.tracks.congr (alike_down s)).counted hmode (hs.congr (alike_down s)) config ready
      rw [hwork] at hnext
      have hunderway' := hunderway.congr (alike_up (solomonReadMptest config ready (down s)))
      exact ih ⟨htracks.congr (alike_up _), .inr hunderway'⟩ hunderway' (Nat.succ_ne_zero _) hnext hbs
    | take =>
      have hlt : s.gots.length < announced count keys s := by
        rw [announced_eq h.tracks, h.tracks.taken]
        exact he
      have hprompt : Prompt count keys s (.getRawData true) := ⟨rfl, hlt⟩
      have hnext := hstays.next hprompt
      obtain ⟨hget, htake, hunderway⟩ := h.take hmode hs
      have hstep : step config s (.getRawData true) = drop s := hget
      rw [hstep] at hnext
      exact ih htake hunderway ((unlocked_drop s).lock ▸ hlock) hnext hbs

/-- Two works that the chip is ready for, and the test is under way. -/
theorem batches_of_asked (hmode : TestMode mode) (h : Testing mode count keys s Batches.start)
    (hs : s.mptestMode = mode ||| mptestReadyStart) (hskip : s.mpSkipCount = 1) (hlock : s.rawDataLock ≠ 0)
    (hstays : Stays (step config) (Prompt count keys) (Served count keys) s) :
    Stays (Batches.step 10 (batch count)) (Batches.Prompt (batch count)) (Batches.Served (batch count))
      Batches.start := by
  have hprompt : Batches.Prompt (batch count) Batches.start .make := (Nat.zero_mul _).symm
  have hawaited : Awaited s := awaited_of_mode hs
  let t := up (solomonSetMptest mode (down s))
  have hbegin : step config s (.work ready) = t := by
    show solomonWork config ready s = t
    rw [hawaited.works, readMpdata_ready ⟨rfl, 0x8000, rfl, by decide⟩ hawaited hlock, hs, hmode.begun]
  obtain ⟨hvalid, hwaiting, hkeys, htaken, htotal, hfresh⟩ := h.tracks.clear
  have ht : Tracks count keys t Batches.start := ⟨hvalid, hwaiting, hkeys, htaken, htotal, hfresh⟩
  have hskipped : step config t (.work ready) = up (solomonReadMptest config ready (down t)) :=
    work_begun hmode rfl ⟨rfl, Nat.succ_ne_zero _, rfl⟩
  have hstays' := hstays.next ((prompt_work_iff h.tracks ready).mpr hprompt)
  rw [hbegin] at hstays'
  have hstays'' := hstays'.next ((prompt_work_iff ht ready).mpr hprompt)
  rw [hskipped] at hstays''
  obtain ⟨htracks, hunderway⟩ :=
    (ht.congr (alike_down t)).skipped (show (down t).mptestMode = mode from rfl) hskip config ready
  have hunderway' := hunderway.congr (alike_up (solomonReadMptest config ready (down t)))
  exact batches_of_served hmode ⟨htracks.congr (alike_up _), .inr hunderway'⟩ hunderway' (Nat.succ_ne_zero _) hstays''

/-- Whatever came before: an application that takes the frames of each key at once finds every one of them, in all
    runs with all buses, exactly if it has asked for a key at every tenth frame or more often. -/
theorem announced_iff (config : SolomonConfig) (s : Raw) (mode : BitVec 32) (hmode : TestMode (mode.setWidth 16))
    (count needback : ℤ) : Stays (step config) (Prompt count (s.keys.count .rawData))
      (Served count (s.keys.count .rawData)) (mpTest mode count needback s) ↔ count ≤ 10 := by
  have hne : mode ≠ 0 := by
    rintro rfl
    exact hmode.ne_stop rfl
  have hfits : batch count ≤ 10 ↔ count ≤ 10 := by
    rw [batch]
    omega
  have hbatch : 0 < batch count := by
    rw [batch]
    omega
  rw [← hfits, ← Batches.stays_served_iff hbatch, mpTest, if_neg hne]
  generalize hasked : clear _ = asked
  have hmode' : asked.mptestMode = mode.setWidth 16 ||| mptestReadyStart := hasked ▸ rfl
  have hskip : asked.mpSkipCount = 1 := hasked ▸ rfl
  have htracks : Tracks count (s.keys.count .rawData) asked Batches.start := by
    have hvalid : Valid solomonMaxRawdataQueue asked.ftdata.ring := hasked ▸ ⟨Nat.zero_lt_succ 10, Nat.zero_lt_succ 10⟩
    have hempty : Rings.Empty asked.ftdata.ring := hasked ▸ rfl
    have hfresh : asked.mpCurCount = count - ((0 : ℕ) : ℤ) := hasked ▸ (sub_zero count).symm
    exact ⟨hvalid, (empty_iff hvalid).mp hempty, hasked ▸ rfl, hasked ▸ rfl, hasked ▸ rfl, hfresh⟩
  have htesting : Testing (mode.setWidth 16) count (s.keys.count .rawData) asked Batches.start :=
    ⟨htracks, .inl ⟨⟨.inr hmode', hskip⟩, rfl⟩⟩
  refine ⟨fun hstays => ?_, served_of_batches hmode htesting⟩
  by_cases hlock : asked.rawDataLock = 0
  · -- The work of an earlier test has left without giving the semaphore back: the next one only does that.
    let freed := up { asked with lost := asked.lost + 1 }
    have hlost : step config asked (.work ready) = freed := by
      show solomonWork config ready asked = freed
      rw [(awaited_of_mode hmode').works, readMpdata_lost rfl hlock]
    have hnext := hstays.next ((prompt_work_iff htracks ready).mpr (Nat.zero_mul _).symm)
    rw [hlost] at hnext
    have hfreed : Testing (mode.setWidth 16) count (s.keys.count .rawData) freed Batches.start :=
      htesting.congr ⟨rfl, rfl, rfl, rfl, rfl, rfl, rfl⟩
    exact batches_of_asked hmode hfreed hmode' hskip (Nat.succ_ne_zero _) hnext
  · exact batches_of_asked hmode htesting hmode' hskip hlock hstays

/-- A test in mode 1 whose application is sent a key at every fifth frame. -/
theorem announced_iff_five : Stays (step twoChunks) (Prompt 5 0) (Served 5 0)
    (mpTest 1 5 0 (start fun _ => List.replicate slotSize 0)) :=
  (announced_iff twoChunks (start fun _ => List.replicate slotSize 0) 1 ⟨by decide, by decide, by decide⟩ 5 0).mpr
    (by decide)

end Announced

end GeminiLinux.RawWork
