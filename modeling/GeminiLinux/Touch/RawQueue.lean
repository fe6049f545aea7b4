import GeminiLinux.Lib.Ring
import GeminiLinux.Lib.Runs

/-! The raw data queue of the vendor's touch driver: the interrupt's worker puts frames in, an ioctl takes
    them out, and nothing locks the two against each other. Each works on the slot that it was given a
    pointer to, and moves its own index when it is done.

        worker:  get_rear_queue_buff ── write … ── put_queue
        ioctl:   get_front_queue_buff ── copy_to_user ── get_queue
        ioctl:   QUEUE_CLEAR

    The two alone make a queue of ten frames. A clear is another writer of both indices: it has to come
    when neither of the two is at work. -/

namespace GeminiLinux.Solomon
open Rings Runs

def solomonMaxRawdataQueue : ℕ := 11

abbrev Frame := List UInt8

/-- `struct solomon_data`, as far as the queue goes. -/
structure SolomonData where
  queueFront : ℕ
  queueRear : ℕ
  rawData : ℕ → Frame

/-- The slot to write into. -/
def getRearQueueBuff (ftdata : SolomonData) : Option ℕ :=
  if (ftdata.queueRear + 1) % solomonMaxRawdataQueue = ftdata.queueFront then none
  else some ((ftdata.queueRear + 1) % solomonMaxRawdataQueue)

def putQueue (ftdata : SolomonData) : SolomonData :=
  if (ftdata.queueRear + 1) % solomonMaxRawdataQueue = ftdata.queueFront then ftdata
  else { ftdata with queueRear := (ftdata.queueRear + 1) % solomonMaxRawdataQueue }

/-- The slot to read from. -/
def getFrontQueueBuff (ftdata : SolomonData) : Option ℕ :=
  if ftdata.queueFront = ftdata.queueRear then none
  else some ((ftdata.queueFront + 1) % solomonMaxRawdataQueue)

def getQueue (ftdata : SolomonData) : SolomonData :=
  if ftdata.queueFront = ftdata.queueRear then ftdata
  else { ftdata with queueFront := (ftdata.queueFront + 1) % solomonMaxRawdataQueue }

def clearQueue (ftdata : SolomonData) : SolomonData := { ftdata with queueFront := 0, queueRear := 0 }

/-! ### Two that work on it -/

/-- Where the ioctl is: it may have its slot, and what it has copied of it. -/
inductive Reader where
  | idle
  | holding (slot : ℕ)
  | copied (frame : Frame)

/-- The queue, the slot of a worker that is between its two calls, the ioctl, and, since the last clear, the
    frames that were published and those that were taken or skipped. -/
structure World where
  ftdata : SolomonData
  writer : Option ℕ
  reader : Reader
  puts : List Frame
  gots : List Frame

/-- The steps of the worker, which writes as often as it reads from the bus, may give up, and skips frames at
    the beginning of a test; those of the ioctl, which may fail to copy; and the clear. -/
inductive Event where
  | reserve
  | write (frame : Frame)
  | publish
  | abandon
  | skip
  | peek
  | copy
  | take
  | giveUp
  | clear

def step (w : World) : Event → World
  | .reserve =>
    match w.writer with
    | none => { w with writer := getRearQueueBuff w.ftdata }
    | some _ => w
  | .write frame =>
    match w.writer with
    | none => w
    | some slot => { w with ftdata.rawData := Function.update w.ftdata.rawData slot frame }
  | .publish =>
    match w.writer with
    | none => w
    | some slot => { w with ftdata := putQueue w.ftdata, writer := none, puts := w.puts ++ [w.ftdata.rawData slot] }
  | .abandon => { w with writer := none }
  | .skip =>
    match getFrontQueueBuff w.ftdata with
    | none => w
    | some slot => { w with ftdata := getQueue w.ftdata, gots := w.gots ++ [w.ftdata.rawData slot] }
  | .peek =>
    match w.reader, getFrontQueueBuff w.ftdata with
    | .idle, some slot => { w with reader := .holding slot }
    | _, _ => w
  | .copy =>
    match w.reader with
    | .holding slot => { w with reader := .copied (w.ftdata.rawData slot) }
    | _ => w
  | .take =>
    match w.reader with
    | .copied frame => { w with ftdata := getQueue w.ftdata, reader := .idle, gots := w.gots ++ [frame] }
    | _ => w
  | .giveUp => { w with reader := .idle }
  | .clear => { w with ftdata := clearQueue w.ftdata, puts := [], gots := [] }

/-- Behind the driver's start. -/
def World.init (rawData : ℕ → Frame) : World := ⟨⟨0, 0, rawData⟩, none, .idle, [], []⟩

/-! ### The queue in it -/

/-- The slots and the two indices. -/
def SolomonData.ring (ftdata : SolomonData) : RingBuffer Frame := ⟨ftdata.queueFront, ftdata.queueRear, ftdata.rawData⟩

/-- The frames that wait. -/
def World.waiting (w : World) : List Frame := queue solomonMaxRawdataQueue w.ftdata.ring

theorem getRearQueueBuff_eq_some {ftdata : SolomonData} {slot : ℕ} (h : getRearQueueBuff ftdata = some slot) :
    ¬ Full solomonMaxRawdataQueue ftdata.ring ∧ slot = next solomonMaxRawdataQueue ftdata.queueRear := by
  rw [getRearQueueBuff] at h
  split_ifs at h with hfull
  exact ⟨hfull, (Option.some.inj h).symm⟩

theorem getFrontQueueBuff_eq_some {ftdata : SolomonData} {slot : ℕ} (h : getFrontQueueBuff ftdata = some slot) :
    ¬ Rings.Empty ftdata.ring ∧ slot = next solomonMaxRawdataQueue ftdata.queueFront := by
  rw [getFrontQueueBuff] at h
  split_ifs at h with hempty
  exact ⟨hempty, (Option.some.inj h).symm⟩

theorem putQueue_of_not_full {ftdata : SolomonData} (h : ¬ Full solomonMaxRawdataQueue ftdata.ring) :
    putQueue ftdata = { ftdata with queueRear := next solomonMaxRawdataQueue ftdata.queueRear } := if_neg h

theorem getQueue_of_not_empty {ftdata : SolomonData} (h : ¬ Rings.Empty ftdata.ring) :
    getQueue ftdata = { ftdata with queueFront := next solomonMaxRawdataQueue ftdata.queueFront } := if_neg h

/-- A worker has the slot behind the newest frame, an ioctl that of the oldest one or its contents, and no
    frame is lost, doubled or out of order. -/
structure Orderly (w : World) : Prop where
  valid : Valid solomonMaxRawdataQueue w.ftdata.ring
  writer : ∀ slot, w.writer = some slot →
    ¬ Full solomonMaxRawdataQueue w.ftdata.ring ∧ slot = next solomonMaxRawdataQueue w.ftdata.queueRear
  holding : ∀ slot, w.reader = .holding slot →
    ¬ Rings.Empty w.ftdata.ring ∧ slot = next solomonMaxRawdataQueue w.ftdata.queueFront
  copied : ∀ frame, w.reader = .copied frame →
    ¬ Rings.Empty w.ftdata.ring ∧ frame = w.ftdata.rawData (next solomonMaxRawdataQueue w.ftdata.queueFront)
  fifo : w.gots ++ w.waiting = w.puts

/-- A clear finds neither of the two at work, and a skip no ioctl. -/
def Undisturbed (w : World) : Event → Prop
  | .clear => w.writer = none ∧ w.reader = .idle
  | .skip => w.reader = .idle
  | _ => True

theorem orderly_init (rawData : ℕ → Frame) : Orderly (World.init rawData) where
  valid := ⟨Nat.zero_lt_succ 10, Nat.zero_lt_succ 10⟩
  writer := nofun
  holding := nofun
  copied := nofun
  fifo := queue_of_empty ⟨Nat.zero_lt_succ 10, Nat.zero_lt_succ 10⟩ rfl

/-- A frame goes from the head of the queue to those that were taken. -/
theorem Orderly.pop {ftdata : SolomonData} {writer : Option ℕ} {reader : Reader} {puts gots : List Frame}
    (h : Orderly ⟨ftdata, writer, reader, puts, gots⟩) (hempty : ¬ Rings.Empty ftdata.ring) :
    Orderly ⟨getQueue ftdata, writer, .idle, puts,
      gots ++ [ftdata.rawData (next solomonMaxRawdataQueue ftdata.queueFront)]⟩ := by
  obtain ⟨hvalid, hwriter, -, -, hfifo⟩ := h
  rw [getQueue_of_not_empty hempty]
  refine ⟨hvalid.get, fun slot hslot => ?_, nofun, nofun, ?_⟩
  · exact ⟨not_full_get hvalid hempty, (hwriter slot hslot).2⟩
  · rw [World.waiting, queue_get hvalid hempty] at hfifo
    rw [List.append_assoc]
    exact hfifo

theorem orderly_step (w : World) (e : Event) (h : Orderly w) (he : Undisturbed w e) : Orderly (step w e) := by
  obtain ⟨ftdata, writer, reader, puts, gots⟩ := w
  have horderly := h
  obtain ⟨hvalid, hwriter, hholding, hcopied, hfifo⟩ := h
  cases e with
  | reserve =>
    cases writer with
    | some slot => exact horderly
    | none => exact ⟨hvalid, fun slot hslot => getRearQueueBuff_eq_some hslot, hholding, hcopied, hfifo⟩
  | write frame =>
    cases writer with
    | none => exact horderly
    | some slot =>
      obtain ⟨hfull, rfl⟩ : ¬ Full solomonMaxRawdataQueue ftdata.ring ∧
        slot = next solomonMaxRawdataQueue ftdata.queueRear := hwriter slot rfl
      refine ⟨hvalid.fill frame, hwriter, hholding, fun f hf => ?_, ?_⟩
      · obtain ⟨hempty, rfl⟩ := hcopied f hf
        exact ⟨hempty, (Function.update_of_ne (front_slot_ne hvalid hempty) _ _).symm⟩
      · exact (congrArg (gots ++ ·) (queue_fill hvalid frame)).trans hfifo
  | publish =>
    cases writer with
    | none => exact horderly
    | some slot =>
      obtain ⟨hfull, rfl⟩ : ¬ Full solomonMaxRawdataQueue ftdata.ring ∧
        slot = next solomonMaxRawdataQueue ftdata.queueRear := hwriter slot rfl
      show Orderly ⟨putQueue ftdata, none, reader, _, gots⟩
      rw [putQueue_of_not_full hfull]
      refine ⟨hvalid.put, nofun, fun slot hslot => ?_, fun f hf => ?_, ?_⟩
      · exact ⟨not_empty_put hvalid hfull, (hholding slot hslot).2⟩
      · exact ⟨not_empty_put hvalid hfull, (hcopied f hf).2⟩
      · show gots ++ queue _ (put _ ftdata.ring) = puts ++ _
        rw [queue_put hvalid hfull, ← List.append_assoc]
        exact congrArg (· ++ _) hfifo
  | abandon => exact ⟨hvalid, nofun, hholding, hcopied, hfifo⟩
  | skip =>
    cases (he : reader = .idle)
    show Orderly (match getFrontQueueBuff ftdata with | none => _ | some slot => _)
    cases hbuff : getFrontQueueBuff ftdata with
    | none => exact horderly
    | some slot =>
      obtain ⟨hempty, rfl⟩ := getFrontQueueBuff_eq_some hbuff
      exact horderly.pop hempty
  | peek =>
    cases reader with
    | idle =>
      show Orderly (match Reader.idle, getFrontQueueBuff ftdata with | .idle, some slot => _ | _, _ => _)
      cases hbuff : getFrontQueueBuff ftdata with
      | none => exact horderly
      | some slot =>
        refine ⟨hvalid, hwriter, fun slot' hslot => ?_, nofun, hfifo⟩
        cases hslot
        exact getFrontQueueBuff_eq_some hbuff
    | holding slot => exact horderly
    | copied frame => exact horderly
  | copy =>
    cases reader with
    | idle => exact horderly
    | holding slot =>
      obtain ⟨hempty, rfl⟩ : ¬ Rings.Empty ftdata.ring ∧
        slot = next solomonMaxRawdataQueue ftdata.queueFront := hholding slot rfl
      refine ⟨hvalid, hwriter, nofun, fun f hf => ?_, hfifo⟩
      cases hf
      exact ⟨hempty, rfl⟩
    | copied frame => exact horderly
  | take =>
    cases reader with
    | idle => exact horderly
    | holding slot => exact horderly
    | copied frame =>
      obtain ⟨hempty, rfl⟩ : ¬ Rings.Empty ftdata.ring ∧
        frame = ftdata.rawData (next solomonMaxRawdataQueue ftdata.queueFront) := hcopied frame rfl
      exact horderly.pop hempty
  | giveUp => exact ⟨hvalid, hwriter, nofun, nofun, hfifo⟩
  | clear =>
    obtain ⟨hw, hr⟩ := he
    cases (hw : writer = none)
    cases (hr : reader = .idle)
    exact orderly_init ftdata.rawData

/-- Over every order of the two's steps, with the clears and skips between them: what was taken and what
    waits is what was published, in its order; ten frames wait at most; and what the ioctl copied, at
    whatever distance from its taking it, is the oldest of them. -/
theorem fifo (rawData : ℕ → Frame) (es : List Event) (h : Steps step Undisturbed (World.init rawData) es) :
    Always step (fun w => w.gots ++ w.waiting = w.puts ∧ w.waiting.length ≤ 10 ∧
      ∀ frame, w.reader = .copied frame → w.waiting.head? = some frame) (World.init rawData) es := by
  refine always_of_steps (fun w hw => ⟨hw.fifo, ?_, fun frame hframe => ?_⟩) orderly_step (orderly_init rawData) h
  · have hcount := count_lt hw.valid
    rw [World.waiting, length_queue]
    exact Nat.le_of_lt_succ hcount
  · obtain ⟨hempty, rfl⟩ := hw.copied frame hframe
    rw [World.waiting, queue_get hw.valid hempty]
    rfl

/-- A frame that is published while the ioctl copies the one before it. -/
theorem fifo_overtaken : Always step (fun w => w.gots ++ w.waiting = w.puts ∧ w.waiting.length ≤ 10 ∧
    ∀ frame, w.reader = .copied frame → w.waiting.head? = some frame) (World.init fun _ => [])
    [.reserve, .write [1], .publish, .peek, .reserve, .copy, .write [2], .publish, .take] :=
  fifo _ _ ⟨trivial, trivial, trivial, trivial, trivial, trivial, trivial, trivial, trivial, trivial⟩

/-! ### Without the rule -/

/-- What a clear between the worker's two calls makes of its frame: the ioctl is given the first slot's, so
    the frame is lost unless it was written there. -/
theorem publish_clear (w : World) {slot : ℕ} (hw : w.writer = some slot) :
    (step (step w .clear) .publish).waiting = [w.ftdata.rawData 1] := by
  obtain ⟨ftdata, writer, reader, puts, gots⟩ := w
  cases (hw : writer = some slot)
  have hvalid : Valid solomonMaxRawdataQueue (clearQueue ftdata).ring := ⟨Nat.zero_lt_succ 10, Nat.zero_lt_succ 10⟩
  have hfull : ¬ Full solomonMaxRawdataQueue (clearQueue ftdata).ring := fun h => nomatch h
  show queue solomonMaxRawdataQueue (putQueue (clearQueue ftdata)).ring = _
  rw [putQueue_of_not_full hfull]
  show queue solomonMaxRawdataQueue (put solomonMaxRawdataQueue (clearQueue ftdata).ring) = _
  rw [queue_put hvalid hfull, queue_of_empty hvalid rfl]
  rfl

/-- The slots that the two were given and the indices are those of the array. -/
structure Bounded (w : World) : Prop where
  front : w.ftdata.queueFront < solomonMaxRawdataQueue
  rear : w.ftdata.queueRear < solomonMaxRawdataQueue
  writer : ∀ slot ∈ w.writer, slot < solomonMaxRawdataQueue
  holding : ∀ slot, w.reader = .holding slot → slot < solomonMaxRawdataQueue

theorem bounded_step (w : World) (e : Event) (h : Bounded w) : Bounded (step w e) := by
  have hnext (i : ℕ) : (i + 1) % solomonMaxRawdataQueue < solomonMaxRawdataQueue := Nat.mod_lt _ (Nat.zero_lt_succ 10)
  obtain ⟨ftdata, writer, reader, puts, gots⟩ := w
  have hbounded := h
  obtain ⟨hfront, hrear, hwriter, hholding⟩ := h
  have hput : (putQueue ftdata).queueFront < solomonMaxRawdataQueue ∧
      (putQueue ftdata).queueRear < solomonMaxRawdataQueue := by
    rw [putQueue]
    split_ifs
    exacts [⟨hfront, hrear⟩, ⟨hfront, hnext _⟩]
  have hget : (getQueue ftdata).queueFront < solomonMaxRawdataQueue ∧
      (getQueue ftdata).queueRear < solomonMaxRawdataQueue := by
    rw [getQueue]
    split_ifs
    exacts [⟨hfront, hrear⟩, ⟨hnext _, hrear⟩]
  cases e with
  | reserve =>
    cases writer with
    | some slot => exact hbounded
    | none =>
      refine ⟨hfront, hrear, fun slot hslot => ?_, hholding⟩
      rw [(getRearQueueBuff_eq_some hslot).2]
      exact hnext _
  | write frame =>
    cases writer with
    | none => exact hbounded
    | some slot => exact ⟨hfront, hrear, hwriter, hholding⟩
  | publish =>
    cases writer with
    | none => exact hbounded
    | some slot => exact ⟨hput.1, hput.2, nofun, hholding⟩
  | abandon => exact ⟨hfront, hrear, nofun, hholding⟩
  | skip =>
    show Bounded (match getFrontQueueBuff ftdata with | none => _ | some slot => _)
    cases getFrontQueueBuff ftdata with
    | none => exact hbounded
    | some slot => exact ⟨hget.1, hget.2, hwriter, hholding⟩
  | peek =>
    cases reader with
    | idle =>
      show Bounded (match Reader.idle, getFrontQueueBuff ftdata with | .idle, some slot => _ | _, _ => _)
      cases hbuff : getFrontQueueBuff ftdata with
      | none => exact hbounded
      | some slot =>
        refine ⟨hfront, hrear, hwriter, fun slot' hslot => ?_⟩
        cases hslot
        rw [(getFrontQueueBuff_eq_some hbuff).2]
        exact hnext _
    | holding slot => exact hbounded
    | copied frame => exact hbounded
  | copy =>
    cases reader with
    | idle => exact hbounded
    | holding slot => exact ⟨hfront, hrear, hwriter, nofun⟩
    | copied frame => exact hbounded
  | take =>
    cases reader with
    | idle => exact hbounded
    | holding slot => exact hbounded
    | copied frame => exact ⟨hget.1, hget.2, hwriter, nofun⟩
  | giveUp => exact ⟨hfront, hrear, hwriter, nofun⟩
  | clear => exact ⟨Nat.zero_lt_succ 10, Nat.zero_lt_succ 10, hwriter, hholding⟩

/-- Whoever disturbs whom, neither of the two is ever outside the array. -/
theorem bounded (rawData : ℕ → Frame) (es : List Event) : Always step Bounded (World.init rawData) es := by
  have hinit : Bounded (World.init rawData) := ⟨Nat.zero_lt_succ 10, Nat.zero_lt_succ 10, nofun, nofun⟩
  exact always_of_inv bounded_step hinit es

end GeminiLinux.Solomon
