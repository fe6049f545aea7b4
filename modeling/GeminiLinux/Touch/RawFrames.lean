import GeminiLinux.Touch.RawWork

/-! What the raw data works hand on. A frame that the application takes should be one that a single work has read.
    The slots are used again, so of a frame that was read in part the rest is an older one's:

        slot:   │ chunk │ chunk │ chunk │ … old bytes … │ behind the frame │
                 └──── what the work has read ────┘

    The loop reads at most `max + 1` chunks. Only the work of a raw data mode throws away a frame in which a read
    has failed; a test's and an aging mode's go into the queue as they are. -/

namespace GeminiLinux.RawWork
open Rings Runs
open Solomon (solomonMaxRawdataQueue Frame SolomonData getRearQueueBuff putQueue getFrontQueueBuff getQueue clearQueue
  getRearQueueBuff_eq_some getFrontQueueBuff_eq_some putQueue_of_not_full getQueue_of_not_empty)

/-! ### The loop -/

section Loop

variable {i2cLength : ℕ}

/-- None of the reads that the loop makes of a frame of `sz` bytes fails. -/
def AllRead (i2cLength max sz : ℕ) (chunks : Stream' (Except Errno (ℕ → UInt8))) : Prop :=
  ∀ i ≤ max, i * i2cLength < sz → (chunks.get i).isOk

theorem allRead_nil (max : ℕ) (chunks : Stream' (Except Errno (ℕ → UInt8))) : AllRead i2cLength max 0 chunks :=
  fun _ _ hlt => absurd hlt (Nat.not_lt_zero _)

theorem allRead_zero {sz : ℕ} {chunks : Stream' (Except Errno (ℕ → UInt8))} (hsz : sz ≠ 0) :
    AllRead i2cLength 0 sz chunks ↔ chunks.head.isOk := by
  refine ⟨fun h => h 0 le_rfl (by omega), fun h i hi _ => ?_⟩
  rw [Nat.le_zero.mp hi]
  exact h

theorem allRead_succ {max sz : ℕ} {chunks : Stream' (Except Errno (ℕ → UInt8))} (hsz : sz ≠ 0) :
    AllRead i2cLength (max + 1) sz chunks ↔
      chunks.head.isOk ∧ AllRead i2cLength max (sz - i2cLength) chunks.tail := by
  constructor
  · intro h
    refine ⟨h 0 (Nat.zero_le _) (by omega), fun i hi hlt => h (i + 1) (Nat.succ_le_succ hi) ?_⟩
    rw [Nat.succ_mul]
    omega
  · rintro ⟨hhead, htail⟩ i hi hlt
    cases i with
    | zero => exact hhead
    | succ i =>
      rw [Nat.succ_mul] at hlt
      exact htail i (Nat.le_of_succ_le_succ hi) (by omega)

theorem readChunks_zero (max : ℕ) (err : ℤ) (chunks : Stream' (Except Errno (ℕ → UInt8))) :
    readChunks i2cLength max 0 err chunks = (.done err, []) := by
  cases max <;> rw [readChunks, if_pos rfl]

theorem readChunks_error {max sz : ℕ} {err : ℤ} {chunks : Stream' (Except Errno (ℕ → UInt8))} {e : Errno}
    (hsz : sz ≠ 0) (hhead : chunks.head = .error e) :
    readChunks i2cLength max sz err chunks = (.failed e.ret, []) := by
  cases max <;> rw [readChunks, if_neg hsz, hhead]

theorem readChunks_last {sz : ℕ} {err : ℤ} {chunks : Stream' (Except Errno (ℕ → UInt8))} {bytes : ℕ → UInt8}
    (hsz : sz ≠ 0) (hhead : chunks.head = .ok bytes) :
    readChunks i2cLength 0 sz err chunks = (.max, (List.range (min sz i2cLength)).map bytes) := by
  rw [readChunks, if_neg hsz, hhead, min_def]

theorem readChunks_more (max : ℕ) {sz : ℕ} (err : ℤ) {chunks : Stream' (Except Errno (ℕ → UInt8))}
    {bytes : ℕ → UInt8} (hsz : sz ≠ 0) (hhead : chunks.head = .ok bytes) :
    ∃ err', readChunks i2cLength (max + 1) sz err chunks =
      ((readChunks i2cLength max (sz - i2cLength) err' chunks.tail).1,
        (List.range (min sz i2cLength)).map bytes ++
          (readChunks i2cLength max (sz - i2cLength) err' chunks.tail).2) := by
  rw [readChunks, if_neg hsz, hhead, min_def]
  exact ⟨_, rfl⟩

/-- The loop reads no more than the frame. -/
theorem length_readChunks_le (i2cLength max sz : ℕ) (err : ℤ) (chunks : Stream' (Except Errno (ℕ → UInt8))) :
    (readChunks i2cLength max sz err chunks).2.length ≤ sz := by
  induction max generalizing sz err chunks with
  | zero =>
    obtain rfl | hsz := Nat.eq_zero_or_pos sz
    · rw [readChunks_zero]
      exact le_rfl
    · cases hhead : chunks.head with
      | error e =>
        rw [readChunks_error hsz.ne' hhead]
        exact Nat.zero_le _
      | ok bytes =>
        rw [readChunks_last hsz.ne' hhead, List.length_map, List.length_range]
        exact Nat.min_le_left _ _
  | succ max ih =>
    obtain rfl | hsz := Nat.eq_zero_or_pos sz
    · rw [readChunks_zero]
      exact le_rfl
    · cases hhead : chunks.head with
      | error e =>
        rw [readChunks_error hsz.ne' hhead]
        exact Nat.zero_le _
      | ok bytes =>
        obtain ⟨err', hmore⟩ := readChunks_more max err hsz.ne' hhead
        have hrest := ih (sz - i2cLength) err' chunks.tail
        rw [hmore, List.length_append, List.length_map, List.length_range]
        omega

/-- Whether the loop reads the whole frame. -/
theorem length_readChunks_iff (i2cLength max sz : ℕ) (err : ℤ) (chunks : Stream' (Except Errno (ℕ → UInt8))) :
    (readChunks i2cLength max sz err chunks).2.length = sz ↔
      AllRead i2cLength max sz chunks ∧ sz ≤ (max + 1) * i2cLength := by
  induction max generalizing sz err chunks with
  | zero =>
    obtain rfl | hsz := Nat.eq_zero_or_pos sz
    · rw [readChunks_zero]
      exact ⟨fun _ => ⟨allRead_nil _ _, Nat.zero_le _⟩, fun _ => rfl⟩
    rw [allRead_zero hsz.ne']
    cases hhead : chunks.head with
    | error e =>
      rw [readChunks_error hsz.ne' hhead]
      exact ⟨fun h => absurd h hsz.ne, fun h => absurd h.1 Bool.false_ne_true⟩
    | ok bytes =>
      rw [readChunks_last hsz.ne' hhead, List.length_map, List.length_range]
      have hok : (Except.ok bytes : Except Errno (ℕ → UInt8)).isOk = true := rfl
      rw [hok, Nat.zero_add, Nat.one_mul]
      exact ⟨fun h => ⟨rfl, by omega⟩, fun h => Nat.min_eq_left h.2⟩
  | succ max ih =>
    obtain rfl | hsz := Nat.eq_zero_or_pos sz
    · rw [readChunks_zero]
      exact ⟨fun _ => ⟨allRead_nil _ _, Nat.zero_le _⟩, fun _ => rfl⟩
    rw [allRead_succ hsz.ne']
    cases hhead : chunks.head with
    | error e =>
      rw [readChunks_error hsz.ne' hhead]
      exact ⟨fun h => absurd h hsz.ne, fun h => absurd h.1.1 Bool.false_ne_true⟩
    | ok bytes =>
      obtain ⟨err', hmore⟩ := readChunks_more max err hsz.ne' hhead
      have hrest := ih (sz - i2cLength) err' chunks.tail
      have hok : (Except.ok bytes : Except Errno (ℕ → UInt8)).isOk = true := rfl
      have hlength : min sz i2cLength + (readChunks i2cLength max (sz - i2cLength) err' chunks.tail).2.length = sz ↔
          (readChunks i2cLength max (sz - i2cLength) err' chunks.tail).2.length = sz - i2cLength := by omega
      have hsize : sz - i2cLength ≤ (max + 1) * i2cLength ↔ sz ≤ (max + 1 + 1) * i2cLength := by
        rw [Nat.succ_mul (max + 1)]
        omega
      rw [hmore, List.length_append, List.length_map, List.length_range, hlength, hrest, hsize, hok]
      exact ⟨fun h => ⟨⟨rfl, h.1⟩, h.2⟩, fun h => ⟨h.1.2, h.2⟩⟩

def LoopEnd.isFailed : LoopEnd → Bool
  | .failed _ => true
  | _ => false

/-- Whether the loop ends with a read that failed. -/
theorem isFailed_readChunks_iff (i2cLength max sz : ℕ) (err : ℤ) (chunks : Stream' (Except Errno (ℕ → UInt8))) :
    (readChunks i2cLength max sz err chunks).1.isFailed = false ↔ AllRead i2cLength max sz chunks := by
  induction max generalizing sz err chunks with
  | zero =>
    obtain rfl | hsz := Nat.eq_zero_or_pos sz
    · rw [readChunks_zero]
      exact ⟨fun _ => allRead_nil _ _, fun _ => rfl⟩
    rw [allRead_zero hsz.ne']
    cases hhead : chunks.head with
    | error e =>
      rw [readChunks_error hsz.ne' hhead]
      exact ⟨fun h => absurd h.symm Bool.false_ne_true, fun h => absurd h Bool.false_ne_true⟩
    | ok bytes =>
      rw [readChunks_last hsz.ne' hhead]
      exact ⟨fun _ => rfl, fun _ => rfl⟩
  | succ max ih =>
    obtain rfl | hsz := Nat.eq_zero_or_pos sz
    · rw [readChunks_zero]
      exact ⟨fun _ => allRead_nil _ _, fun _ => rfl⟩
    rw [allRead_succ hsz.ne']
    cases hhead : chunks.head with
    | error e =>
      rw [readChunks_error hsz.ne' hhead]
      exact ⟨fun h => absurd h.symm Bool.false_ne_true, fun h => absurd h.1 Bool.false_ne_true⟩
    | ok bytes =>
      obtain ⟨err', hmore⟩ := readChunks_more max err hsz.ne' hhead
      rw [hmore]
      exact (ih (sz - i2cLength) err' chunks.tail).trans ⟨fun h => ⟨rfl, h⟩, fun h => h.2⟩

end Loop

/-! ### The frames -/

section Frames

variable {config : SolomonConfig} {s : Raw}

/-- The frames since the queue was last cleared: those taken or skipped, and those that wait. -/
def frames (s : Raw) : List Frame := s.gots ++ queue solomonMaxRawdataQueue s.ftdata.ring

/-- Each frame is what a single work has read, and none is lost, doubled or out of order. -/
def Own (config : SolomonConfig) (s : Raw) : Prop := (frames s).map (·.take config.size) = s.reads

structure Sound (s : Raw) : Prop where
  valid : Valid solomonMaxRawdataQueue s.ftdata.ring
  slots : ∀ k, (s.ftdata.rawData k).length = slotSize

theorem Sound.of_ftdata {s' : Raw} (h : Sound s) (heq : s'.ftdata = s.ftdata) : Sound s' :=
  ⟨heq ▸ h.valid, heq ▸ h.slots⟩

/-- What a work has read goes into the queue. -/
def publish (read : Frame) (s : Raw) : Raw :=
  { s with
    ftdata := putQueue (fill s.ftdata (next solomonMaxRawdataQueue s.ftdata.queueRear) read)
    reads := s.reads ++ [read] }

theorem length_overlay {old read : Frame} (h : read.length ≤ old.length) : (overlay old read).length = old.length := by
  rw [overlay, List.length_append, List.length_drop]
  omega

theorem Sound.fill (h : Sound s) (slot : ℕ) {read : Frame} (hread : read.length ≤ config.size) :
    Sound { s with ftdata := RawWork.fill s.ftdata slot read } := by
  refine ⟨⟨h.valid.front_lt, h.valid.rear_lt⟩, fun k => ?_⟩
  show (Function.update s.ftdata.rawData slot _ k).length = slotSize
  by_cases hk : k = slot
  · rw [hk, Function.update_self, length_overlay (by rw [h.slots]; exact hread.trans config.fits), h.slots]
  · rw [Function.update_of_ne hk, h.slots]

theorem Sound.publish (h : Sound s) (hfull : ¬ Full solomonMaxRawdataQueue s.ftdata.ring) {read : Frame}
    (hread : read.length ≤ config.size) : Sound (publish read s) := by
  have hfill := h.fill (next solomonMaxRawdataQueue s.ftdata.queueRear) hread
  have hput : putQueue (RawWork.fill s.ftdata (next solomonMaxRawdataQueue s.ftdata.queueRear) read) = _ :=
    putQueue_of_not_full hfull
  refine ⟨?_, fun k => ?_⟩
  · show Valid _ (putQueue _).ring
    rw [hput]
    exact hfill.valid.put
  · show ((putQueue _).rawData k).length = slotSize
    rw [hput]
    exact hfill.slots k

/-- The slot that is written to is not yet in the queue. -/
theorem own_fill (h : Sound s) (hown : Own config s) (read : Frame) :
    Own config { s with ftdata := fill s.ftdata (next solomonMaxRawdataQueue s.ftdata.queueRear) read } := by
  show (s.gots ++ queue _ (Rings.fill _ s.ftdata.ring _)).map (·.take config.size) = s.reads
  rw [queue_fill h.valid]
  exact hown

theorem frames_publish (h : Sound s) (hfull : ¬ Full solomonMaxRawdataQueue s.ftdata.ring) (read : Frame) :
    frames (publish read s) =
      frames s ++ [overlay (s.ftdata.rawData (next solomonMaxRawdataQueue s.ftdata.queueRear)) read] := by
  let old := s.ftdata.rawData (next solomonMaxRawdataQueue s.ftdata.queueRear)
  have hput : putQueue (RawWork.fill s.ftdata (next solomonMaxRawdataQueue s.ftdata.queueRear) read) = _ :=
    putQueue_of_not_full hfull
  have hfill := queue_fill h.valid (overlay old read)
  have hqueue := queue_put (h.valid.fill (overlay old read)) hfull
  have hslot : (Rings.fill solomonMaxRawdataQueue s.ftdata.ring (overlay old read)).slots
      (next solomonMaxRawdataQueue s.ftdata.queueRear) = overlay old read := Function.update_self ..
  show s.gots ++ queue _ (putQueue _).ring = s.gots ++ queue _ s.ftdata.ring ++ _
  rw [hput, List.append_assoc, ← hfill]
  exact congrArg (s.gots ++ ·) (hqueue.trans (congrArg (fun a => _ ++ [a]) hslot))

/-- A frame is the work's own exactly if the work has read all of it. -/
theorem own_publish_iff (h : Sound s) (hfull : ¬ Full solomonMaxRawdataQueue s.ftdata.ring) (hown : Own config s)
    {read : Frame} (hread : read.length ≤ config.size) :
    Own config (publish read s) ↔ read.length = config.size := by
  have hsize : (overlay (s.ftdata.rawData (next solomonMaxRawdataQueue s.ftdata.queueRear)) read).length =
      slotSize := by
    rw [length_overlay (by rw [h.slots]; exact hread.trans config.fits), h.slots]
  have hown' : (frames s).map (·.take config.size) = s.reads := hown
  rw [Own, frames_publish h hfull, List.map_append, hown']
  show s.reads ++ [_] = s.reads ++ [read] ↔ _
  rw [List.append_cancel_left_eq, List.cons.injEq, eq_self, and_true]
  constructor
  · intro heq
    have hlength := congrArg List.length heq
    rw [List.length_take, hsize, Nat.min_eq_left (show config.size ≤ slotSize from config.fits)] at hlength
    exact hlength.symm
  · intro heq
    rw [overlay, ← heq]
    exact List.take_left

theorem frames_drop (h : Sound s) : frames (drop s) = frames s := by
  unfold drop
  split
  · rfl
  · next slot hslot =>
    obtain ⟨hempty, rfl⟩ := getFrontQueueBuff_eq_some hslot
    rw [frames, getQueue_of_not_empty hempty, frames, queue_get h.valid hempty, List.append_assoc]
    rfl

theorem Sound.drop (h : Sound s) : Sound (drop s) := by
  unfold RawWork.drop
  split
  · exact h
  · next slot hslot =>
    obtain ⟨hempty, rfl⟩ := getFrontQueueBuff_eq_some hslot
    rw [getQueue_of_not_empty hempty]
    exact ⟨h.valid.get, h.slots⟩

theorem own_drop_iff (h : Sound s) : Own config (drop s) ↔ Own config s := by
  have hreads : (drop s).reads = s.reads := by
    unfold drop
    split <;> rfl
  rw [Own, frames_drop h, hreads, Own]

theorem Sound.clear (h : Sound s) : Sound (clear s) :=
  ⟨⟨Nat.zero_lt_succ 10, Nat.zero_lt_succ 10⟩, h.slots⟩

theorem own_clear (s : Raw) : Own config (clear s) := by
  have hvalid : Valid solomonMaxRawdataQueue (clear s).ftdata.ring := ⟨Nat.zero_lt_succ 10, Nat.zero_lt_succ 10⟩
  rw [Own, frames, queue_of_empty hvalid rfl]
  rfl

/-! ### The works -/

/-- A work that gets as far as a frame and finds room for it. -/
def Reads (s : Raw) (bus : Bus) : Prop :=
  bus.intPin = false ∧ s.rawDataLock ≠ 0 ∧ bus.pointInfo.isOk ∧ ¬ Full solomonMaxRawdataQueue s.ftdata.ring

/-- The test clears the queue behind its frame: it has skipped its last one, or it stops. -/
def Clears (s : Raw) : Prop :=
  s.mpSkipCount = 1 ∨ s.mpSkipCount ≤ 0 ∧ s.mptestMode &&& mptestReadyStop = mptestReadyStop

/-- A frame of at most 51 chunks, none of which fails. -/
def ReadOut (config : SolomonConfig) (bus : Bus) : Prop :=
  AllRead config.i2cLength 50 config.size bus.chunks ∧ config.size ≤ 51 * config.i2cLength

/-- A frame that goes into the queue is read to its end. A test's and an aging mode's may be cut short by a read
    that fails, and all kinds by the most that their loops read. -/
def Whole (config : SolomonConfig) (s : Raw) : Event → Prop
  | .work bus =>
    (Reads s bus → mptestStop < s.mptestMode → ¬ Awaited s → ¬ Clears s → ReadOut config bus) ∧
    (Reads s bus → ¬ mptestStop < s.mptestMode → touchPointMode < s.touchMode → s.touchMode < agingRawDataMode →
      AllRead config.i2cLength 10 config.size bus.chunks → config.size ≤ 11 * config.i2cLength) ∧
    (¬ mptestStop < s.mptestMode → agingRawDataMode ≤ s.touchMode → bus.pointsRead →
      ¬ Full solomonMaxRawdataQueue s.ftdata.ring → ReadOut config bus)
  | _ => True

/-- What a test's work does behind its frame. -/
def settle (s : Raw) : Raw :=
  if 0 < s.mpSkipCount then
    let s := drop s
    let s := if s.mpSkipCount = 1 then clear s else s
    { s with mpSkipCount := s.mpSkipCount - 1 }
  else countDown s

theorem mpSkipCount_drop (s : Raw) : (drop s).mpSkipCount = s.mpSkipCount := by
  unfold drop
  split <;> rfl

theorem Sound.settle (h : Sound s) : Sound (settle s) := by
  unfold RawWork.settle countDown
  simp only
  split_ifs
  · exact h.drop.clear.of_ftdata rfl
  · exact h.drop.of_ftdata rfl
  · exact h.clear.of_ftdata rfl
  all_goals exact h.of_ftdata rfl

theorem own_settle_iff (h : Sound s) : Own config (settle s) ↔ Clears s ∨ Own config s := by
  unfold settle countDown
  simp only [mpSkipCount_drop]
  split_ifs with hskip hlast hstop hcount
  · exact ⟨fun _ => .inl (.inl hlast), fun _ => own_clear (drop s)⟩
  · have hclears : ¬ Clears s := by
      rintro (hone | ⟨hzero, -⟩)
      · exact hlast hone
      · omega
    rw [or_iff_right hclears]
    exact own_drop_iff h
  · exact ⟨fun _ => .inl (.inr ⟨by omega, hstop⟩), fun _ => own_clear _⟩
  all_goals
    have hclears : ¬ Clears s := by
      rintro (hone | ⟨-, hset⟩)
      · omega
      · exact hstop hset
    rw [or_iff_right hclears]
    rfl

theorem getRearQueueBuff_full (hfull : Full solomonMaxRawdataQueue s.ftdata.ring) : getRearQueueBuff s.ftdata = none :=
  if_pos hfull

theorem getRearQueueBuff_room (hfull : ¬ Full solomonMaxRawdataQueue s.ftdata.ring) :
    getRearQueueBuff s.ftdata = some (next solomonMaxRawdataQueue s.ftdata.queueRear) := if_neg hfull

theorem byQueue_room (hfull : ¬ Full solomonMaxRawdataQueue s.ftdata.ring)
    (chunks : Stream' (Except Errno (ℕ → UInt8))) : (solomonGetRawdataByQueue config chunks s).2 =
      publish (readChunks config.i2cLength 50 config.size 0 chunks).2 s := by
  rw [solomonGetRawdataByQueue, getRearQueueBuff_room hfull]
  simp only [solomonGetRawdata]
  cases readChunks config.i2cLength 50 config.size 0 chunks with
  | mk loopEnd read => cases loopEnd <;> rfl

theorem byQueue_full (hfull : Full solomonMaxRawdataQueue s.ftdata.ring)
    (chunks : Stream' (Except Errno (ℕ → UInt8))) : (solomonGetRawdataByQueue config chunks s).2 = s := by
  rw [solomonGetRawdataByQueue, getRearQueueBuff_full hfull]

/-- A work's step: the state stays sound, and each frame its work's own, exactly under a condition. -/
structure Keeps (config : SolomonConfig) (s' : Raw) (Whole : Prop) : Prop where
  sound : Sound s'
  own : Own config s' ↔ Whole

theorem Keeps.of_true {p : Prop} (hsound : Sound s) (hown : Own config s) (hp : p) : Keeps config s p :=
  ⟨hsound, fun _ => hp, fun _ => hown⟩

theorem keeps_readMptest (h : Sound s) (hown : Own config s) (bus : Bus) :
    Keeps config (solomonReadMptest config bus s) (¬ Full solomonMaxRawdataQueue s.ftdata.ring → ¬ Clears s →
      ReadOut config bus) := by
  show Keeps config (settle (solomonGetRawdataByQueue config bus.chunks s).2) _
  by_cases hfull : Full solomonMaxRawdataQueue s.ftdata.ring
  · rw [byQueue_full hfull]
    exact .of_true h.settle ((own_settle_iff h).mpr (.inr hown)) fun hroom => absurd hfull hroom
  · have hread := length_readChunks_le config.i2cLength 50 config.size 0 bus.chunks
    rw [byQueue_room hfull]
    refine ⟨(h.publish hfull hread).settle, ?_⟩
    rw [own_settle_iff (h.publish hfull hread), own_publish_iff h hfull hown hread,
      length_readChunks_iff]
    exact ⟨fun h _ hclears => h.resolve_left hclears, fun h => or_iff_not_imp_left.mpr (h hfull)⟩

theorem reads_iff {bus : Bus} : Reads s bus ↔ Attends s bus ∧ ¬ Full solomonMaxRawdataQueue s.ftdata.ring :=
  ⟨fun ⟨hpin, hlock, hinfo, hroom⟩ => ⟨⟨hpin, hlock, hinfo⟩, hroom⟩,
    fun ⟨⟨hpin, hlock, hinfo⟩, hroom⟩ => ⟨hpin, hlock, hinfo, hroom⟩⟩

theorem keeps_guarded {bus : Bus} (h : Sound s) (hown : Own config s) {attend : BitVec 16 → Raw} {p : Prop}
    (hattend : Attends s bus → ∀ info, Keeps config (attend info) (Reads s bus → p)) :
    Keeps config (guarded bus s attend) (Reads s bus → p) := by
  by_cases hattends : Attends s bus
  · obtain ⟨info, -, heq⟩ := guarded_attends hattends attend
    rw [heq]
    exact hattend hattends info
  · rw [guarded_idle hattends, idle]
    have hnot (hreads : Reads s bus) : p := absurd (reads_iff.mp hreads).1 hattends
    split_ifs
    exacts [.of_true h hown hnot, .of_true (h.of_ftdata rfl) hown hnot, .of_true (h.of_ftdata rfl) hown hnot]

theorem keeps_readMpdata (h : Sound s) (hown : Own config s) (bus : Bus) :
    Keeps config (solomonReadMpdata config bus s) (Reads s bus → ¬ Awaited s → ¬ Clears s → ReadOut config bus) := by
  refine keeps_guarded h hown fun hattends info => ?_
  by_cases hwaits : s.mptestMode &&& mptestReadyStart = mptestReadyStart
  · have hgood {p : Prop} : Reads s bus → ¬ Awaited s → p := fun _ hnot => absurd hwaits hnot
    simp only [if_pos hwaits]
    by_cases hset : info &&& 0x8000 = 0
    · rw [if_pos hset]
      exact .of_true (h.of_ftdata rfl) hown hgood
    · rw [if_neg hset]
      cases bus.setMptest <;> exact .of_true (h.clear.of_ftdata rfl) (own_clear s) hgood
  · obtain ⟨hsound, hiff⟩ := keeps_readMptest (show Sound (down s) from h.of_ftdata rfl) hown bus
    simp only [if_neg hwaits]
    refine ⟨hsound.of_ftdata rfl, hiff.trans ?_⟩
    exact ⟨fun h hreads _ => h (reads_iff.mp hreads).2, fun h hroom => h (reads_iff.mpr ⟨hattends, hroom⟩) hwaits⟩

theorem keeps_readRawdata (h : Sound s) (hown : Own config s) (bus : Bus) :
    Keeps config (solomonReadRawdata config bus s) (Reads s bus →
      AllRead config.i2cLength 10 config.size bus.chunks → config.size ≤ 11 * config.i2cLength) := by
  refine keeps_guarded h hown fun hattends info => ?_
  by_cases hfull : Full solomonMaxRawdataQueue s.ftdata.ring
  · simp only [show getRearQueueBuff (down s).ftdata = none from getRearQueueBuff_full hfull]
    exact .of_true (h.of_ftdata rfl) hown fun hreads => absurd hfull (reads_iff.mp hreads).2
  have hrear : getRearQueueBuff (down s).ftdata = _ := getRearQueueBuff_room hfull
  have hread := length_readChunks_le config.i2cLength 10 config.size 0 bus.chunks
  have hlength := length_readChunks_iff config.i2cLength 10 config.size 0 bus.chunks
  have hfailed := isFailed_readChunks_iff config.i2cLength 10 config.size 0 bus.chunks
  have hreads : Reads s bus := reads_iff.mpr ⟨hattends, hfull⟩
  simp only [hrear]
  generalize readChunks config.i2cLength 10 config.size 0 bus.chunks = result at hread hlength hfailed ⊢
  obtain ⟨loopEnd, read⟩ := result
  -- Behind a loop that does not fail, all that it reads was read, so only its most can cut the frame short.
  have hpublish (hok : loopEnd.isFailed = false) : Keeps config (up (publish read (down s))) (Reads s bus →
      AllRead config.i2cLength 10 config.size bus.chunks → config.size ≤ 11 * config.i2cLength) := by
    refine ⟨(h.publish hfull hread).of_ftdata rfl, (own_publish_iff h hfull hown hread).trans ?_⟩
    exact hlength.trans ⟨fun h _ _ => h.2, fun h => ⟨hfailed.mp hok, h hreads (hfailed.mp hok)⟩⟩
  cases loopEnd with
  | failed err =>
    have hgood (hall : AllRead config.i2cLength 10 config.size bus.chunks) : config.size ≤ 11 * config.i2cLength :=
      absurd (hfailed.mpr hall).symm Bool.false_ne_true
    exact .of_true ((h.fill _ hread).of_ftdata rfl) (own_fill h hown read) fun _ => hgood
  | done err => exact hpublish rfl
  | max => exact hpublish rfl

theorem keeps_readPoints (h : Sound s) (hown : Own config s) (bus : Bus) :
    Keeps config (solomonReadPoints config bus s) (agingRawDataMode ≤ s.touchMode → bus.pointsRead →
      ¬ Full solomonMaxRawdataQueue s.ftdata.ring → ReadOut config bus) := by
  unfold solomonReadPoints
  split_ifs with haging
  · by_cases hfull : Full solomonMaxRawdataQueue s.ftdata.ring
    · rw [byQueue_full hfull]
      exact .of_true h hown fun _ _ hroom => absurd hfull hroom
    · have hread := length_readChunks_le config.i2cLength 50 config.size 0 bus.chunks
      rw [byQueue_room hfull]
      refine ⟨h.publish hfull hread, ?_⟩
      rw [own_publish_iff h hfull hown hread, length_readChunks_iff]
      exact ⟨fun hout _ _ _ => hout, fun hout => hout haging.2 haging.1 hfull⟩
  · exact .of_true h hown fun hmode hpoints => absurd ⟨hpoints, hmode⟩ haging

theorem keeps_mpTest (h : Sound s) (hown : Own config s) (mode : BitVec 32) (count needback : ℤ) :
    Keeps config (mpTest mode count needback s) True := by
  unfold mpTest
  simp only
  split_ifs
  · exact .of_true (h.clear.of_ftdata rfl) (own_clear s) trivial
  · exact .of_true (h.of_ftdata rfl) hown trivial
  · exact .of_true (h.clear.of_ftdata rfl) (own_clear s) trivial

theorem keeps_sslMptest (h : Sound s) (hown : Own config s) (mode : BitVec 16) (occupied : Bool) :
    Keeps config (sslMptest mode occupied s) True := by
  unfold sslMptest
  by_cases hmode : mode = 0
  · rw [if_pos hmode]
    exact .of_true (h.of_ftdata rfl) hown trivial
  · rw [if_neg hmode]
    cases occupied <;> exact .of_true (h.clear.of_ftdata rfl) (own_clear s) trivial

theorem keeps_getRawData (h : Sound s) (hown : Own config s) (copied : Bool) :
    Keeps config (getRawData copied s) True := by
  unfold getRawData
  split_ifs
  exacts [.of_true h hown trivial, .of_true h.drop ((own_drop_iff h).mpr hown) trivial, .of_true h hown trivial]

theorem keeps_step (h : Sound s) (hown : Own config s) (e : Event) :
    Keeps config (step config s e) (Whole config s e) := by
  cases e with
  | work bus =>
    rw [step, solomonWork]
    by_cases htest : mptestStop < s.mptestMode
    · rw [if_pos htest]
      obtain ⟨hsound, hiff⟩ := keeps_readMpdata h hown bus
      exact ⟨hsound, hiff.trans ⟨fun h => ⟨fun hreads _ => h hreads, fun _ hnot => absurd htest hnot,
        fun hnot => absurd htest hnot⟩, fun h hreads => h.1 hreads htest⟩⟩
    rw [if_neg htest]
    split_ifs with hmode
    · obtain ⟨hsound, hiff⟩ := keeps_readRawdata h hown bus
      exact ⟨hsound, hiff.trans ⟨fun h => ⟨fun _ hin => absurd hin htest, fun hreads _ _ _ => h hreads,
        fun _ haging => absurd hmode.2 haging.not_gt⟩, fun h hreads => h.2.1 hreads htest hmode.1 hmode.2⟩⟩
    · obtain ⟨hsound, hiff⟩ := keeps_readPoints h hown bus
      exact ⟨hsound, hiff.trans ⟨fun h => ⟨fun _ hin => absurd hin htest,
        fun _ _ hlow hhigh => absurd ⟨hlow, hhigh⟩ hmode, fun _ => h⟩, fun h => h.2.2 htest⟩⟩
  | mpTest mode count needback => exact keeps_mpTest h hown mode count needback
  | sslMptest mode occupied => exact keeps_sslMptest h hown mode occupied
  | touchMode value => exact .of_true (h.of_ftdata rfl) hown trivial
  | getRawData copied => exact keeps_getRawData h hown copied
  | queueClear => exact .of_true h.clear (own_clear s) trivial
  | initConfig => exact .of_true (h.of_ftdata rfl) hown trivial

/-- In every run of works and commands the following two are the same: in every state, the frames taken or skipped
    and those that wait are what single works have read, each of them whole, in their order; and every frame that
    goes into the queue and is not cleared behind its work is read to its end. -/
theorem own_iff {rawData : ℕ → Frame} (hrawData : ∀ k, (rawData k).length = slotSize) (es : List Event) :
    Always (step config) (Own config) (start rawData) es ↔ Steps (step config) (Whole config) (start rawData) es := by
  have hstart : Sound (start rawData) ∧ Own config (start rawData) :=
    ⟨⟨⟨Nat.zero_lt_succ 10, Nat.zero_lt_succ 10⟩, hrawData⟩, own_clear (start rawData)⟩
  have hgood (s : Raw) (e : Event) (_ : True) (h : Sound s ∧ Own config s) (he : Whole config s e) :
      Sound (step config s e) ∧ Own config (step config s e) :=
    ⟨(keeps_step h.1 h.2 e).sound, (keeps_step h.1 h.2 e).own.mpr he⟩
  have hbad (s : Raw) (e : Event) (_ : True) (h : Sound s ∧ Own config s) (he : ¬ Whole config s e) :
      ¬ Own config (step config s e) := fun hown => he ((keeps_step h.1 h.2 e).own.mp hown)
  exact always_iff_steps (fun _ h => h.2) hgood hbad hstart fun _ _ => trivial

/-- A raw data mode in which two chunks make a frame. -/
def twoChunks : SolomonConfig := ⟨2, 2, 4, by decide⟩

def rawMode : List Event :=
  [.touchMode 1, .work ⟨false, .ok 0, .ok (), true, fun _ => .ok fun _ => 7⟩, .getRawData true]

theorem own_iff_rawMode :
    Always (step twoChunks) (Own twoChunks) (start fun _ => List.replicate slotSize 0) rawMode ↔
      Steps (step twoChunks) (Whole twoChunks) (start fun _ => List.replicate slotSize 0) rawMode :=
  own_iff (fun _ => List.length_replicate ..) rawMode

end Frames

end GeminiLinux.RawWork
