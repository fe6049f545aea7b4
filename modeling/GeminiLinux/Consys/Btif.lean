import GeminiLinux.Lib.Prog
import GeminiLinux.Kernel.Errno

/-! The BTIF block between the AP and the CONSYS MCU, polled by `mtk-consys-spike.c`: `btif_tx`
    writes a buffer to BTIF_THR in bursts of at most 16 bytes, each behind an observed LSR.TEMT;
    `btif_rx_drain` collects reply bytes from BTIF_RBR until its buffer is full, its deadline
    passes, or the line falls idle.

    The two parties are joined by in-order lossless channels. The AP's side is the driver code; the
    MCU acts between the AP's register accesses, so what it does is given pass by pass: it may
    answer a command it has received, once, with any bytes and after any delay, and the bytes of its
    answers reach the RX FIFO in order, one at a time.

        cmd k ──frame──▶ MCU  (k unanswered)
                          │ answer k bytes
        rx ◀─ RBR ◀─ fifo ◀─ deliver ◀─ wire -/

namespace GeminiLinux.Btif
open Prog

/-- BTIF_TX_FIFO_SIZE. -/
def txFifoSize : ℕ := 16

/-- A byte on its way to the AP, with the command whose reply it belongs to. -/
structure RxByte where
  val : UInt8
  origin : ℕ
  deriving DecidableEq

/-- What the MCU can do between two register accesses of the AP. -/
inductive McuAct where
  | answer (k : ℕ) (bytes : List UInt8)
  | deliver
  deriving DecidableEq

/-- AP accesses on the transmit side: an LSR read with the TEMT bit it showed, a byte written to
    BTIF_THR, a level written to BTIF_WAK. -/
inductive TxEvent where
  | lsr (temt : Bool)
  | thr (b : UInt8)
  | wak (level : Bool)
  deriving DecidableEq

/-- The block and both channels: the transmit-side accesses so far, the number of exchanges begun,
    the commands received but not answered, the reply bytes under way and those in the RX FIFO. -/
structure Bus where
  tx : List TxEvent
  sent : ℕ
  unanswered : List ℕ
  wire : List RxByte
  fifo : List RxByte

/-- An answer to a command the MCU does not owe one for does not happen. -/
def mcuStep (bus : Bus) : McuAct → Bus
  | .answer k bytes =>
    if k ∈ bus.unanswered then
      { bus with unanswered := bus.unanswered.erase k, wire := bus.wire ++ bytes.map (⟨·, k⟩) }
    else bus
  | .deliver =>
    match bus.wire with
    | [] => bus
    | b :: bs => { bus with wire := bs, fifo := bus.fifo ++ [b] }

def mcuRun (bus : Bus) (acts : List McuAct) : Bus := acts.foldl mcuStep bus

/-! ### Transmit -/

/-- One wait for TEMT: how many LSR reads show it low before one shows it set, and how many low
    reads fit in before `jiffies` passes the 100 ms deadline. -/
structure Burst where
  low : ℕ
  patience : ℕ

/-- The `while (!(readl(btif + BTIF_LSR) & BTIF_LSR_TEMT))` loop: the reads it makes and whether it
    leaves for the burst (`true`) or for `-ETIMEDOUT`. -/
def waitTemt : ℕ → ℕ → List TxEvent × Bool
  | 0, _ => ([.lsr true], true)
  | _ + 1, 0 => ([.lsr false], false)
  | low + 1, patience + 1 =>
    let r := waitTemt low patience
    (.lsr false :: r.1, r.2)

/-- The `while (len > 0)` loop of `btif_tx` from its `i`-th burst on: the accesses it makes and
    whether it sends everything (`fuel` bounds the bursts; use the length of `buf`). -/
def btifTxLoop (bursts : ℕ → Burst) : ℕ → ℕ → List UInt8 → List TxEvent × Bool
  | 0, _, _ => ([], true)
  | fuel + 1, i, buf =>
    if buf.length > 0 then
      let w := waitTemt (bursts i).low (bursts i).patience
      if w.2 then
        let chunk := min buf.length txFifoSize
        let r := btifTxLoop bursts fuel (i + 1) (buf.drop chunk)
        (w.1 ++ (buf.take chunk).map .thr ++ r.1, r.2)
      else w
    else ([], true)

def btifTx (bursts : ℕ → Burst) (buf : List UInt8) : EStateM Errno Bus Unit := do
  let r := btifTxLoop bursts buf.length 0 buf
  modify fun bus => { bus with tx := bus.tx ++ r.1 }
  if r.2 then pure () else throw .ETIMEDOUT

/-- `btif_wakeup_consys`. -/
def btifWakeupConsys : EStateM Errno Bus Unit :=
  modify fun bus => { bus with tx := bus.tx ++ [.wak false, .wak true] }

/-! ### Receive -/

/-- One pass of the drain loop: what the MCU does before the pass reads LSR, and whether `jiffies`
    has passed `idle` by then. -/
structure RxPass where
  acts : List McuAct
  idle : Bool

/-- The loop of `btif_rx_drain`: `room` is `max - n`, `rx` is what has been read, and the list of
    passes ends when `jiffies` passes the deadline. -/
def btifRxDrainLoop : List RxPass → ℕ → List RxByte → Bus → List RxByte × Bus
  | [], _, rx, bus => (rx, bus)
  | _, 0, rx, bus => (rx, bus)
  | p :: ps, room + 1, rx, bus =>
    let bus := mcuRun bus p.acts
    match bus.fifo with
    | b :: bs => btifRxDrainLoop ps room (rx ++ [b]) { bus with fifo := bs }
    | [] => if rx ≠ [] ∧ p.idle then (rx, bus) else btifRxDrainLoop ps (room + 1) rx bus

def btifRxDrain (passes : List RxPass) (max : ℕ) : EStateM Errno Bus (List RxByte) :=
  modifyGet (btifRxDrainLoop passes max [])

/-! ### What the transmit side carries -/

/-- The bytes written to BTIF_THR, in order. -/
def thrBytes : List TxEvent → List UInt8
  | [] => []
  | .thr b :: es => b :: thrBytes es
  | .lsr _ :: es => thrBytes es
  | .wak _ :: es => thrBytes es

@[simp] theorem thrBytes_append : ∀ es fs : List TxEvent,
    thrBytes (es ++ fs) = thrBytes es ++ thrBytes fs
  | [], _ => rfl
  | .thr b :: es, fs => congrArg (b :: ·) (thrBytes_append es fs)
  | .lsr _ :: es, fs => thrBytes_append es fs
  | .wak _ :: es, fs => thrBytes_append es fs

@[simp] theorem thrBytes_map_thr : ∀ buf : List UInt8, thrBytes (buf.map .thr) = buf
  | [] => rfl
  | b :: bs => congrArg (b :: ·) (thrBytes_map_thr bs)

@[simp] theorem thrBytes_waitTemt : ∀ low patience : ℕ, thrBytes (waitTemt low patience).1 = []
  | 0, _ => rfl
  | _ + 1, 0 => rfl
  | low + 1, patience + 1 => thrBytes_waitTemt low patience

theorem waitTemt_ready : ∀ low patience : ℕ, (waitTemt low patience).2 = true ↔ low ≤ patience
  | 0, _ => by simp [waitTemt]
  | _ + 1, 0 => by simp [waitTemt]
  | low + 1, patience + 1 => by simp [waitTemt, waitTemt_ready low patience]

/-- No wait for TEMT runs into its deadline while `n` bytes are sent from the `i`-th burst on. -/
def KeepsUp (bursts : ℕ → Burst) (i n : ℕ) : Prop :=
  ∀ j, j * txFifoSize < n → (bursts (i + j)).low ≤ (bursts (i + j)).patience

/-- The burst loop gets through exactly when no wait outlasts its deadline. -/
theorem btifTxLoop_ready (bursts : ℕ → Burst) : ∀ (fuel i : ℕ) (buf : List UInt8),
    buf.length ≤ fuel →
      ((btifTxLoop bursts fuel i buf).2 = true ↔ KeepsUp bursts i buf.length) := by
  intro fuel
  induction fuel with
  | zero =>
    intro i buf hle
    have hzero : buf.length = 0 := Nat.le_zero.mp hle
    simp [btifTxLoop, KeepsUp, hzero]
  | succ fuel ih =>
    intro i buf hle
    unfold btifTxLoop
    by_cases hpos : buf.length > 0
    · have hrest : (buf.drop (min buf.length txFifoSize)).length ≤ fuel := by
        simp only [List.length_drop, txFifoSize]; omega
      have ih := ih (i + 1) _ hrest
      have hshift : ∀ j, j * txFifoSize < (buf.drop (min buf.length txFifoSize)).length ↔
          (j + 1) * txFifoSize < buf.length := by
        intro j; simp only [List.length_drop, txFifoSize]; omega
      simp only [if_pos hpos]
      constructor
      · intro h j hj
        split at h
        · next hready =>
          cases j with
          | zero => exact (waitTemt_ready _ _).mp hready
          | succ j =>
            have := ih.mp h j ((hshift j).mpr hj)
            rwa [show i + 1 + j = i + (j + 1) by omega] at this
        · next hready => exact absurd h hready
      · intro hup
        have hready : (waitTemt (bursts i).low (bursts i).patience).2 = true :=
          (waitTemt_ready _ _).mpr (hup 0 (by omega))
        rw [if_pos hready]
        refine ih.mpr fun j hj => ?_
        have := hup (j + 1) ((hshift j).mp hj)
        rwa [show i + (j + 1) = i + 1 + j by omega] at this
    · have hzero : buf.length = 0 := by omega
      rw [if_neg hpos]
      simp [KeepsUp, hzero]

/-- A burst loop that gets through has sent the whole buffer, byte for byte. -/
theorem btifTxLoop_complete (bursts : ℕ → Burst) : ∀ (fuel i : ℕ) (buf : List UInt8),
    buf.length ≤ fuel → (btifTxLoop bursts fuel i buf).2 = true →
    thrBytes (btifTxLoop bursts fuel i buf).1 = buf := by
  intro fuel
  induction fuel with
  | zero =>
    intro i buf hle _
    rw [List.length_eq_zero_iff.mp (Nat.le_zero.mp hle)]; rfl
  | succ fuel ih =>
    intro i buf hle hok
    unfold btifTxLoop at hok ⊢
    by_cases hpos : buf.length > 0
    · have hrest : (buf.drop (min buf.length txFifoSize)).length ≤ fuel := by
        simp only [List.length_drop, txFifoSize]; omega
      simp only [if_pos hpos] at hok ⊢
      split at hok
      · next hready =>
        have hbytes := ih (i + 1) _ hrest hok
        rw [if_pos hready, thrBytes_append, thrBytes_append, thrBytes_waitTemt,
          thrBytes_map_thr, hbytes, List.nil_append, List.take_append_drop]
      · next hready => exact absurd hok hready
    · have hnil : buf = [] := List.length_eq_zero_iff.mp (by omega)
      rw [if_neg hpos, hnil]; rfl

/-- The accesses are *paced*: at most `n` bytes are written before TEMT is next observed, and at
    most a FIFO's worth after each observation. -/
def Paced : ℕ → List TxEvent → Prop
  | _, [] => True
  | _, .lsr true :: es => Paced txFifoSize es
  | n, .lsr false :: es => Paced n es
  | n, .wak _ :: es => Paced n es
  | 0, .thr _ :: _ => False
  | n + 1, .thr _ :: es => Paced n es

theorem paced_mono : ∀ {n m : ℕ} {l : List TxEvent}, n ≤ m → Paced n l → Paced m l
  | _, _, [], _, _ => trivial
  | _, _, .lsr true :: _, _, h => h
  | _, _, .lsr false :: es, hnm, h => paced_mono (l := es) hnm h
  | _, _, .wak _ :: es, hnm, h => paced_mono (l := es) hnm h
  | _ + 1, _ + 1, .thr _ :: es, hnm, h => paced_mono (l := es) (Nat.le_of_succ_le_succ hnm) h
  | 0, _, .thr _ :: _, _, h => h.elim

/-- Accesses that wait for TEMT before they write may follow any paced ones. -/
theorem paced_append : ∀ {n : ℕ} {l fs : List TxEvent}, Paced n l → Paced 0 fs → Paced n (l ++ fs)
  | _, [], _, _, hf => paced_mono (Nat.zero_le _) hf
  | _, .lsr true :: es, _, h, hf => paced_append (n := txFifoSize) (l := es) h hf
  | _, .lsr false :: es, _, h, hf => paced_append (l := es) h hf
  | _, .wak _ :: es, _, h, hf => paced_append (l := es) h hf
  | _ + 1, .thr _ :: es, _, h, hf => paced_append (l := es) h hf
  | 0, .thr _ :: _, _, h, _ => h.elim

theorem paced_thr : ∀ {n : ℕ} {l : List UInt8}, l.length ≤ n → ∀ {es : List TxEvent},
    Paced 0 es → Paced n (l.map .thr ++ es)
  | _, [], _, _, h => paced_mono (Nat.zero_le _) h
  | _ + 1, _ :: bs, hle, _, h => paced_thr (l := bs) (Nat.le_of_succ_le_succ hle) h

theorem paced_waitTemt : ∀ (low patience : ℕ) (es : List TxEvent),
    ((waitTemt low patience).2 = true → Paced txFifoSize es) →
    ((waitTemt low patience).2 = false → es = []) → Paced 0 ((waitTemt low patience).1 ++ es)
  | 0, _, _, h, _ => h rfl
  | _ + 1, 0, _, _, h => by rw [h rfl]; trivial
  | low + 1, patience + 1, es, h, h' => paced_waitTemt low patience es h h'

theorem paced_btifTxLoop (bursts : ℕ → Burst) : ∀ (fuel i : ℕ) (buf : List UInt8),
    Paced 0 (btifTxLoop bursts fuel i buf).1 := by
  intro fuel
  induction fuel with
  | zero =>
    intro i buf
    trivial
  | succ fuel ih =>
    intro i buf
    unfold btifTxLoop
    by_cases hpos : buf.length > 0
    · simp only [if_pos hpos]
      by_cases hready : (waitTemt (bursts i).low (bursts i).patience).2 = true
      · rw [if_pos hready, List.append_assoc]
        refine paced_waitTemt _ _ _ (fun _ => paced_thr ?_ (ih (i + 1) _))
          (fun h => absurd hready (by simp [h]))
        rw [List.length_take]; omega
      · rw [if_neg hready, ← List.append_nil (waitTemt _ _).1]
        exact paced_waitTemt _ _ [] (fun _ => trivial) (fun _ => rfl)
    · rw [if_neg hpos]; trivial

theorem paced_drop : ∀ {n : ℕ} {l fs : List TxEvent}, n ≤ txFifoSize → Paced n (l ++ fs) →
    Paced txFifoSize fs
  | _, [], _, hn, h => paced_mono hn h
  | _, .lsr true :: es, _, _, h => paced_drop (n := txFifoSize) (l := es) le_rfl h
  | _, .lsr false :: es, _, hn, h => paced_drop (l := es) hn h
  | _, .wak _ :: es, _, hn, h => paced_drop (l := es) hn h
  | _ + 1, .thr _ :: es, _, hn, h => paced_drop (l := es) (by omega) h
  | 0, .thr _ :: _, _, _, h => h.elim

theorem paced_take : ∀ {n : ℕ} {l fs : List TxEvent}, Paced n (l ++ fs) → .lsr true ∉ l →
    (thrBytes l).length ≤ n
  | _, [], _, _, _ => Nat.zero_le _
  | _, .lsr true :: _, _, _, hno => absurd (List.mem_cons_self ..) hno
  | _, .lsr false :: es, _, h, hno =>
      paced_take (l := es) h fun hm => hno (List.mem_cons_of_mem _ hm)
  | _, .wak _ :: es, _, h, hno => paced_take (l := es) h fun hm => hno (List.mem_cons_of_mem _ hm)
  | _ + 1, .thr _ :: es, _, h, hno =>
      Nat.succ_le_succ (paced_take (l := es) h fun hm => hno (List.mem_cons_of_mem _ hm))
  | 0, .thr _ :: _, _, h, _ => h.elim

/-- Between two observations of TEMT paced accesses write at most a FIFO's worth of bytes. -/
theorem paced_segment {pre seg fs : List TxEvent} (h : Paced 0 (pre ++ seg ++ fs))
    (hno : .lsr true ∉ seg) : (thrBytes seg).length ≤ txFifoSize := by
  rw [List.append_assoc] at h
  exact paced_take (paced_drop (Nat.zero_le _) h) hno

end GeminiLinux.Btif
