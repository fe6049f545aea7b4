import GeminiLinux.Consys.Btif
import GeminiLinux.Lib.Framing

/-! `wmt_cmd_evt`: one WMT command in STP mand-mode framing over BTIF, and the scan of the bytes that
    come back for the expected event.

        frame:  80 | 4<<4 + len>>8 | len&ff | 00 | cmd (len bytes) | 00 00
                byte0    byte1        byte2   byte3                  CRC -/

namespace GeminiLinux.Wmt
open Btif Prog Framing

def stpCrcSize : ℕ := 2
def wmtTaskIndx : ℕ := 4

/-- G2B_RX_BUF_SZ. -/
def rxBufSz : ℕ := 64

/-- What the hardware and the kernel decide during one exchange: whether `kmalloc` gives the frame,
    how TEMT behaves, what the MCU does while the frame goes out, and the passes of the drain. -/
structure CmdEnv where
  frameAlloc : Bool
  bursts : ℕ → Burst
  during : List McuAct
  passes : List RxPass

/-- The frame `wmt_cmd_evt` builds around a command. -/
def stpFrame (cmd : List UInt8) : List UInt8 :=
  [0x80,
    UInt8.ofNat (wmtTaskIndx <<< 4 ||| (cmd.length >>> 8 &&& 0x0f)),
    UInt8.ofNat (cmd.length &&& 0xff),
    0x00] ++ cmd ++ [0x00, 0x00]

/-- The first offset at which `evt` stands in `rx`: the `for (i = 0; i + evtlen <= n; i++)` scan. -/
def findEvt (rx : List RxByte) (evt : List UInt8) : Option ℕ :=
  (List.range (rx.length + 1 - evt.length)).find? fun i =>
    ((rx.drop i).take evt.length).map RxByte.val == evt

/-- What `wmt_cmd_evt` makes of the drained bytes: 0 with the bytes that matched, or an errno. -/
def scanEvt (rx : List RxByte) (evt : List UInt8) : Except Errno (List RxByte) :=
  if rx.length < evt.length then .error .ETIMEDOUT
  else match findEvt rx evt with
    | some i => .ok ((rx.drop i).take evt.length)
    | none => .error .EBADMSG

def sendFrame (env : CmdEnv) (cmd : List UInt8) : EStateM Errno Bus Unit := do
  btifWakeupConsys
  modify fun bus => mcuRun bus env.during
  btifTx env.bursts (stpFrame cmd)

/-- From here on the MCU has command `id`: its whole frame is on the line. -/
def awaitEvt (env : CmdEnv) (id : ℕ) (evt : List UInt8) : EStateM Errno Bus (List RxByte) := do
  modify fun bus => { bus with unanswered := bus.unanswered ++ [id] }
  let rx ← btifRxDrain env.passes rxBufSz
  MonadExcept.ofExcept (scanEvt rx evt)

/-- The body of `wmt_cmd_evt`. -/
def exchange (env : CmdEnv) (cmd evt : List UInt8) : EStateM Errno Bus (List RxByte) := do
  let id := (← get).sent
  modify fun bus => { bus with sent := bus.sent + 1 }
  if env.frameAlloc then
    sendFrame env cmd
    awaitEvt env id evt
  else throw .ENOMEM

/-- One call of `wmt_cmd_evt`, as it happened. -/
structure Call where
  cmd : List UInt8
  evt : List UInt8
  env : CmdEnv
  start : Bus
  result : Except Errno (List RxByte)

/-- The call returned 0. -/
def Call.Acked (c : Call) : Prop := ∃ rx, c.result = .ok rx

/-- The AP: what the environment will decide in the exchanges to come, the block, the calls of
    `wmt_cmd_evt` made so far, whether `kmalloc` will give the fragment buffers to come, and what
    `request_firmware` finds under a name. -/
structure Ap where
  env : Stream' CmdEnv
  bus : Bus
  calls : List Call
  fragAlloc : Stream' Bool
  firmware : String → Except Errno (List UInt8)

def wmtCmdEvt (cmd evt : List UInt8) : EStateM Errno Ap Unit := fun s =>
  match exchange s.env.head cmd evt s.bus with
  | .ok rx bus =>
    .ok () { s with
      env := s.env.tail, bus := bus, calls := s.calls ++ [⟨cmd, evt, s.env.head, s.bus, .ok rx⟩] }
  | .error e bus =>
    .error e { s with
      env := s.env.tail, bus := bus, calls := s.calls ++ [⟨cmd, evt, s.env.head, s.bus, .error e⟩] }

/-- Commands sent one after another, whatever becomes of each: the loop of `wmt_run_script`. -/
def sendEach : List (List UInt8 × List UInt8) → EStateM Errno Ap Unit
  | [] => pure ()
  | c :: cs => do
    let _ ← attempt (wmtCmdEvt c.1 c.2)
    sendEach cs

/-! ### The frame as a self-delimiting code -/

/-- A reader of the stream: header (byte0 = 0x80, length = byte1's low nibble and byte2, task index
    = byte1's high nibble), payload, two CRC bytes. -/
def stpParse : List UInt8 → Option ((ℕ × List UInt8) × List UInt8)
  | b0 :: b1 :: b2 :: _ :: rest =>
    let len := (b1.toNat &&& 0x0f) <<< 8 ||| b2.toNat
    if b0 = 0x80 ∧ len + stpCrcSize ≤ rest.length then
      some ((b1.toNat >>> 4, rest.take len), rest.drop (len + stpCrcSize))
    else none
  | _ => none

theorem or_nibble {k : ℕ} (h : k < 16) : wmtTaskIndx <<< 4 ||| k = 64 + k := by
  rw [wmtTaskIndx, Nat.shiftLeft_eq, ← Nat.two_pow_add_eq_or_of_lt (i := 4) h 4]

theorem header_byte1 {n : ℕ} (h : n < 4096) :
    (UInt8.ofNat (wmtTaskIndx <<< 4 ||| (n >>> 8 &&& 0x0f))).toNat = 64 + n / 256 := by
  have hhi : n >>> 8 &&& 0x0f = n / 256 := by
    rw [Nat.shiftRight_eq_div_pow, Nat.and_two_pow_sub_one_eq_mod _ 4]
    omega
  rw [hhi, or_nibble (by omega), UInt8.toNat_ofNat']
  omega

theorem header_byte2 (n : ℕ) : (UInt8.ofNat (n &&& 0xff)).toNat = n % 256 := by
  rw [Nat.and_two_pow_sub_one_eq_mod _ 8, UInt8.toNat_ofNat']
  omega

/-- The 4+8 bit split of the length is undone by the reader. -/
theorem header_length {n : ℕ} (h : n < 4096) :
    ((64 + n / 256) &&& 0x0f) <<< 8 ||| n % 256 = n := by
  have hlow : (64 + n / 256) &&& 0x0f = n / 256 := by
    rw [Nat.and_two_pow_sub_one_eq_mod _ 4]
    omega
  rw [hlow, Nat.shiftLeft_eq, Nat.mul_comm,
    ← Nat.two_pow_add_eq_or_of_lt (i := 8) (Nat.mod_lt _ (by norm_num)) (n / 256)]
  omega

theorem header_task {n : ℕ} (h : n < 4096) : (64 + n / 256) >>> 4 = wmtTaskIndx := by
  rw [Nat.shiftRight_eq_div_pow, wmtTaskIndx]
  omega

/-- The reader cuts exactly the command and its task index off the front of any stream. -/
theorem stpParse_stpFrame (cmd rest : List UInt8) (h : cmd.length < 4096) :
    stpParse (stpFrame cmd ++ rest) = some ((wmtTaskIndx, cmd), rest) := by
  simp only [stpFrame, List.cons_append, List.nil_append, List.append_assoc, stpParse,
    header_byte1 h, header_byte2, header_length h, header_task h, stpCrcSize]
  rw [if_pos ⟨trivial, by simp⟩, List.take_left, ← List.drop_drop, List.drop_left]
  rfl

/-- STP mand-mode framing of the commands the driver can send. -/
def stpCode : Code (ℕ × List UInt8) UInt8 where
  enc m := stpFrame m.2
  dec := stpParse
  Valid m := m.1 = wmtTaskIndx ∧ m.2.length < 4096
  enc_ne_nil _ := by simp [stpFrame]
  dec_enc := by
    rintro ⟨_, cmd⟩ rest ⟨rfl, h⟩
    exact stpParse_stpFrame cmd rest h

/-! ### What an exchange writes -/

theorem mcuStep_tx (bus : Bus) (act : McuAct) : (mcuStep bus act).tx = bus.tx := by
  cases act with
  | answer k bytes => rw [mcuStep]; split <;> rfl
  | deliver => rw [mcuStep]; split <;> rfl

theorem mcuRun_tx (acts : List McuAct) : ∀ bus : Bus, (mcuRun bus acts).tx = bus.tx := by
  induction acts with
  | nil => intro bus; rfl
  | cons act acts ih => intro bus; rw [mcuRun, List.foldl_cons]; exact (ih _).trans (mcuStep_tx bus act)

theorem btifRxDrainLoop_tx : ∀ (ps : List RxPass) (room : ℕ) (rx : List RxByte) (bus : Bus),
    (btifRxDrainLoop ps room rx bus).2.tx = bus.tx
  | [], _, _, _ => by rw [btifRxDrainLoop]
  | _ :: _, 0, _, _ => rfl
  | p :: ps, room + 1, rx, bus => by
      rw [btifRxDrainLoop]
      split
      · exact (btifRxDrainLoop_tx ps room _ _).trans (mcuRun_tx p.acts bus)
      · split
        · exact mcuRun_tx p.acts bus
        · exact (btifRxDrainLoop_tx ps (room + 1) _ _).trans (mcuRun_tx p.acts bus)

/-- The transmit-side accesses of an exchange: the wake-up pulse and the bursts of the frame. -/
def exchangeTx (env : CmdEnv) (cmd : List UInt8) : List TxEvent :=
  if env.frameAlloc then
    [.wak false, .wak true] ++ (btifTxLoop env.bursts (stpFrame cmd).length 0 (stpFrame cmd)).1
  else []

theorem sendFrame_tx (env : CmdEnv) (cmd : List UInt8) (bus : Bus) :
    (finalState (sendFrame env cmd) bus).tx = bus.tx ++ ([.wak false, .wak true] ++
      (btifTxLoop env.bursts (stpFrame cmd).length 0 (stpFrame cmd)).1) := by
  simp only [finalState, sendFrame, bind_apply, modify_apply, btifWakeupConsys, btifTx]
  split_ifs <;> simp only [pure_apply, throw_apply, mcuRun_tx, List.append_assoc]

theorem awaitEvt_tx (env : CmdEnv) (id : ℕ) (evt : List UInt8) (bus : Bus) :
    (finalState (awaitEvt env id evt) bus).tx = bus.tx := by
  have htx := btifRxDrainLoop_tx env.passes rxBufSz []
    { bus with unanswered := bus.unanswered ++ [id] }
  simp only [awaitEvt, btifRxDrain, finalState_bind, outcome, modify_apply, modifyGet_apply,
    finalState_ofExcept]
  exact htx

theorem exchange_tx (env : CmdEnv) (cmd evt : List UInt8) (bus : Bus) :
    (finalState (exchange env cmd evt) bus).tx = bus.tx ++ exchangeTx env cmd := by
  unfold exchange exchangeTx
  by_cases ha : env.frameAlloc
  · simp only [if_pos ha, finalState_bind, outcome_get, finalState_get, outcome_modify,
      finalState_modify]
    split
    · rw [awaitEvt_tx, sendFrame_tx]
    · rw [sendFrame_tx]
  · simp [finalState, bind_apply, if_neg ha]

theorem wmtCmdEvt_state (cmd evt : List UInt8) (s : Ap) :
    finalState (wmtCmdEvt cmd evt) s = { s with
      env := s.env.tail
      bus := finalState (exchange s.env.head cmd evt) s.bus
      calls := s.calls ++ [⟨cmd, evt, s.env.head, s.bus,
        outcome (exchange s.env.head cmd evt) s.bus⟩] } := by
  unfold finalState outcome wmtCmdEvt
  cases exchange s.env.head cmd evt s.bus <;> rfl

/-! ### A stream of commands -/

/-- The transmit-side accesses of commands sent one after another. -/
def streamTx : Stream' CmdEnv → List (List UInt8 × List UInt8) → List TxEvent
  | _, [] => []
  | env, c :: cs => exchangeTx env.head c.1 ++ streamTx env.tail cs

theorem sendEach_tx : ∀ (cmds : List (List UInt8 × List UInt8)) (s : Ap),
    (finalState (sendEach cmds) s).bus.tx = s.bus.tx ++ streamTx s.env cmds := by
  intro cmds
  induction cmds with
  | nil =>
    intro s
    exact (List.append_nil _).symm
  | cons c cs ih =>
    intro s
    have hout : ∃ r, outcome (attempt (wmtCmdEvt c.1 c.2)) s = .ok r := by
      unfold outcome attempt
      cases wmtCmdEvt c.1 c.2 s <;> exact ⟨_, rfl⟩
    obtain ⟨r, hr⟩ := hout
    simp only [sendEach, finalState_bind, hr, finalState_attempt, streamTx]
    rw [ih, wmtCmdEvt_state]
    simp only [exchange_tx, List.append_assoc]

/-- The commands that got a frame, and so were sent at all. -/
def framed : Stream' CmdEnv → List (List UInt8 × List UInt8) → List (List UInt8 × List UInt8)
  | _, [] => []
  | env, c :: cs =>
    if env.head.frameAlloc then c :: framed env.tail cs else framed env.tail cs

theorem framed_all : ∀ (cmds : List (List UInt8 × List UInt8)) (env : Stream' CmdEnv),
    (∀ i < cmds.length, (env.get i).frameAlloc = true) → framed env cmds = cmds := by
  intro cmds
  induction cmds with
  | nil =>
    intro env _
    rfl
  | cons c cs ih =>
    intro env h
    have hhead : env.head.frameAlloc = true := h 0 (by simp)
    rw [framed, if_pos hhead, ih env.tail fun i hi => h (i + 1) (by simpa using hi)]

theorem mem_of_mem_framed : ∀ {cmds : List (List UInt8 × List UInt8)} {env : Stream' CmdEnv}
    {c : List UInt8 × List UInt8}, c ∈ framed env cmds → c ∈ cmds := by
  intro cmds
  induction cmds with
  | nil =>
    intro env c h
    exact h
  | cons d cs ih =>
    intro env c h
    rw [framed] at h
    split at h
    · rcases List.mem_cons.mp h with rfl | h
      · exact List.mem_cons_self ..
      · exact List.mem_cons_of_mem _ (ih h)
    · exact List.mem_cons_of_mem _ (ih h)

/-- In none of the exchanges does `btif_tx` time out. -/
def NoTxTimeout (env : Stream' CmdEnv) (cmds : List (List UInt8 × List UInt8)) : Prop :=
  ∀ i, ∀ h : i < cmds.length, (env.get i).frameAlloc = true →
    (btifTxLoop (env.get i).bursts (stpFrame cmds[i].1).length 0 (stpFrame cmds[i].1)).2 = true

/-- The bytes written are the frames, one after another. -/
theorem thrBytes_streamTx : ∀ (cmds : List (List UInt8 × List UInt8)) (env : Stream' CmdEnv),
    NoTxTimeout env cmds →
      thrBytes (streamTx env cmds) = (framed env cmds).flatMap (stpFrame ·.1) := by
  intro cmds
  induction cmds with
  | nil =>
    intro env _
    rfl
  | cons c cs ih =>
    intro env h
    have htail : NoTxTimeout env.tail cs := fun i hi hf => h (i + 1) (by simpa using hi) hf
    rw [streamTx, framed, thrBytes_append, ih env.tail htail, exchangeTx]
    split
    · next hf =>
      have hbytes := btifTxLoop_complete env.head.bursts _ 0 (stpFrame c.1) le_rfl (h 0 (by simp) hf)
      rw [thrBytes_append, hbytes, List.flatMap_cons]
      rfl
    · rfl

theorem paced_streamTx : ∀ (cmds : List (List UInt8 × List UInt8)) (env : Stream' CmdEnv),
    Paced 0 (streamTx env cmds) := by
  intro cmds
  induction cmds with
  | nil =>
    intro env
    trivial
  | cons c cs ih =>
    intro env
    refine paced_append ?_ (ih env.tail)
    rw [exchangeTx]
    split
    · exact paced_btifTxLoop env.head.bursts _ 0 (stpFrame c.1)
    · trivial

/-- Whatever commands are sent one after another, the bytes on the line are read back as exactly
    the commands that got a frame, in order, each under the WMT task index and with nothing left
    over; and between two observations of TEMT no more than a FIFO's worth is written. -/
theorem stp_stream_roundtrip (s : Ap) (cmds : List (List UInt8 × List UInt8))
    (hlen : ∀ c ∈ cmds, 1 ≤ c.1.length ∧ c.1.length ≤ 4095) (htx : NoTxTimeout s.env cmds) :
    ∃ tx, (finalState (sendEach cmds) s).bus.tx = s.bus.tx ++ tx ∧
      stpCode.parse (thrBytes tx) = some ((framed s.env cmds).map fun c => (4, c.1)) ∧
      ((∀ i < cmds.length, (s.env.get i).frameAlloc = true) →
        stpCode.parse (thrBytes tx) = some (cmds.map fun c => (4, c.1))) ∧
      ∀ pre seg post, tx = pre ++ seg ++ post → .lsr true ∉ seg → (thrBytes seg).length ≤ 16 := by
  have hparse : stpCode.parse (thrBytes (streamTx s.env cmds)) =
      some ((framed s.env cmds).map fun c => (4, c.1)) := by
    have hvalid : ∀ m ∈ (framed s.env cmds).map fun c => (wmtTaskIndx, c.1), stpCode.Valid m := by
      intro m hm
      obtain ⟨c, hc, rfl⟩ := List.mem_map.mp hm
      exact ⟨rfl, Nat.lt_succ_of_le (hlen c (mem_of_mem_framed hc)).2⟩
    have hcode := parse_encode stpCode _ hvalid
    rw [List.flatMap_map] at hcode
    rw [thrBytes_streamTx cmds s.env htx]
    exact hcode
  refine ⟨streamTx s.env cmds, sendEach_tx cmds s, hparse, ?_, ?_⟩
  · intro hall
    rw [hparse, framed_all cmds s.env hall]
  · intro pre seg post h
    exact paced_segment (h ▸ paced_streamTx cmds s.env)

/-- WMT_QUERY_STP_CMD twice over a line that is ready after two reads. -/
theorem stp_stream_roundtrip_query :
    let env : CmdEnv := ⟨true, fun _ => ⟨2, 9⟩, [], []⟩
    let s : Ap := ⟨Stream'.const env, ⟨[], 0, [], [], []⟩, [], Stream'.const true,
      fun _ => .error .ENODEV⟩
    let cmds : List (List UInt8 × List UInt8) := List.replicate 2 ([0x01, 0x04, 0x01, 0x00, 0x04], [])
    ∃ tx, (finalState (sendEach cmds) s).bus.tx = s.bus.tx ++ tx ∧
      stpCode.parse (thrBytes tx) = some ((framed s.env cmds).map fun c => (4, c.1)) ∧
      ((∀ i < cmds.length, (s.env.get i).frameAlloc = true) →
        stpCode.parse (thrBytes tx) = some (cmds.map fun c => (4, c.1))) ∧
      ∀ pre seg post, tx = pre ++ seg ++ post → .lsr true ∉ seg → (thrBytes seg).length ≤ 16 :=
  stp_stream_roundtrip _ _ (by decide) fun i _ _ =>
    (btifTxLoop_ready _ _ 0 _ le_rfl).mpr fun _ _ => (by decide : 2 ≤ 9)

end GeminiLinux.Wmt
