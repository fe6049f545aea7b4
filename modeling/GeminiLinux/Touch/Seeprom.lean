import GeminiLinux.Lib.Flash
import GeminiLinux.Lib.Prog
import GeminiLinux.Kernel.Errno

/-! The SEEPROM behind the touch controller, as the vendor's driver reaches it: an I2C packet carries a
    header of sixteen bytes and the bytes of one SPI command. Nothing is erased or programmed without a
    write enable in front of it, nor while the status register protects the array, and every command
    that changes the array takes the enable away again.

        [ 0a 00 00 00 | n | delay | 0 | 0 | r | delay ] [ command: n bytes ]  ──▶  r bytes back

    The calls come with their outcomes (`Xfer`): an I2C call may fail, a command that changes something
    may be missed whatever the call returns (the chip is still busy with the one before), and a status
    read may find anything. A read that the bus completes gives what the array holds: a read command is
    not missed, and no packet comes twice. -/

namespace GeminiLinux.Solomon
open Prog Flash

def seepromIdMx25v1006e : ℕ := 0x00c22011
def seepromIdMx25u1001e : ℕ := 0x00c22531

/-- The size of the driver's packet buffers (`ws_wd`). -/
def bufSize : ℕ := 1024

/-- How often `ds16_seeprom_wait_bsyclr` reads the status. -/
def busyTries : ℕ := 5000

/-- The sector of both parts. -/
def sectorSize : ℕ := 4096

/-! ### The chip -/

/-- A part: its JEDEC ID, three bytes, and the size of its page. -/
structure Part where
  id : ℕ
  page : ℕ
  id_lt : id < 2 ^ 24
  page_pos : 0 < page

def mx25v1006e : Part := ⟨seepromIdMx25v1006e, 256, by decide, by decide⟩
def mx25u1001e : Part := ⟨seepromIdMx25u1001e, 32, by decide, by decide⟩

structure Chip where
  mem : ℕ → UInt8
  wel : Bool
  protect : UInt8
  last : List UInt8

/-- The address of a command. -/
def addrOf (args : List UInt8) : ℕ :=
  2 ^ 16 * (args.getD 0 0).toNat + 2 ^ 8 * (args.getD 1 0).toNat + (args.getD 2 0).toNat

/-- Whether the array may be changed now. -/
def Chip.enabled (chip : Chip) : Bool := chip.wel && chip.protect &&& 0x0c == 0

/-- What a command does to the chip. -/
def Chip.exec (part : Part) (chip : Chip) : List UInt8 → Chip
  | [] => chip
  | op :: args =>
    if op = 0x06 then { chip with wel := true }
    else if op = 0x01 then
      if chip.wel then { chip with wel := false, protect := args.getD 0 0 } else chip
    else if chip.enabled then
      if op = 0x02 then { chip with
        wel := false, mem := pageProgram norCell part.page chip.mem (addrOf args) (args.drop 3) }
      else if op = 0x20 then { chip with
        wel := false, mem := erase norCell chip.mem (addrOf args / sectorSize * sectorSize) sectorSize }
      else if op = 0x60 then { chip with wel := false, mem := fun _ => norCell.blank }
      else chip
    else chip

/-- The bytes that the last command gives back. -/
def Chip.reply (part : Part) (chip : Chip) (status : UInt8) (i : ℕ) : UInt8 :=
  match chip.last with
  | [] => 0
  | op :: args =>
    if op = 0x03 then chip.mem (addrOf args + i)
    else if op = 0x05 then status
    else if op = 0x9f then UInt8.ofNat (part.id >>> (8 * (2 - i)))
    else 0

/-- One I2C call: what it returns, whether a command in it that changes the chip is acted on, and what a
    status read finds. -/
structure Xfer where
  result : Except Errno Unit
  taken : Bool
  status : UInt8

/-- The values an `err` of the driver takes below zero: an I2C error, the `-3` of a verify and
    `ERROR_SYSTEM_FAIL`. -/
inductive Err where
  | i2c (e : Errno)
  | mismatch
  | systemFail
  deriving DecidableEq

/-- The chip, what the bus will do, what lies in memory behind a section's content, and whether a packet
    ever outgrew its buffer or a byte behind the content was read. -/
structure Dev where
  chip : Chip
  i2c : Stream' Xfer
  behind : ℕ → UInt8
  overrun : Bool
  overread : Bool

abbrev DevM := EStateM Err Dev

/-! ### Micro commands -/

/-- The header: the length of the command and of the answer; the delays are zero. -/
def ucmdHeader (wNbyte rNbyte : ℕ) : List UInt8 :=
  [0x0a, 0x00, 0x00, 0x00, UInt8.ofNat (wNbyte &&& 0x00ff), UInt8.ofNat ((wNbyte &&& 0xff00) >>> 8), 0x00, 0x00,
   0x00, 0x00, 0x00, 0x00, UInt8.ofNat (rNbyte &&& 0x00ff), UInt8.ofNat ((rNbyte &&& 0xff00) >>> 8), 0x00, 0x00]

/-- The command that a packet carries, by its header. -/
def payload (pkt : List UInt8) : List UInt8 :=
  (pkt.drop 16).take ((pkt.getD 4 0).toNat + 2 ^ 8 * (pkt.getD 5 0).toNat)

variable (part : Part)

def i2cMasterSend (pkt : List UInt8) : DevM Unit := fun d =>
  let d' := { d with
    chip := { (if d.i2c.head.taken then d.chip.exec part (payload pkt) else d.chip) with last := payload pkt }
    i2c := d.i2c.tail
    overrun := d.overrun || decide (bufSize < pkt.length) }
  match d.i2c.head.result with
  | .ok _ => .ok () d'
  | .error e => .error (.i2c e) d'

def i2cMasterRecv (n : ℕ) : DevM (List UInt8) := fun d =>
  match d.i2c.head.result with
  | .ok _ => .ok ((List.range n).map (d.chip.reply part d.i2c.head.status)) { d with i2c := d.i2c.tail }
  | .error e => .error (.i2c e) { d with i2c := d.i2c.tail }

def generalUcmdWrite (dbuf : List UInt8) : DevM Unit :=
  i2cMasterSend part (ucmdHeader dbuf.length 0 ++ dbuf)

def generalUcmdRead (wbuf : List UInt8) (rNbyte : ℕ) : DevM (List UInt8) := do
  i2cMasterSend part (ucmdHeader wbuf.length rNbyte ++ wbuf)
  i2cMasterRecv part rNbyte

/-- An address in a command, three bytes with the highest one first. -/
def addBytes (add : ℕ) : List UInt8 :=
  [UInt8.ofNat ((add &&& 0xff0000) >>> 16), UInt8.ofNat ((add &&& 0x00ff00) >>> 8), UInt8.ofNat (add &&& 0x0000ff)]

def readid : DevM ℕ := do
  let rsWd ← generalUcmdRead part [0x9f] 3
  return ((rsWd.getD 0 0).toNat <<< 16) ||| ((rsWd.getD 1 0).toNat <<< 8) ||| (rsWd.getD 2 0).toNat

def read (add nbyte : ℕ) : DevM (List UInt8) := generalUcmdRead part (0x03 :: addBytes add) nbyte

def wren : DevM Unit := generalUcmdWrite part [0x06]

def pp (add : ℕ) (wbuf : List UInt8) : DevM Unit := generalUcmdWrite part (0x02 :: addBytes add ++ wbuf)

def rdsr : DevM UInt8 := do
  let rd ← generalUcmdRead part [0x05] 2
  return rd.getD 0 0

def wrsr (data : UInt8) : DevM Unit := generalUcmdWrite part [0x01, data]

def se (add : ℕ) : DevM Unit := generalUcmdWrite part (0x20 :: addBytes add)

def ce : DevM Unit := generalUcmdWrite part [0x60]

/-- `ds16_seeprom_wait_bsyclr`: the loop ends without an error after its last try, too. -/
def waitBsyclr : ℕ → DevM Unit
  | 0 => pure ()
  | n + 1 => do
    let rd ← rdsr part
    if rd &&& 0x03 = 0x00 then pure () else waitBsyclr n

/-! ### Erasing, reading, writing -/

/-- `m_SEEPROM_ReadMax_Length`, `m_SEEPROM_WriteMax_Length`, `m_SEEPROM_Align_Sector`. -/
structure Sizes where
  readMaxLength : ℕ
  writeMaxLength : ℕ
  alignSector : ℕ

/-- The switch of `seeprom_download_initialize`. -/
def sizesOf (id : ℕ) : Sizes :=
  if id = seepromIdMx25v1006e then ⟨1024, 256, 4096⟩
  else if id = seepromIdMx25u1001e then ⟨1024, 32, 4096⟩
  else ⟨1024, 256, 4096⟩

def seepromDownloadInitialize : DevM Sizes := do
  let id ← readid part
  return sizesOf id

/-- `ds16_seeprom_erase_sector_*`: the two are the same. -/
def eraseSector (add : ℕ) : DevM Unit := do
  wren part
  se part add
  waitBsyclr part busyTries

/-- `ds16_seeprom_erase_chip_*`, likewise. -/
def eraseChip : DevM Unit := do
  wren part
  ce part
  waitBsyclr part busyTries

def enableProtect : DevM Unit := do
  wren part
  wrsr part 0x0c
  let _ ← rdsr part

def disableProtect : DevM Unit := do
  wren part
  wrsr part 0x02
  let _ ← rdsr part

variable (g : Sizes)

def eraseNsector (st sectorCnt : ℕ) : DevM Unit :=
  (List.range sectorCnt).forM fun i => eraseSector part (st + g.alignSector * i)

/-- `for (data_length = ..; data_length > 0; data_length -= most)`, with `add_index` counting: the offset
    and the length of each piece. -/
def pieces (most addIndex dataLength : ℕ) : List (ℕ × ℕ) :=
  if 0 < dataLength ∧ 0 < most then
    (addIndex * most, min most dataLength) :: pieces most (addIndex + 1) (dataLength - most)
  else []
termination_by dataLength

def readPieces (st : ℕ) : List (ℕ × ℕ) → DevM (List UInt8)
  | [] => pure []
  | (off, len) :: rest => do
    let data ← read part (st + off) len
    let more ← readPieces st rest
    return data ++ more

def readNbyte (st nbyte : ℕ) : DevM (List UInt8) := readPieces part st (pieces g.readMaxLength 0 nbyte)

/-- `memcpy` from `data_buf + off`. -/
def fragment (dataBuf : List UInt8) (off len : ℕ) : DevM (List UInt8) := modifyGet fun d =>
  ((List.range len).map fun i => dataBuf.getD (off + i) (d.behind (off + i)),
    { d with overread := d.overread || decide (dataBuf.length < off + len) })

/-- One page program with its enable and its wait. -/
def pageWrite (dataBuf : List UInt8) (add off len : ℕ) : DevM Unit := do
  wren part
  let data ← fragment dataBuf off len
  pp part add data
  waitBsyclr part busyTries

def writePieces (dataBuf : List UInt8) (targetAdd first : ℕ) : List (ℕ × ℕ) → DevM Unit
  | [] => pure ()
  | (off, len) :: rest => do
    pageWrite part dataBuf (targetAdd + off) (first + off) len
    writePieces dataBuf targetAdd first rest

/-- Up to the end of the page that `st` lies in, if it does not begin there. -/
def firstSendLength (st : ℕ) : ℕ :=
  if st % g.writeMaxLength ≠ 0 then g.writeMaxLength - st % g.writeMaxLength else 0

/-- The first branch of the write: all of that fragment, however long the data are. -/
def writeFirst (st : ℕ) (dataBuf : List UInt8) : DevM Unit :=
  if firstSendLength g st ≠ 0 then pageWrite part dataBuf st 0 (firstSendLength g st) else pure ()

/-- `ds16_seeprom_write_nbyte_*`: the two are the same. -/
def writeNbyte (st : ℕ) (dataBuf : List UInt8) (nbyte : ℕ) : DevM Unit := do
  writeFirst part g st dataBuf
  writePieces part dataBuf (st + firstSendLength g st) (firstSendLength g st)
    (pieces g.writeMaxLength 0 (nbyte - firstSendLength g st))

/-- `ds16_seeprom_verify`. -/
def verify (address : ℕ) (content : List UInt8) (byteCnt : ℕ) : DevM Unit := do
  let verifyData ← readNbyte part g address byteCnt
  let wanted ← fragment content 0 byteCnt
  if wanted = verifyData then pure () else throw .mismatch

/-! ### Packets and addresses -/

/-- The chip is given the command that the driver packed. -/
theorem payload_ucmdHeader (wbuf : List UInt8) (rNbyte : ℕ) (h : wbuf.length < 2 ^ 16) :
    payload (ucmdHeader wbuf.length rNbyte ++ wbuf) = wbuf := by
  have hlow : wbuf.length &&& 0x00ff = wbuf.length % 2 ^ 8 := Nat.and_two_pow_sub_one_eq_mod _ 8
  have hhigh : (wbuf.length &&& 0xff00) >>> 8 = wbuf.length >>> 8 := by
    have hmask : (0xff00 : ℕ) >>> 8 = 2 ^ 8 - 1 := rfl
    rw [Nat.shiftRight_and_distrib, hmask, Nat.and_two_pow_sub_one_eq_mod, Nat.shiftRight_eq_div_pow,
      Nat.mod_eq_of_lt (by omega)]
  have hlen : (UInt8.ofNat (wbuf.length &&& 0x00ff)).toNat +
      2 ^ 8 * (UInt8.ofNat ((wbuf.length &&& 0xff00) >>> 8)).toNat = wbuf.length := by
    rw [hlow, hhigh, Nat.shiftRight_eq_div_pow, UInt8.toNat_ofNat', UInt8.toNat_ofNat']
    omega
  show wbuf.take ((UInt8.ofNat (wbuf.length &&& 0x00ff)).toNat +
    2 ^ 8 * (UInt8.ofNat ((wbuf.length &&& 0xff00) >>> 8)).toNat) = wbuf
  rw [hlen, List.take_length]

theorem addrOf_addBytes {add : ℕ} (h : add < 2 ^ 24) (rest : List UInt8) : addrOf (addBytes add ++ rest) = add := by
  have hmask (k : ℕ) : (0xff <<< k : ℕ) >>> k = 2 ^ 8 - 1 := Nat.shiftLeft_shiftRight 0xff k
  have h2 : (add &&& 0xff0000) >>> 16 = add / 2 ^ 16 := by
    rw [Nat.shiftRight_and_distrib, show (0xff0000 : ℕ) = 0xff <<< 16 from rfl, hmask,
      Nat.and_two_pow_sub_one_eq_mod, Nat.shiftRight_eq_div_pow, Nat.mod_eq_of_lt (by omega)]
  have h1 : (add &&& 0x00ff00) >>> 8 = add / 2 ^ 8 % 2 ^ 8 := by
    rw [Nat.shiftRight_and_distrib, show (0x00ff00 : ℕ) = 0xff <<< 8 from rfl, hmask,
      Nat.and_two_pow_sub_one_eq_mod, Nat.shiftRight_eq_div_pow]
  have h0 : add &&& 0x0000ff = add % 2 ^ 8 := Nat.and_two_pow_sub_one_eq_mod _ 8
  simp only [addrOf, addBytes, List.cons_append, List.getD_cons_zero, List.getD_cons_succ, h2, h1, h0,
    UInt8.toNat_ofNat']
  omega

theorem drop_addBytes (add : ℕ) (rest : List UInt8) : (addBytes add ++ rest).drop 3 = rest := rfl

/-! ### What a program may change -/

/-- Only the cells in `S` change, and no buffer is left: what every program is to keep to. -/
structure Touches (S : Set ℕ) (d d' : Dev) : Prop where
  mem : Set.EqOn d'.chip.mem d.chip.mem Sᶜ
  overrun : d'.overrun = d.overrun
  overread : d'.overread = d.overread

instance {S : Set ℕ} : Std.Refl (Touches S) := ⟨fun _ => ⟨fun _ _ => rfl, rfl, rfl⟩⟩

instance {S : Set ℕ} : IsTrans Dev (Touches S) := ⟨fun _ _ _ h h' =>
  ⟨fun _ hx => (h'.mem hx).trans (h.mem hx), h'.overrun.trans h.overrun, h'.overread.trans h.overread⟩⟩

theorem Touches.mono {S T : Set ℕ} (hST : S ⊆ T) {d d' : Dev} (h : Touches S d d') : Touches T d d' :=
  ⟨fun _ hx => h.mem fun hS => hx (hST hS), h.overrun, h.overread⟩

/-- What touches no cell keeps what is known of the array. -/
theorem mem_ends {α : Type} {p : DevM α} (F : (ℕ → UInt8) → Prop) (h : Within (Touches ∅) p) :
    Ends (F ·.chip.mem) p (fun _ d => F d.chip.mem) fun _ d => F d.chip.mem := by
  refine .of_within h fun d d' hd hd' => ?_
  have hmem := hd'.mem
  rw [Set.compl_empty, Set.eqOn_univ] at hmem
  rwa [hmem]

section Frames

variable {part g}

/-- A command that neither programs nor erases leaves the array alone. -/
theorem exec_mem {op : UInt8} (args : List UInt8) (chip : Chip) (hpp : op ≠ 0x02) (hse : op ≠ 0x20)
    (hce : op ≠ 0x60) : (chip.exec part (op :: args)).mem = chip.mem := by
  rw [Chip.exec, if_neg hpp, if_neg hse, if_neg hce]
  split_ifs <;> rfl

theorem exec_pp {add : ℕ} {data : List UInt8} (chip : Chip) (hadd : add < 2 ^ 24)
    (hfit : add % part.page + data.length ≤ part.page) :
    chip.exec part (0x02 :: addBytes add ++ data) =
      if chip.enabled then { chip with wel := false, mem := program norCell chip.mem add data } else chip := by
  rw [List.cons_append, Chip.exec, if_neg (by decide), if_neg (by decide), if_pos rfl, addrOf_addBytes hadd,
    drop_addBytes, pageProgram_eq_program norCell chip.mem part.page_pos hfit]

theorem exec_se {add : ℕ} (chip : Chip) (hadd : add < 2 ^ 24) : chip.exec part (0x20 :: addBytes add) =
    if chip.enabled then { chip with
      wel := false, mem := erase norCell chip.mem (add / sectorSize * sectorSize) sectorSize } else chip := by
  have haddr : addrOf (addBytes add) = add := by
    have h := addrOf_addBytes hadd []
    rwa [List.append_nil] at h
  rw [Chip.exec, if_neg (by decide), if_neg (by decide)]
  by_cases henabled : chip.enabled
  · rw [if_pos henabled, if_pos henabled, if_neg (by decide), if_pos rfl, haddr]
  · rw [if_neg henabled, if_neg henabled]

/-- A packet that fits its buffer and whose command changes nothing outside `S`. -/
theorem within_send {S : Set ℕ} {pkt : List UInt8} (hlen : pkt.length ≤ bufSize)
    (h : ∀ chip : Chip, Set.EqOn (chip.exec part (payload pkt)).mem chip.mem Sᶜ) :
    Within (Touches S) (i2cMasterSend part pkt) := by
  intro d
  have hmem : Set.EqOn (if d.i2c.head.taken then d.chip.exec part (payload pkt) else d.chip).mem d.chip.mem Sᶜ := by
    split_ifs
    · exact h _
    · exact Set.eqOn_refl _ _
  have hover : (d.overrun || decide (bufSize < pkt.length)) = d.overrun := by
    rw [decide_eq_false (by omega), Bool.or_false]
  unfold finalState i2cMasterSend
  cases d.i2c.head.result <;> exact ⟨hmem, hover, rfl⟩

theorem within_recv {S : Set ℕ} (n : ℕ) : Within (Touches S) (i2cMasterRecv part n) := by
  intro d
  unfold finalState i2cMasterRecv
  cases d.i2c.head.result <;> exact ⟨fun _ _ => rfl, rfl, rfl⟩

@[simp] theorem length_ucmdHeader (wNbyte rNbyte : ℕ) : (ucmdHeader wNbyte rNbyte).length = 16 := rfl

@[simp] theorem length_addBytes (add : ℕ) : (addBytes add).length = 3 := rfl

/-- A command with another operation than the three that change the array. -/
theorem within_harmless {S : Set ℕ} {op : UInt8} {args : List UInt8} (rNbyte : ℕ) (hlen : args.length < 1000)
    (hpp : op ≠ 0x02) (hse : op ≠ 0x20) (hce : op ≠ 0x60) :
    Within (Touches S) (i2cMasterSend part (ucmdHeader (op :: args).length rNbyte ++ op :: args)) := by
  refine within_send ?_ fun chip => ?_
  · rw [List.length_append, length_ucmdHeader, List.length_cons, bufSize]
    omega
  · rw [payload_ucmdHeader _ _ (by rw [List.length_cons]; omega), exec_mem args chip hpp hse hce]
    exact Set.eqOn_refl _ _

theorem within_wren (S : Set ℕ) : Within (Touches S) (wren part) :=
  within_harmless 0 (by decide) (by decide) (by decide) (by decide)

theorem within_rdsr (S : Set ℕ) : Within (Touches S) (rdsr part) :=
  .bind (.bind (within_harmless 2 (by decide) (by decide) (by decide) (by decide)) fun _ => within_recv 2)
    fun _ => .pure _

theorem within_wrsr (S : Set ℕ) (data : UInt8) : Within (Touches S) (wrsr part data) :=
  within_harmless 0 (by simp) (by decide) (by decide) (by decide)

theorem within_readid (S : Set ℕ) : Within (Touches S) (readid part) :=
  .bind (.bind (within_harmless 3 (by decide) (by decide) (by decide) (by decide)) fun _ => within_recv 3)
    fun _ => .pure _

theorem within_seepromDownloadInitialize (S : Set ℕ) : Within (Touches S) (seepromDownloadInitialize part) :=
  .bind (within_readid S) fun _ => .pure _

theorem within_read (S : Set ℕ) (add nbyte : ℕ) : Within (Touches S) (read part add nbyte) :=
  .bind (within_harmless nbyte (by simp) (by decide) (by decide) (by decide)) fun _ => within_recv nbyte

theorem within_waitBsyclr (S : Set ℕ) (n : ℕ) : Within (Touches S) (waitBsyclr part n) := by
  induction n with
  | zero => exact .pure _
  | succ n ih =>
    refine .bind (within_rdsr S) fun rd => ?_
    split_ifs
    · exact .pure _
    · exact ih

theorem within_pp {add : ℕ} {data : List UInt8} (hadd : add < 2 ^ 24) (hlen : 20 + data.length ≤ bufSize)
    (hfit : add % part.page + data.length ≤ part.page) :
    Within (Touches (Set.Ico add (add + data.length))) (pp part add data) := by
  have hcmd : (0x02 :: addBytes add ++ data).length = 4 + data.length := by
    rw [List.length_append, List.length_cons, length_addBytes]
  rw [bufSize] at hlen
  refine within_send ?_ fun chip => ?_
  · rw [List.length_append, length_ucmdHeader, hcmd, bufSize]
    omega
  · rw [payload_ucmdHeader _ _ (by omega), exec_pp chip hadd hfit]
    split_ifs
    · exact program_outside norCell _ _ _
    · exact Set.eqOn_refl _ _

/-- The cells of the sector that `add` lies in. -/
def sectorOf (add : ℕ) : Set ℕ :=
  Set.Ico (add / sectorSize * sectorSize) (add / sectorSize * sectorSize + sectorSize)

theorem within_eraseSector {add : ℕ} (hadd : add < 2 ^ 24) :
    Within (Touches (sectorOf add)) (eraseSector part add) := by
  refine .bind (within_wren _) fun _ => .bind (within_send ?_ fun chip => ?_) fun _ => within_waitBsyclr _ _
  · rw [List.length_append, length_ucmdHeader, List.length_cons, length_addBytes]
    decide
  · rw [payload_ucmdHeader _ _ (by rw [List.length_cons, length_addBytes]; decide), exec_se chip hadd]
    split_ifs
    · exact erase_outside norCell _ _ _
    · exact Set.eqOn_refl _ _

theorem within_eraseChip : Within (Touches Set.univ) (eraseChip part) := by
  refine .bind (within_wren _) fun _ => .bind (within_send ?_ fun chip => ?_) fun _ => within_waitBsyclr _ _
  · decide
  · rw [Set.compl_univ]
    exact Set.eqOn_empty _ _

theorem within_disableProtect (S : Set ℕ) : Within (Touches S) (disableProtect part) :=
  .bind (within_wren S) fun _ => .bind (within_wrsr S 0x02) fun _ => .bind (within_rdsr S) fun _ => .pure _

theorem within_enableProtect (S : Set ℕ) : Within (Touches S) (enableProtect part) :=
  .bind (within_wren S) fun _ => .bind (within_wrsr S 0x0c) fun _ => .bind (within_rdsr S) fun _ => .pure _

/-- A piece that ends where its `most`-sized block does, or before, does not cross a page. -/
theorem fit_of_dvd {most page add len : ℕ} (hmost : 0 < most) (hpage : 0 < page) (hdvd : most ∣ page)
    (hlen : len ≤ most - add % most) : add % page + len ≤ page := by
  obtain ⟨k, rfl⟩ := hdvd
  have hblock : add % (most * k) = add % most + most * (add / most % k) := Nat.mod_mul
  have hlt : add / most % k < k := Nat.mod_lt _ (Nat.pos_of_mul_pos_left hpage)
  have hle : most * (add / most % k) + most ≤ most * k := by
    calc most * (add / most % k) + most = most * (add / most % k + 1) := by ring
      _ ≤ most * k := Nat.mul_le_mul_left most hlt
  have hmod : add % most < most := Nat.mod_lt add hmost
  omega

theorem within_fragment {S : Set ℕ} {dataBuf : List UInt8} {off len : ℕ} (h : off + len ≤ dataBuf.length) :
    Within (Touches S) (fragment dataBuf off len) := by
  intro d
  refine ⟨fun _ _ => rfl, rfl, ?_⟩
  show (d.overread || decide (dataBuf.length < off + len)) = d.overread
  rw [decide_eq_false (by omega), Bool.or_false]

theorem length_fragment {dataBuf : List UInt8} {off len : ℕ} (d : Dev) (data : List UInt8)
    (h : outcome (fragment dataBuf off len) d = .ok data) : data.length = len := by
  cases h
  rw [List.length_map, List.length_range]

theorem within_pageWrite {S : Set ℕ} {dataBuf : List UInt8} {add off len : ℕ} (hadd : add < 2 ^ 24)
    (hread : off + len ≤ dataBuf.length) (hlen : 20 + len ≤ bufSize)
    (hfit : add % part.page + len ≤ part.page) (hS : Set.Ico add (add + len) ⊆ S) :
    Within (Touches S) (pageWrite part dataBuf add off len) := by
  refine .bind (within_wren S) fun _ => .bind_of (within_fragment hread) length_fragment fun data hdata => ?_
  refine .bind ((within_pp hadd (hdata ▸ hlen) (hdata ▸ hfit)).mono fun _ _ h => h.mono ?_) fun _ =>
    within_waitBsyclr S _
  rwa [hdata]

/-- A command that changes nothing leaves the array as it is, and the chip has it for the answer. -/
theorem harmless_ends (m : ℕ → UInt8) {op : UInt8} {args : List UInt8} (rNbyte : ℕ) (hlen : args.length < 1000)
    (hpp : op ≠ 0x02) (hse : op ≠ 0x20) (hce : op ≠ 0x60) :
    Ends (·.chip.mem = m) (i2cMasterSend part (ucmdHeader (op :: args).length rNbyte ++ op :: args))
      (fun _ d => d.chip.last = op :: args ∧ d.chip.mem = m) fun _ d => d.chip.mem = m := by
  intro d hd
  have hpkt : payload (ucmdHeader (op :: args).length rNbyte ++ op :: args) = op :: args :=
    payload_ucmdHeader _ _ (by rw [List.length_cons]; omega)
  have hmem : (if d.i2c.head.taken then d.chip.exec part (op :: args) else d.chip).mem = m := by
    split_ifs
    · rw [exec_mem args d.chip hpp hse hce, hd]
    · exact hd
  unfold i2cMasterSend
  rw [hpkt]
  cases d.i2c.head.result with
  | ok _ => exact ⟨rfl, hmem⟩
  | error e => exact hmem

/-- A read that the bus completes gives what the array holds. -/
theorem read_ends (m : ℕ → UInt8) {add : ℕ} (hadd : add < 2 ^ 24) (nbyte : ℕ) :
    Ends (·.chip.mem = m) (read part add nbyte) (fun data d => data = stretch m add nbyte ∧ d.chip.mem = m)
      fun _ d => d.chip.mem = m := by
  refine .bind (harmless_ends m nbyte (by simp) (by decide) (by decide) (by decide)) fun _ => ?_
  intro d ⟨hlast, hmem⟩
  have haddr : addrOf (addBytes add) = add := by
    have h := addrOf_addBytes hadd []
    rwa [List.append_nil] at h
  have hreply : d.chip.reply part d.i2c.head.status = fun i => m (add + i) := by
    funext i
    rw [Chip.reply, hlast]
    simp only [if_pos, haddr, hmem]
  unfold i2cMasterRecv
  cases d.i2c.head.result with
  | ok _ => exact ⟨by rw [hreply, stretch], hmem⟩
  | error e => exact hmem

/-- Or-ing a number over the low bits is adding it. -/
theorem or_shiftLeft {a k : ℕ} (b : ℕ) (ha : a < 2 ^ k) : a ||| b <<< k = a + 2 ^ k * b := by
  rw [Nat.or_comm, ← Nat.shiftLeft_add_eq_or_of_lt ha, Nat.shiftLeft_eq, Nat.add_comm, Nat.mul_comm]

/-- The three bytes of the ID, put together. -/
theorem or_bytes {id : ℕ} (h : id < 2 ^ 24) :
    ((UInt8.ofNat (id >>> 16)).toNat <<< 16 ||| (UInt8.ofNat (id >>> 8)).toNat <<< 8) ||| (UInt8.ofNat id).toNat =
      id := by
  have hlow : (UInt8.ofNat id).toNat < 2 ^ 8 := UInt8.toNat_lt _
  have hmid : (UInt8.ofNat (id >>> 8)).toNat < 2 ^ 8 := UInt8.toNat_lt _
  rw [Nat.or_comm, Nat.or_comm (_ <<< 16), ← Nat.or_assoc, or_shiftLeft _ hlow, or_shiftLeft _ (by omega),
    UInt8.toNat_ofNat', UInt8.toNat_ofNat', UInt8.toNat_ofNat', Nat.shiftRight_eq_div_pow,
    Nat.shiftRight_eq_div_pow]
  omega

/-- The ID that is read is the part's. -/
theorem readid_ends (m : ℕ → UInt8) : Ends (·.chip.mem = m) (readid part)
    (fun id d => id = part.id ∧ d.chip.mem = m) fun _ d => d.chip.mem = m := by
  refine .bind (I := fun rsWd d => rsWd = [UInt8.ofNat (part.id >>> 16), UInt8.ofNat (part.id >>> 8),
    UInt8.ofNat part.id] ∧ d.chip.mem = m) (.bind (harmless_ends m 3 (by decide) (by decide) (by decide)
      (by decide)) fun _ => ?_) fun rsWd => .pure fun d hd => ⟨?_, hd.2⟩
  · intro d ⟨hlast, hmem⟩
    unfold i2cMasterRecv
    cases d.i2c.head.result with
    | ok _ =>
      refine ⟨?_, hmem⟩
      simp only [Chip.reply, hlast, List.range_succ, List.range_zero, List.nil_append, List.cons_append, List.map_cons,
        List.map_nil]
      rfl
    | error e => exact hmem
  · rw [hd.1]
    exact or_bytes part.id_lt

theorem seepromDownloadInitialize_ends (m : ℕ → UInt8) : Ends (·.chip.mem = m) (seepromDownloadInitialize part)
    (fun g d => g = sizesOf part.id ∧ d.chip.mem = m) fun _ d => d.chip.mem = m :=
  .bind (readid_ends m) fun _ => .pure fun _ hd => ⟨congrArg sizesOf hd.1, hd.2⟩

/-! ### Pieces -/

/-- The pieces begin at multiples of `most`, are no longer than that, and lie within the stretch. -/
theorem mem_pieces {most addIndex dataLength off len : ℕ} (h : (off, len) ∈ pieces most addIndex dataLength) :
    most ∣ off ∧ 0 < len ∧ len ≤ most ∧ addIndex * most ≤ off ∧ off + len ≤ addIndex * most + dataLength := by
  induction addIndex, dataLength using pieces.induct most with
  | case1 k n hpos ih =>
    rw [pieces, if_pos hpos, List.mem_cons] at h
    rcases h with h | h
    · cases h
      exact ⟨Dvd.intro_left k rfl, lt_min hpos.2 hpos.1, min_le_left _ _, le_rfl, Nat.add_le_add_left (min_le_right _ _) _⟩
    · obtain ⟨hdvd, hsome, hlen, hlow, hhigh⟩ := ih h
      rw [Nat.succ_mul] at hlow hhigh
      -- a rest of nothing has no pieces, so `n` is at least `most` here
      have hrest : most ≤ n := by
        by_contra hlt
        rw [Nat.sub_eq_zero_of_le (by omega), pieces, if_neg (by omega)] at h
        cases h
      exact ⟨hdvd, hsome, hlen, by omega, by omega⟩
  | case2 k n hpos =>
    rw [pieces, if_neg hpos] at h
    cases h

/-- A stretch is its first piece and the rest. -/
theorem stretch_split (m : ℕ → UInt8) (most a n : ℕ) :
    stretch m a (min most n) ++ stretch m (a + most) (n - most) = stretch m a n := by
  rcases Nat.le_total most n with h | h
  · rw [min_eq_left h, stretch_append, Nat.add_sub_cancel' h]
  · rw [min_eq_right h, Nat.sub_eq_zero_of_le h, stretch, stretch, List.range_zero, List.map_nil, List.append_nil]

/-- The bytes of the pieces, one after another, are those of the stretch. -/
theorem readPieces_ends (m : ℕ → UInt8) {most : ℕ} (hmost : 0 < most) {st k n : ℕ}
    (hbound : st + k * most + n ≤ 2 ^ 24) :
    Ends (·.chip.mem = m) (readPieces part st (pieces most k n))
      (fun data d => data = stretch m (st + k * most) n ∧ d.chip.mem = m) fun _ d => d.chip.mem = m := by
  induction k, n using pieces.induct most with
  | case1 k n hpos ih =>
    have hnext : st + (k + 1) * most = st + k * most + most := by rw [Nat.succ_mul, Nat.add_assoc]
    have hread : Ends _ (read part (st + k * most) (min most n)) _ _ := read_ends m (by omega) _
    rw [pieces, if_pos hpos, readPieces]
    refine .bind hread fun data => .of_and fun hdata => ?_
    by_cases hrest : most ≤ n
    · refine .bind (ih (by rw [hnext]; omega)) fun more => .pure fun d hd => ?_
      rw [hdata, hd.1, hnext, stretch_split]
      exact ⟨rfl, hd.2⟩
    · -- the last piece is the whole rest
      rw [Nat.sub_eq_zero_of_le (by omega), pieces, if_neg (by omega)]
      refine .bind (I := fun more d => more = [] ∧ d.chip.mem = m) (.pure fun d hd => ⟨rfl, hd⟩) fun more =>
        .pure fun d hd => ?_
      rw [hdata, hd.1, List.append_nil, min_eq_right (by omega)]
      exact ⟨rfl, hd.2⟩
  | case2 k n hpos =>
    have hn : n = 0 := by omega
    rw [pieces, if_neg hpos, hn]
    exact .pure fun d hd => ⟨rfl, hd⟩

theorem within_readPieces (S : Set ℕ) (st : ℕ) (ps : List (ℕ × ℕ)) :
    Within (Touches S) (readPieces part st ps) := by
  induction ps with
  | nil => exact .pure _
  | cons p ps ih => exact .bind (within_read S _ _) fun _ => .bind ih fun _ => .pure _

theorem within_writePieces {S : Set ℕ} {dataBuf : List UInt8} {targetAdd first : ℕ} {ps : List (ℕ × ℕ)}
    (h : ∀ p ∈ ps, Within (Touches S) (pageWrite part dataBuf (targetAdd + p.1) (first + p.1) p.2)) :
    Within (Touches S) (writePieces part dataBuf targetAdd first ps) := by
  induction ps with
  | nil => exact .pure _
  | cons p ps ih =>
    exact .bind (h p List.mem_cons_self) fun _ => ih fun q hq => h q (List.mem_cons_of_mem p hq)

/-! ### Sections -/

/-- The cells of `cnt` sectors from the one that `add` lies in. -/
def sectorsOf (add cnt : ℕ) : Set ℕ :=
  Set.Ico (add / sectorSize * sectorSize) (add / sectorSize * sectorSize + sectorSize * cnt)

theorem sectorOf_subset {add cnt i : ℕ} (h : i < cnt) : sectorOf (add + sectorSize * i) ⊆ sectorsOf add cnt := by
  have hdiv : (add + sectorSize * i) / sectorSize = add / sectorSize + i :=
    Nat.add_mul_div_left _ _ (by decide)
  have hlast : sectorSize * i + sectorSize ≤ sectorSize * cnt := by
    rw [← Nat.mul_succ]
    exact Nat.mul_le_mul_left _ h
  have hcomm : i * sectorSize = sectorSize * i := Nat.mul_comm _ _
  intro x hx
  rw [sectorOf, hdiv, Nat.add_mul, Set.mem_Ico] at hx
  rw [sectorsOf, Set.mem_Ico]
  omega

theorem within_forM {ι : Type} {R : Dev → Dev → Prop} [Std.Refl R] [IsTrans Dev R] {body : ι → DevM Unit}
    {is : List ι} (h : ∀ i ∈ is, Within R (body i)) : Within R (is.forM body) := by
  induction is with
  | nil => exact .pure _
  | cons i is ih =>
    exact .bind (h i List.mem_cons_self) fun _ => ih fun j hj => h j (List.mem_cons_of_mem i hj)

theorem within_eraseNsector {S : Set ℕ} {st cnt : ℕ} (hg : g.alignSector = sectorSize)
    (hbound : st + sectorSize * cnt ≤ 2 ^ 24) (hS : sectorsOf st cnt ⊆ S) :
    Within (Touches S) (eraseNsector part g st cnt) := by
  refine within_forM fun i hi => ?_
  rw [List.mem_range] at hi
  have hlt : sectorSize * i < sectorSize * cnt := Nat.mul_lt_mul_of_pos_left hi (by decide)
  rw [hg]
  exact (within_eraseSector (by omega)).mono fun _ _ h => h.mono ((sectorOf_subset hi).trans hS)

/-- The sizes fit the part and its packets. -/
structure Fits (g : Sizes) (part : Part) : Prop where
  read_pos : 0 < g.readMaxLength
  write_pos : 0 < g.writeMaxLength
  write_dvd : g.writeMaxLength ∣ part.page
  write_le : 20 + g.writeMaxLength ≤ bufSize
  sector : g.alignSector = sectorSize

/-- The first fragment ends where a page begins. -/
theorem firstSendLength_aligns (hpos : 0 < g.writeMaxLength) (st : ℕ) :
    g.writeMaxLength ∣ st + firstSendLength g st := by
  have hmod : st % g.writeMaxLength < g.writeMaxLength := Nat.mod_lt _ hpos
  rw [firstSendLength]
  split_ifs with h
  · rw [Nat.dvd_iff_mod_eq_zero, Nat.add_mod,
      Nat.mod_eq_of_lt (show g.writeMaxLength - st % g.writeMaxLength < g.writeMaxLength by omega),
      Nat.add_sub_cancel' hmod.le, Nat.mod_self]
  · rw [Nat.add_zero]
    exact Nat.dvd_of_mod_eq_zero (not_not.mp h)

theorem firstSendLength_le (st : ℕ) :
    firstSendLength g st ≤ g.writeMaxLength - st % g.writeMaxLength := by
  rw [firstSendLength]
  split_ifs <;> omega

/-- A write stays in its stretch if the data reach the end of the first page. -/
theorem within_writeNbyte {S : Set ℕ} {st : ℕ} {dataBuf : List UInt8} (hfits : Fits g part)
    (hfirst : firstSendLength g st ≤ dataBuf.length) (hbound : st + dataBuf.length ≤ 2 ^ 24)
    (hS : Set.Ico st (st + dataBuf.length) ⊆ S) :
    Within (Touches S) (writeNbyte part g st dataBuf dataBuf.length) := by
  obtain ⟨-, hpos, hdvd, hle, -⟩ := hfits
  have hsub {a n : ℕ} (ha : st ≤ a) (hn : a + n ≤ st + dataBuf.length) : Set.Ico a (a + n) ⊆ S :=
    (Set.Ico_subset_Ico ha hn).trans hS
  have hlen := firstSendLength_le (g := g) st
  refine .bind ?_ fun _ => within_writePieces fun p hp => ?_
  · rw [writeFirst]
    split_ifs with h
    · exact within_pageWrite (by omega) (by omega) (by omega) (fit_of_dvd hpos part.page_pos hdvd hlen)
        (hsub le_rfl (by omega))
    · exact .pure _
  · obtain ⟨hoff, hsome, hmost, -, hend⟩ := mem_pieces hp
    rw [Nat.zero_mul, Nat.zero_add] at hend
    have hblock : (st + firstSendLength g st + p.1) % g.writeMaxLength = 0 :=
      Nat.mod_eq_zero_of_dvd (dvd_add (firstSendLength_aligns hpos st) hoff)
    exact within_pageWrite (by omega) (by omega) (by omega)
      (fit_of_dvd hpos part.page_pos hdvd (by rw [hblock]; omega)) (hsub (by omega) (by omega))

theorem within_readNbyte (S : Set ℕ) (st nbyte : ℕ) : Within (Touches S) (readNbyte part g st nbyte) :=
  within_readPieces S st _

theorem readNbyte_ends (m : ℕ → UInt8) {st n : ℕ} (hread : 0 < g.readMaxLength) (hbound : st + n ≤ 2 ^ 24) :
    Ends (·.chip.mem = m) (readNbyte part g st n) (fun data d => data = stretch m st n ∧ d.chip.mem = m)
      fun _ d => d.chip.mem = m := by
  have h : Ends _ (readPieces part st (pieces g.readMaxLength 0 n)) _ _ := readPieces_ends m hread (by omega)
  rwa [Nat.zero_mul, Nat.add_zero] at h

theorem within_verify {S : Set ℕ} {address : ℕ} {content : List UInt8} :
    Within (Touches S) (verify part g address content content.length) := by
  refine .bind (within_readNbyte S _ _) fun _ => .bind (within_fragment (by omega)) fun _ => ?_
  split_ifs
  · exact .pure _
  · exact .throw _

/-- All of a list is its own bytes. -/
theorem fragment_all {content : List UInt8} (d : Dev) :
    outcome (fragment content 0 content.length) d = .ok content := by
  show Except.ok ((List.range content.length).map fun i => content.getD (0 + i) (d.behind (0 + i))) = _
  refine congrArg Except.ok (List.ext_getElem (by simp) fun i h1 h2 => ?_)
  rw [List.getElem_map, List.getElem_range, Nat.zero_add, List.getD_eq_getElem content _ h2]

theorem fragment_ends (m : ℕ → UInt8) {content : List UInt8} :
    Ends (·.chip.mem = m) (fragment content 0 content.length) (fun data d => data = content ∧ d.chip.mem = m)
      fun _ d => d.chip.mem = m :=
  fun d hd => ⟨Except.ok.inj (fragment_all d), hd⟩

/-- A verify that succeeds has found the content in the array. -/
theorem verify_ends (m : ℕ → UInt8) {address : ℕ} {content : List UInt8} (hread : 0 < g.readMaxLength)
    (hbound : address + content.length ≤ 2 ^ 24) :
    Ends (·.chip.mem = m) (verify part g address content content.length)
      (fun _ d => stretch m address content.length = content ∧ d.chip.mem = m) fun _ d => d.chip.mem = m := by
  refine .bind (readNbyte_ends m hread hbound) fun verifyData => .of_and fun hdata =>
    .bind (fragment_ends m) fun wanted => .of_and fun hwanted => ?_
  refine .cases (fun heq => .pure fun d hd => ⟨?_, hd⟩) fun _ => .throw fun d hd => hd
  rw [← hdata, ← heq, hwanted]

/-! ### Behind the data -/

/-- Nothing but `fragment` looks at the data. -/
theorem keeps_send (pkt : List UInt8) : Within (Keeps Dev.overread) (i2cMasterSend part pkt) := by
  intro d
  unfold finalState i2cMasterSend
  cases d.i2c.head.result <;> rfl

theorem keeps_recv (n : ℕ) : Within (Keeps Dev.overread) (i2cMasterRecv part n) := by
  intro d
  unfold finalState i2cMasterRecv
  cases d.i2c.head.result <;> rfl

theorem keeps_waitBsyclr (n : ℕ) : Within (Keeps Dev.overread) (waitBsyclr part n) := by
  induction n with
  | zero => exact .pure _
  | succ n ih =>
    refine .bind (.bind (.bind (keeps_send _) fun _ => keeps_recv 2) fun _ => .pure _) fun rd => ?_
    split_ifs
    · exact .pure _
    · exact ih

/-- The flag that is set stays set. -/
def Raises (d d' : Dev) : Prop := d.overread = true → d'.overread = true

instance : Std.Refl Raises := ⟨fun _ h => h⟩

instance : IsTrans Dev Raises := ⟨fun _ _ _ h h' hd => h' (h hd)⟩

theorem raises_of_keeps {α : Type} {p : DevM α} (h : Within (Keeps Dev.overread) p) : Within Raises p :=
  h.mono fun _ _ heq hd => heq.trans hd

theorem raises_pageWrite (dataBuf : List UInt8) (add off len : ℕ) :
    Within Raises (pageWrite part dataBuf add off len) := by
  refine .bind (raises_of_keeps (keeps_send _)) fun _ => .bind (fun d hd => ?_) fun _ =>
    .bind (raises_of_keeps (keeps_send _)) fun _ => raises_of_keeps (keeps_waitBsyclr _)
  show (d.overread || _) = true
  rw [hd, Bool.true_or]

theorem raises_writePieces (dataBuf : List UInt8) (targetAdd first : ℕ) (ps : List (ℕ × ℕ)) :
    Within Raises (writePieces part dataBuf targetAdd first ps) := by
  induction ps with
  | nil => exact .pure _
  | cons p ps ih => exact .bind (raises_pageWrite dataBuf _ _ _) fun _ => ih

/-- A page write within the data. -/
theorem keeps_pageWrite {dataBuf : List UInt8} {off len : ℕ} (add : ℕ) (h : off + len ≤ dataBuf.length) :
    Within (Keeps Dev.overread) (pageWrite part dataBuf add off len) :=
  .bind (keeps_send _) fun _ => .bind (fun d => (within_fragment (S := ∅) h d).overread) fun _ =>
    .bind (keeps_send _) fun _ => keeps_waitBsyclr _

theorem keeps_writePieces {dataBuf : List UInt8} {targetAdd first : ℕ} {ps : List (ℕ × ℕ)}
    (h : ∀ p ∈ ps, first + p.1 + p.2 ≤ dataBuf.length) :
    Within (Keeps Dev.overread) (writePieces part dataBuf targetAdd first ps) := by
  induction ps with
  | nil => exact .pure _
  | cons p ps ih =>
    exact .bind (keeps_pageWrite _ (h p List.mem_cons_self)) fun _ => ih fun q hq => h q (List.mem_cons_of_mem p hq)

theorem outcome_send (pkt : List UInt8) (d : Dev) : outcome (i2cMasterSend part pkt) d =
    match d.i2c.head.result with
    | .ok _ => .ok ()
    | .error e => .error (.i2c e) := by
  unfold outcome i2cMasterSend
  cases d.i2c.head.result <;> rfl

/-- A page write whose enable goes through reads what it is told to. -/
theorem pageWrite_overreads {dataBuf : List UInt8} {add off len : ℕ} {d : Dev} (hlen : dataBuf.length < off + len)
    (hsend : d.i2c.head.result = .ok ()) : (finalState (pageWrite part dataBuf add off len) d).overread = true := by
  have hok : outcome (wren part) d = .ok () := (outcome_send _ d).trans (by rw [hsend])
  rw [pageWrite, finalState_bind_ok _ hok]
  refine Within.tail (fun _ => .bind (raises_of_keeps (keeps_send _)) fun _ => raises_of_keeps (keeps_waitBsyclr _)) _ _ ?_
  show (_ || decide (dataBuf.length < off + len)) = true
  rw [decide_eq_true hlen, Bool.or_true]

/-- One whose enable does not go through reads nothing, and fails. -/
theorem pageWrite_fails {dataBuf : List UInt8} {add off len : ℕ} {d : Dev} {e : Errno}
    (hsend : d.i2c.head.result = .error e) : outcome (pageWrite part dataBuf add off len) d = .error (.i2c e) ∧
      (finalState (pageWrite part dataBuf add off len) d).overread = d.overread := by
  have herror : outcome (wren part) d = .error (.i2c e) := (outcome_send _ d).trans (by rw [hsend])
  rw [pageWrite]
  exact ⟨outcome_bind_error _ herror, (finalState_bind_error _ herror).symm ▸ keeps_send _ d⟩

variable (part g) in
/-- When a write reads behind its data: its first fragment, up to the end of a page, is longer than they
    are, and the first call of the write goes through. -/
theorem writeNbyte_overreads_iff (st : ℕ) (dataBuf : List UInt8) {d : Dev} (hd : d.overread = false) :
    (finalState (writeNbyte part g st dataBuf dataBuf.length) d).overread = true ↔
      dataBuf.length < firstSendLength g st ∧ d.i2c.head.result = .ok () := by
  rw [writeNbyte]
  by_cases hlong : dataBuf.length < firstSendLength g st
  · have hfirst : writeFirst part g st dataBuf = pageWrite part dataBuf st 0 (firstSendLength g st) :=
      if_pos (by omega)
    rw [hfirst, and_iff_right hlong]
    cases hsend : d.i2c.head.result with
    | ok _ =>
      exact iff_of_true (Within.tail (fun _ => raises_writePieces dataBuf _ _ _) _ d
        (pageWrite_overreads (by omega) hsend)) rfl
    | error e =>
      have hfails : outcome (pageWrite part dataBuf st 0 (firstSendLength g st)) d = _ ∧ _ := pageWrite_fails hsend
      obtain ⟨herror, hkept⟩ := hfails
      rw [finalState_bind_error _ herror, hkept, hd]
      exact iff_of_false Bool.false_ne_true nofun
  · have hkeep : Within (Keeps Dev.overread) (writeNbyte part g st dataBuf dataBuf.length) := by
      refine .bind ?_ fun _ => keeps_writePieces fun p hp => ?_
      · rw [writeFirst]
        split_ifs
        · exact keeps_pageWrite st (by omega)
        · exact .pure _
      · obtain ⟨-, -, -, -, hend⟩ := mem_pieces hp
        omega
    have hkept : (finalState (writeNbyte part g st dataBuf dataBuf.length) d).overread = false := (hkeep d).trans hd
    rw [writeNbyte] at hkept
    rw [hkept]
    exact iff_of_false Bool.false_ne_true fun h => hlong h.1

/-- Sixteen bytes in the middle of a page. -/
theorem writeNbyte_overreads_iff_middle :
    (finalState (writeNbyte mx25v1006e (sizesOf seepromIdMx25v1006e) 0x10 (List.replicate 16 0) 16)
      ⟨⟨fun _ => 0xff, false, 0, []⟩, Stream'.const ⟨.ok (), true, 0⟩, fun _ => 0, false, false⟩).overread = true :=
  (writeNbyte_overreads_iff mx25v1006e (sizesOf seepromIdMx25v1006e) 0x10 (List.replicate 16 0)
    (d := ⟨⟨fun _ => 0xff, false, 0, []⟩, Stream'.const ⟨.ok (), true, 0⟩, fun _ => 0, false, false⟩) rfl).mpr
      ⟨by decide, rfl⟩

end Frames

end GeminiLinux.Solomon
