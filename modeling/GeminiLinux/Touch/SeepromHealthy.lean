import GeminiLinux.Touch.SeepromUpdate

/-! The update over a bus that works: no call fails, no command is missed, and the chip is ready whenever
    it is asked. Then the update of a well laid out image succeeds in its first pass, and the chip is
    blank but for the sections, and protected.

        blank ── program ──▶ section 1 ── program ──▶ sections 1, 2 ── … ──▶ 0x0c in the status register -/

namespace GeminiLinux.Solomon
open Prog Flash

/-- A bus that works. -/
structure Healthy (bus : Stream' Xfer) : Prop where
  result : ∀ n, (bus.get n).result = .ok ()
  taken : ∀ n, (bus.get n).taken = true
  status : ∀ n, (bus.get n).status &&& 0x03 = 0x00

theorem Healthy.tail {bus : Stream' Xfer} (h : Healthy bus) : Healthy bus.tail :=
  ⟨fun n => h.result (n + 1), fun n => h.taken (n + 1), fun n => h.status (n + 1)⟩

/-- The bus works from here on, and the chip is as `P` says. -/
def Ready (P : Chip → Prop) (d : Dev) : Prop := Healthy d.i2c ∧ P d.chip

/-- What the array holds and what the status register protects. -/
def Holds (m : ℕ → UInt8) (protect : UInt8) (chip : Chip) : Prop := chip.mem = m ∧ chip.protect = protect

/-- The same behind a write enable. -/
def Armed (m : ℕ → UInt8) (protect : UInt8) (chip : Chip) : Prop := Holds m protect chip ∧ chip.wel = true

section Calls

variable {part : Part} {m : ℕ → UInt8} {protect : UInt8}

theorem send_ready {P Q : Chip → Prop} {cmd : List UInt8} (rNbyte : ℕ) (hlen : cmd.length < 2 ^ 16)
    (h : ∀ chip, P chip → Q { chip.exec part cmd with last := cmd }) :
    Ends (Ready P) (i2cMasterSend part (ucmdHeader cmd.length rNbyte ++ cmd)) (fun _ => Ready Q) fun _ _ => False := by
  intro d ⟨hbus, hchip⟩
  have hresult : d.i2c.head.result = .ok () := hbus.result 0
  have htaken : d.i2c.head.taken = true := hbus.taken 0
  unfold i2cMasterSend
  rw [payload_ucmdHeader _ _ hlen, hresult, htaken, if_pos rfl]
  exact ⟨hbus.tail, h _ hchip⟩

theorem recv_ready {P : Chip → Prop} (n : ℕ) : Ends (Ready P) (i2cMasterRecv part n)
    (fun data d => (∃ status, status &&& 0x03 = 0x00 ∧ data = (List.range n).map (d.chip.reply part status)) ∧ Ready P d)
      fun _ _ => False := by
  intro d ⟨hbus, hchip⟩
  have hresult : d.i2c.head.result = .ok () := hbus.result 0
  unfold i2cMasterRecv
  rw [hresult]
  exact ⟨⟨_, hbus.status 0, rfl⟩, hbus.tail, hchip⟩

theorem wren_ready : Ends (Ready (Holds m protect)) (wren part) (fun _ => Ready (Armed m protect)) fun _ _ => False :=
  send_ready 0 (by decide) fun _ h => ⟨h, rfl⟩

theorem wrsr_ready (data : UInt8) : Ends (Ready (Armed m protect)) (wrsr part data) (fun _ => Ready (Holds m data))
    fun _ _ => False := by
  refine send_ready 0 (by simp) fun chip ⟨h, hwel⟩ => ?_
  rw [Chip.exec, if_neg (by decide), if_pos rfl, if_pos hwel]
  exact ⟨h.1, rfl⟩

/-- A command that only asks leaves the chip as it is. -/
theorem exec_query {op : UInt8} (args : List UInt8) (chip : Chip) (h06 : op ≠ 0x06) (h01 : op ≠ 0x01) (h02 : op ≠ 0x02)
    (h20 : op ≠ 0x20) (h60 : op ≠ 0x60) : chip.exec part (op :: args) = chip := by
  rw [Chip.exec, if_neg h06, if_neg h01, if_neg h02, if_neg h20, if_neg h60, ite_self]

theorem rdsr_ready : Ends (Ready (Holds m protect)) (rdsr part)
    (fun rd d => rd &&& 0x03 = 0x00 ∧ Ready (Holds m protect) d) fun _ _ => False := by
  refine .bind (I := fun rd d => rd.getD 0 0 &&& 0x03 = 0x00 ∧ Ready (Holds m protect) d)
    (.bind (I := fun _ => Ready fun chip => chip.last = [0x05] ∧ Holds m protect chip)
      (send_ready 2 (by decide) fun chip h => ⟨rfl, ?_⟩) fun _ => ?_) fun rd => .pure fun _ hd => hd
  · rw [exec_query [] chip (by decide) (by decide) (by decide) (by decide) (by decide)]
    exact h
  · refine (recv_ready 2).returning fun data d hd => ?_
    obtain ⟨⟨status, hstatus, rfl⟩, hbus, hlast, hholds⟩ := hd
    refine ⟨?_, hbus, hholds⟩
    simp only [List.range_succ, List.range_zero, List.nil_append, List.cons_append, List.map_cons, List.getD_cons_zero,
      Chip.reply, hlast]
    exact hstatus

theorem waitBsyclr_ready (n : ℕ) : Ends (Ready (Holds m protect)) (waitBsyclr part n)
    (fun _ => Ready (Holds m protect)) fun _ _ => False := by
  cases n with
  | zero => exact .pure fun _ hd => hd
  | succ n =>
    refine .bind rdsr_ready fun rd => .of_and fun hrd => ?_
    rw [if_pos hrd]
    exact .pure fun _ hd => hd

theorem enabled_of_armed {chip : Chip} (h : Armed m protect chip) (hp : protect &&& 0x0c = 0) :
    chip.enabled = true := by
  rw [Chip.enabled, h.2, h.1.2, hp]
  rfl

theorem eraseChip_ready (hp : protect &&& 0x0c = 0) : Ends (Ready (Holds m protect)) (eraseChip part)
    (fun _ => Ready (Holds (fun _ => norCell.blank) protect)) fun _ _ => False := by
  refine .bind wren_ready fun _ => .bind (send_ready 0 (by decide) fun chip h => ?_) fun _ => waitBsyclr_ready _
  rw [Chip.exec, if_neg (by decide), if_neg (by decide), if_pos (enabled_of_armed h hp), if_neg (by decide),
    if_neg (by decide), if_pos rfl]
  exact ⟨rfl, h.1.2⟩

theorem pp_ready {add : ℕ} {data : List UInt8} (hp : protect &&& 0x0c = 0) (hadd : add < 2 ^ 24)
    (hlen : data.length < 2 ^ 12) (hfit : add % part.page + data.length ≤ part.page) :
    Ends (Ready (Armed m protect)) (pp part add data) (fun _ => Ready (Holds (program norCell m add data) protect))
      fun _ _ => False := by
  refine send_ready 0 ?_ fun chip h => ?_
  · rw [List.length_append, List.length_cons, length_addBytes]
    omega
  · rw [exec_pp chip hadd hfit, if_pos (enabled_of_armed h hp), h.1.1]
    exact ⟨rfl, h.1.2⟩

theorem disableProtect_ready : Ends (Ready (Holds m protect)) (disableProtect part) (fun _ => Ready (Holds m 0x02))
    fun _ _ => False :=
  .bind wren_ready fun _ => .bind (wrsr_ready 0x02) fun _ => .bind rdsr_ready fun _ => .pure fun _ hd => hd.2

theorem enableProtect_ready : Ends (Ready (Holds m protect)) (enableProtect part) (fun _ => Ready (Holds m 0x0c))
    fun _ _ => False :=
  .bind wren_ready fun _ => .bind (wrsr_ready 0x0c) fun _ => .bind rdsr_ready fun _ => .pure fun _ hd => hd.2

/-! ### Writing -/

theorem fragment_ready {P : Chip → Prop} {dataBuf : List UInt8} {off len : ℕ} (h : off + len ≤ dataBuf.length) :
    Ends (Ready P) (fragment dataBuf off len) (fun data d => data = (dataBuf.drop off).take len ∧ Ready P d)
      fun _ _ => False := by
  intro d hd
  refine ⟨List.ext_getElem ?_ fun i h1 h2 => ?_, hd⟩
  · rw [List.length_map, List.length_range, List.length_take, List.length_drop]
    omega
  · rw [List.length_map, List.length_range] at h1
    rw [List.getElem_map, List.getElem_range, List.getElem_take, List.getElem_drop,
      List.getD_eq_getElem dataBuf _ (by omega)]

theorem pageWrite_ready {dataBuf : List UInt8} {add off len : ℕ} (hp : protect &&& 0x0c = 0) (hadd : add < 2 ^ 24)
    (hread : off + len ≤ dataBuf.length) (hlen : len < 2 ^ 12) (hfit : add % part.page + len ≤ part.page) :
    Ends (Ready (Holds m protect)) (pageWrite part dataBuf add off len)
      (fun _ => Ready (Holds (program norCell m add ((dataBuf.drop off).take len)) protect)) fun _ _ => False := by
  have hdata : ((dataBuf.drop off).take len).length = len := by
    rw [List.length_take, List.length_drop]
    omega
  refine .bind wren_ready fun _ => .bind (fragment_ready hread) fun data => .of_and ?_
  rintro rfl
  exact .bind (pp_ready hp hadd (by omega) (by rw [hdata]; exact hfit)) fun _ => waitBsyclr_ready _

/-- The pieces put down what their stretch of the data holds. -/
theorem writePieces_ready {most : ℕ} {dataBuf : List UInt8} {targetAdd first k n : ℕ} (hp : protect &&& 0x0c = 0)
    (hmost : 0 < most) (hsmall : most < 2 ^ 12) (hdvd : most ∣ part.page) (hstart : most ∣ targetAdd)
    (hbound : targetAdd + k * most + n ≤ 2 ^ 24) (hread : first + k * most + n ≤ dataBuf.length) :
    Ends (Ready (Holds m protect)) (writePieces part dataBuf targetAdd first (pieces most k n))
      (fun _ => Ready (Holds (program norCell m (targetAdd + k * most) ((dataBuf.drop (first + k * most)).take n))
        protect)) fun _ _ => False := by
  induction k, n using pieces.induct most generalizing m with
  | case1 k n hpos ih =>
    have hnext (a : ℕ) : a + (k + 1) * most = a + k * most + most := by rw [Nat.succ_mul, Nat.add_assoc]
    have hblock : (targetAdd + k * most) % most = 0 :=
      Nat.mod_eq_zero_of_dvd (dvd_add hstart (Dvd.intro_left k rfl))
    rw [pieces, if_pos hpos, writePieces]
    refine .bind (pageWrite_ready hp (by omega) (by omega) (by omega)
      (fit_of_dvd hmost part.page_pos hdvd (by rw [hblock]; omega))) fun _ => ?_
    by_cases hrest : most ≤ n
    · refine (ih (by rw [hnext]; omega) (by rw [hnext]; omega)).returning fun _ d hd => ?_
      have hfull : ((dataBuf.drop (first + k * most)).take most).length = most := by
        rw [List.length_take, List.length_drop]
        omega
      have hdrop : dataBuf.drop (first + k * most + most) = (dataBuf.drop (first + k * most)).drop most :=
        List.drop_drop.symm
      have hboth : program norCell (program norCell m (targetAdd + k * most)
          ((dataBuf.drop (first + k * most)).take most)) (targetAdd + k * most + most)
          ((dataBuf.drop (first + k * most + most)).take (n - most)) =
          program norCell m (targetAdd + k * most) ((dataBuf.drop (first + k * most)).take n) := by
        have happend := program_append norCell m (targetAdd + k * most) ((dataBuf.drop (first + k * most)).take most)
          ((dataBuf.drop (first + k * most + most)).take (n - most))
        rwa [hfull, hdrop, ← List.take_add, Nat.add_sub_cancel' hrest, ← hdrop] at happend
      rwa [min_eq_left hrest, hnext, hnext, hboth] at hd
    · -- the last piece is the whole rest
      rw [Nat.sub_eq_zero_of_le (by omega), pieces, if_neg (by omega), writePieces, min_eq_right (by omega)]
      exact .pure fun _ hd => hd
  | case2 k n hpos =>
    have hn : n = 0 := by omega
    rw [pieces, if_neg hpos, hn, List.take_zero, program_nil, writePieces]
    exact .pure fun _ hd => hd

theorem writeNbyte_ready {g : Sizes} {st : ℕ} {dataBuf : List UInt8} (hp : protect &&& 0x0c = 0) (hfits : Fits g part)
    (hfirst : firstSendLength g st ≤ dataBuf.length) (hbound : st + dataBuf.length ≤ 2 ^ 24) :
    Ends (Ready (Holds m protect)) (writeNbyte part g st dataBuf dataBuf.length)
      (fun _ => Ready (Holds (program norCell m st dataBuf) protect)) fun _ _ => False := by
  obtain ⟨-, hpos, hdvd, hle, -⟩ := hfits
  rw [bufSize] at hle
  have hlen := firstSendLength_le (g := g) st
  have hhead : (dataBuf.take (firstSendLength g st)).length = firstSendLength g st := by
    rw [List.length_take]
    omega
  refine .bind (I := fun _ => Ready (Holds (program norCell m st (dataBuf.take (firstSendLength g st))) protect)) ?_
    fun _ => ?_
  · rw [writeFirst]
    refine .cases (fun h => ?_) fun h => ?_
    · have hpage : Ends (Ready (Holds m protect)) (pageWrite part dataBuf st 0 (firstSendLength g st)) _ _ :=
        pageWrite_ready hp (by omega) (by omega) (by omega) (fit_of_dvd hpos part.page_pos hdvd hlen)
      exact hpage
    · rw [not_not.mp h, List.take_zero, program_nil]
      exact .pure fun _ hd => hd
  · refine (writePieces_ready (k := 0) hp hpos (by omega) hdvd (firstSendLength_aligns hpos st) (by omega)
      (by omega)).returning fun _ d hd => ?_
    have happend := program_append norCell m st (dataBuf.take (firstSendLength g st))
      (dataBuf.drop (firstSendLength g st))
    rw [hhead, List.take_append_drop] at happend
    have hrest : (dataBuf.drop (firstSendLength g st)).take (dataBuf.length - firstSendLength g st) =
        dataBuf.drop (firstSendLength g st) := List.take_of_length_le (by rw [List.length_drop])
    rwa [Nat.zero_mul, Nat.add_zero, Nat.add_zero, hrest, happend] at hd

/-! ### Reading back -/

theorem read_ready {P : Chip → Prop} (h : ∀ chip cmd, P chip → P { chip with last := cmd }) (add nbyte : ℕ) :
    Ends (Ready P) (read part add nbyte) (fun _ => Ready P) fun _ _ => False := by
  refine .bind (send_ready nbyte (by simp) fun chip hchip => ?_) fun _ => (recv_ready nbyte).returning fun _ _ hd => hd.2
  rw [exec_query _ chip (by decide) (by decide) (by decide) (by decide) (by decide)]
  exact h chip _ hchip

theorem readPieces_ready {P : Chip → Prop} (h : ∀ chip cmd, P chip → P { chip with last := cmd }) (st : ℕ)
    (ps : List (ℕ × ℕ)) : Ends (Ready P) (readPieces part st ps) (fun _ => Ready P) fun _ _ => False := by
  induction ps with
  | nil => exact .pure fun _ hd => hd
  | cons p ps ih => exact .bind (read_ready h _ _) fun _ => .bind ih fun _ => .pure fun _ hd => hd

theorem readNbyte_ready {g : Sizes} (hread : 0 < g.readMaxLength) {st n : ℕ} (hbound : st + n ≤ 2 ^ 24) :
    Ends (Ready (Holds m protect)) (readNbyte part g st n)
      (fun data d => data = stretch m st n ∧ Ready (Holds m protect) d) fun _ _ => False :=
  ((readPieces_ready (fun _ _ h => h) st _).and (readNbyte_ends m hread hbound)).mono
    (fun _ hd => ⟨hd, hd.2.1⟩) (fun _ _ hd => ⟨hd.2.1, hd.1⟩) fun _ _ hd => hd.1

theorem verify_ready {g : Sizes} {address : ℕ} {content : List UInt8} (hread : 0 < g.readMaxLength)
    (hbound : address + content.length ≤ 2 ^ 24) (hheld : stretch m address content.length = content) :
    Ends (Ready (Holds m protect)) (verify part g address content content.length) (fun _ => Ready (Holds m protect))
      fun _ _ => False := by
  refine .bind (readNbyte_ready hread hbound) fun verifyData => .of_and fun hdata =>
    .bind (fragment_ready (by omega)) fun wanted => .of_and fun hwanted => ?_
  rw [List.drop_zero, List.take_length] at hwanted
  rw [if_pos (by rw [hwanted, hdata, hheld])]
  exact .pure fun _ hd => hd

end Calls

/-! ### The update -/

section Update

variable {part : Part} {g : Sizes} {m : ℕ → UInt8} {protect : UInt8}

/-- What the array holds behind the update of a section. -/
def placed (m : ℕ → UInt8) (sec : SolomonFw) : ℕ → UInt8 :=
  match sec.live with
  | none => m
  | some content => program norCell m sec.addr content

theorem placed_outside (m : ℕ → UInt8) (sec : SolomonFw) : Set.EqOn (placed m sec) m sec.rangeᶜ := by
  rw [placed]
  split
  · exact Set.eqOn_refl _ _
  · rename_i content hlive
    rw [range_of_live hlive]
    exact program_outside norCell m sec.addr content

theorem firmwareUpdateBySection_ready {sec : SolomonFw} (hp : protect &&& 0x0c = 0) (hfits : Fits g part)
    (hsound : Sound g bootUpdateAll sec) (hblank : ∀ x ∈ sec.range, m x = norCell.blank) :
    Ends (Ready (Holds m protect)) (firmwareUpdateBySection part g bootUpdateAll sec)
      (fun _ => Ready (Holds (placed m sec) protect)) fun _ _ => False := by
  rw [firmwareUpdateBySection, placed]
  cases hlive : sec.live with
  | none => exact .pure fun _ hd => hd
  | some content =>
    have hkeep : sec.erases bootUpdateAll = false := rfl
    have hbound := hsound.bound content hlive
    rw [hsound.length content hlive, eraseSection, hkeep, if_neg Bool.false_ne_true]
    rw [range_of_live hlive] at hblank
    have hwrite := (writeNbyte_ready (m := m) hp hfits (hsound.first content hlive) hbound).retry
      (fun _ _ h => h.elim) (fwMaxRetryCount - 1)
    have hverify : Ends (Ready (Holds _ protect)) (retry (verify part g sec.addr content content.length) (fwMaxRetryCount - 1)) _ _ :=
      (verify_ready hfits.read_pos hbound (stretch_program norCell hblank)).retry (fun _ _ h => h.elim) _
    exact .bind (I := fun _ => Ready (Holds m protect)) (.pure fun _ hd => hd) fun _ => .bind hwrite fun _ => hverify

/-- A pass over blank ground. -/
theorem pass_ready {secs : List SolomonFw} (hp : protect &&& 0x0c = 0) (hfits : Fits g part)
    (hlayout : Layout g bootUpdateAll secs) (hblank : ∀ sec ∈ secs, ∀ x ∈ sec.range, m x = norCell.blank) :
    Ends (Ready (Holds m protect)) (secs.forM (firmwareUpdateBySection part g bootUpdateAll))
      (fun _ => Ready (Holds (secs.foldl placed m) protect)) fun _ _ => False := by
  obtain ⟨hsound, hapart⟩ := hlayout
  induction secs generalizing m with
  | nil => exact .pure fun _ hd => hd
  | cons sec rest ih =>
    rw [List.pairwise_cons] at hapart
    refine .bind (firmwareUpdateBySection_ready hp hfits (hsound sec List.mem_cons_self)
      (hblank sec List.mem_cons_self)) fun _ =>
        ih (fun later hlater x hx => ?_) (fun later hlater => hsound later (List.mem_cons_of_mem sec hlater)) hapart.2
    have hfree : x ∉ sec.range := fun hmem => Set.disjoint_left.mp (hapart.1 later hlater) hmem
      (range_subset_touched later _ hx)
    rw [placed_outside m sec hfree]
    exact hblank later (List.mem_cons_of_mem sec hlater) x hx

theorem firmwareUpdate_ready {secs : List SolomonFw} (hp : protect &&& 0x0c = 0) (hfits : Fits g part)
    (hlayout : Layout g bootUpdateAll secs) :
    Ends (Ready (Holds m protect)) (firmwareUpdate part g secs bootUpdateAll)
      (fun _ => Ready (Holds (secs.foldl placed fun _ => norCell.blank) protect)) fun _ _ => False := by
  refine .bind (I := fun r d => r = .ok () ∧ Ready (Holds (fun _ => norCell.blank) protect) d) ?_ fun r =>
    .of_and ?_
  · rw [erasePass, if_pos rfl]
    exact .attempt (((eraseChip_ready hp).retry (fun _ _ h => h.elim) _).post (fun _ _ hd => ⟨rfl, hd⟩)
      fun _ _ h => h.elim)
  · rintro rfl
    refine .bind (I := fun r d => r = .ok () ∧ Ready (Holds (secs.foldl placed fun _ => norCell.blank) protect) d)
      (.attempt ((pass_ready hp hfits hlayout fun _ _ _ _ => rfl).post (fun _ _ hd => ⟨rfl, hd⟩)
        fun _ _ h => h.elim)) fun r => .of_and ?_
    rintro rfl
    exact .pure fun _ hd => hd

theorem readid_ready : Ends (Ready (Holds m protect)) (seepromDownloadInitialize part)
    (fun g d => g = sizesOf part.id ∧ Ready (Holds m protect) d) fun _ _ => False := by
  have hready : Ends (Ready (Holds m protect)) (seepromDownloadInitialize part) (fun _ => Ready (Holds m protect))
      fun _ _ => False := by
    refine .bind (.bind (.bind (send_ready 3 (by decide) fun chip h => ?_) fun _ =>
      (recv_ready 3).returning fun _ _ hd => hd.2) fun _ => .pure fun _ hd => hd) fun _ => .pure fun _ hd => hd
    rw [exec_query [] chip (by decide) (by decide) (by decide) (by decide) (by decide)]
    exact h
  exact (hready.and (seepromDownloadInitialize_ends m)).mono (fun _ hd => ⟨hd, hd.2.1⟩)
    (fun _ _ hd => ⟨hd.2.1, hd.1⟩) fun _ _ hd => hd.1

variable (part) in
theorem seepromFirmwareUpdate_ready {secs : List SolomonFw} (hpage : (sizesOf part.id).writeMaxLength ∣ part.page)
    (hlayout : Layout (sizesOf part.id) bootUpdateAll secs) :
    Ends (Ready (Holds m protect)) (seepromFirmwareUpdate part secs bootUpdateAll)
      (fun _ => Ready (Holds (secs.foldl placed fun _ => norCell.blank) 0x0c)) fun _ _ => False := by
  refine .bind readid_ready fun g => .of_and ?_
  rintro rfl
  refine .bind disableProtect_ready fun _ => .bind (I := fun r d => r = .ok () ∧
    Ready (Holds (secs.foldl placed fun _ => norCell.blank) 0x02) d) ?_ fun r => .of_and ?_
  · exact .attempt ((firmwareUpdate_ready (by decide) (fits_sizesOf hpage) hlayout).post (fun _ _ hd => ⟨rfl, hd⟩)
      fun _ _ h => h.elim)
  · rintro rfl
    refine .bind (I := fun _ => Ready (Holds (secs.foldl placed fun _ => norCell.blank) 0x0c))
      (.attempt (enableProtect_ready.post (fun _ _ hd => hd) fun _ _ h => h.elim)) fun _ => .pure fun _ hd => hd

variable (part) in
/-- Over a bus that works, the check at boot that updates succeeds: the array is blank but for the
    sections, and protected again. -/
theorem update_healthy {secs : List SolomonFw} (hpage : (sizesOf part.id).writeMaxLength ∣ part.page)
    (hlayout : Layout (sizesOf part.id) bootUpdateAll secs) (d : Dev) (hbus : Healthy d.i2c) :
    outcome (seepromFirmwarePreBootUpCheck part secs) d = .ok () ∧
      (finalState (seepromFirmwarePreBootUpCheck part secs) d).chip.mem = secs.foldl placed (fun _ => 0xff) ∧
      (finalState (seepromFirmwarePreBootUpCheck part secs) d).chip.protect = 0x0c := by
  obtain ⟨_, hok, -, hmem, hprotect⟩ := (seepromFirmwareUpdate_ready part hpage hlayout).returns ⟨hbus, rfl, rfl⟩
  exact ⟨hok, hmem, hprotect⟩

/-- The tables with nothing in them. -/
def emptyTables : HeaderContents where
  sysCfg := List.replicate 0xc0 0
  fwCfg := List.replicate 0x80 0
  fw := List.replicate 0x10708 0
  tmcReg := List.replicate 0x264 0
  fdm := List.replicate 0x1568 0
  mpfdm := List.replicate 0xfac 0
  length_sysCfg := List.length_replicate
  length_fwCfg := List.length_replicate
  length_fw := List.length_replicate
  length_tmcReg := List.length_replicate
  length_fdm := List.length_replicate
  length_mpfdm := List.length_replicate

/-- A bus without a fault. -/
def faultless : Stream' Xfer := Stream'.const ⟨.ok (), true, 0⟩

theorem healthy_faultless : Healthy faultless := ⟨fun _ => rfl, fun _ => rfl, fun _ => (by decide : (0 : UInt8) &&& 3 = 0)⟩

/-- A blank chip on such a bus. -/
def blankDev : Dev := ⟨⟨fun _ => 0xff, false, 0, []⟩, faultless, fun _ => 0, false, false⟩

theorem update_healthy_emptyTables :
    (finalState (seepromFirmwarePreBootUpCheck mx25v1006e (solomonMakeHeaderUseHead emptyTables).fwGroup)
      blankDev).chip.mem = (solomonMakeHeaderUseHead emptyTables).fwGroup.foldl placed (fun _ => 0xff) :=
  (update_healthy mx25v1006e (by decide) (layout_header emptyTables _ _) blankDev healthy_faultless).2.1

/-- The update that the empty tables are for. -/
theorem emptyTables_ok : outcome (seepromFirmwareUpdate mx25u1001e (solomonMakeHeaderUseHead emptyTables).fwGroup
    bootUpdateAll) blankDev = .ok () := by
  have hready : Ends (Ready (Holds (fun _ => 0xff) 0)) _ _ _ :=
    seepromFirmwareUpdate_ready mx25u1001e (by decide) (layout_header emptyTables bootUpdateAll _)
  obtain ⟨_, hok, -⟩ := hready.returns (s := blankDev) ⟨healthy_faultless, rfl, rfl⟩
  exact hok

end Update

end GeminiLinux.Solomon
