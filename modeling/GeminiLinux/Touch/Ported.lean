import GeminiLinux.Touch.Redelivery
import GeminiLinux.Touch.VendorPoints

/-! The two touch drivers on one report. Where the port takes a packet, the vendor's driver gets the same word
    and, as often as it asks, the same packet:

                        port ─▶ records 0 .. 9 ─▶ slots
        word, packet ──┤              ‖
                        vendor ─▶ records 0 .. 9, and what is behind them if the word is longer

    They look for the checksum behind the data, the vendor's driver in words from the start of the packet: with an
    odd length that is one byte early. -/

namespace GeminiLinux.Solomon
open Prog
open Ssd2092 (Ts Report Delivers le16 xorOf sumOf checksumOk checksumOk_iff pointLen recordsPacket poll)

/-! ### One report -/

/-- The record as the port reads it. -/
def SsdData.record (p : SsdData) : Ssd2092.Record := ⟨p.id.toNat, p.x.toNat, p.y.toNat, p.weight.toNat⟩

/-- The next work gets the report: INT is low, no change of the touch mode is to be waited for, and the packet
    comes as often as there are tries. -/
structure Gets (d : Ftdev) (rep : Report) : Prop where
  int : d.link.intPin = false
  noSkip : d.link.pointSkipTime = false
  word : ∃ snl, outcome (snlTries [0, 0, 0, 0] 3) d.link = .ok snl ∧ le16 snl 0 = rep.info
  packets : ∀ k < 3, ∃ bytes, (finalState (snlTries [0, 0, 0, 0] 3) d.link).i2c.get k = .ok bytes ∧
    (List.range (pointLen rep.info + 2)).map bytes = rep.pkt

/-- A length that is odd, with a checksum word whose bytes are not both the last byte of the data. -/
def Misread (rep : Report) : Prop :=
  pointLen rep.info % 2 = 1 ∧ ¬ (rep.pkt.getD (pointLen rep.info - 1) 0 = rep.pkt.getD (pointLen rep.info) 0 ∧
    rep.pkt.getD (pointLen rep.info) 0 = rep.pkt.getD (pointLen rep.info + 1) 0)

/-! ### The checksum -/

theorem esdChecksumOk_iff {pkt : List UInt8} {n : ℕ} (h : checksumOk (pkt.take n) (le16 pkt n) = true) :
    esdChecksumOk pkt n = true ↔ ¬ (n % 2 = 1 ∧ ¬ (pkt.getD (n - 1) 0 = pkt.getD n 0 ∧ pkt.getD n 0 = pkt.getD (n + 1) 0)) := by
  have hsums : xorOf (pkt.take n) = pkt.getD (n + 1) 0 ∧ sumOf (pkt.take n) = pkt.getD n 0 :=
    (checksumOk_iff (pkt.take n) (pkt.getD n 0) (pkt.getD (n + 1) 0)).mp h
  rw [esdChecksumOk, hsums.1, hsums.2, Bool.and_eq_true, beq_iff_eq, beq_iff_eq]
  rcases Nat.mod_two_eq_zero_or_one n with heven | hodd
  · have hhalf : 2 * (n / 2) = n := by omega
    rw [hhalf, heven]
    simp
  · have hhalf : 2 * (n / 2) + 1 = n := by omega
    have hfirst : 2 * (n / 2) = n - 1 := by omega
    rw [hhalf, hfirst, hodd]
    simp only [true_and, not_not]
    exact ⟨fun heq => ⟨heq.2.symm, heq.1.symm⟩, fun heq => ⟨heq.2.symm, heq.1.symm⟩⟩

/-! ### The vendor's driver, one piece after the other -/

/-- The tries for the word use the bus and nothing else. -/
theorem snlTries_uses (l : Link) (snl : List UInt8) (retry : ℕ) :
    Ends (fun l' => ∃ i2c, l' = { l with i2c := i2c }) (snlTries snl retry)
      (fun _ l' => ∃ i2c, l' = { l with i2c := i2c }) fun _ _ => True := by
  have hread (len : ℕ) : Ends (fun l' => ∃ i2c, l' = { l with i2c := i2c }) (tsReadData len)
      (fun _ l' => ∃ i2c, l' = { l with i2c := i2c }) fun _ _ => True :=
    .modifyGet fun l' hl => by
      obtain ⟨i2c, rfl⟩ := hl
      exact ⟨i2c.tail, rfl⟩
  induction retry generalizing snl with
  | zero => exact .throw fun _ _ => trivial
  | succ retry ih =>
    have hwords : Ends (fun l' => ∃ i2c, l' = { l with i2c := i2c }) (readSnlWords snl)
        (fun _ l' => ∃ i2c, l' = { l with i2c := i2c }) fun _ _ => True :=
      .bind (hread 4) fun first => .cases (fun _ => .bind (hread 4) fun again => .pure fun _ hl => hl) fun _ =>
        .pure fun _ hl => hl
    refine .bind hwords fun
      | (.error e, _) => .throw fun _ _ => trivial
      | (.ok _, snl) => .read fun l' hl => .cases (fun _ => (ih snl).starting hl) fun _ => .pure fun _ heq => heq ▸ hl

theorem solomonCheckSkiptime_noSkip {l : Link} (h : l.pointSkipTime = false) (err : ℤ) :
    solomonCheckSkiptime err l = .ok err l := by
  rw [solomonCheckSkiptime, bind_apply, get_apply]
  simp only [h]
  rfl

theorem readWord_points {l : Link} {info : ℕ} (hskip : l.pointSkipTime = false) (hasks : Asks info)
    (haux : statusOf info &&& statusCheckAux = 0) :
    readWord info l = pointTries (min (lengthOf info) pointsSize) 3 l := by
  have hcheck (err : ℤ) (C : Prop) [Decidable C] :
      (if C then solomonCheckSkiptime err else pure err : PointsM ℤ) l = .ok err l := by
    split_ifs
    · exact solomonCheckSkiptime_noSkip hskip err
    · rfl
  rw [readWord, bind_apply, hcheck]
  simp only
  rw [bind_apply, hcheck]
  simp only
  rw [bind_apply, if_neg (not_not.mpr haux), pure_apply]
  simp only
  rw [if_neg (not_not.mpr hasks.1), if_pos hasks.2]

theorem readPoints_word {l : Link} {snl : List UInt8} (hint : l.intPin = false)
    (hsnl : outcome (snlTries [0, 0, 0, 0] 3) l = .ok snl) (hne : le16 snl 0 ≠ 0) :
    readPoints l =
      readWord (le16 snl 0) { finalState (snlTries [0, 0, 0, 0] 3) l with pointInfo := le16 snl 0 } := by
  rw [readPoints, bind_apply, get_apply]
  simp only [hint]
  rw [if_neg Bool.false_ne_true, bind_apply]
  cases hrun : snlTries [0, 0, 0, 0] 3 l with
  | error e l' =>
    rw [outcome, hrun] at hsnl
    cases hsnl
  | ok snl' l' =>
    rw [outcome, hrun] at hsnl
    cases hsnl
    rw [finalState, hrun]
    simp only
    rw [bind_apply, modify_apply]
    simp only
    rw [if_neg hne]

/-- The first try takes a packet that is right. -/
theorem pointTries_takes {l : Link} {bytes : ℕ → UInt8} {n : ℕ} (retry : ℕ) (hhead : l.i2c.get 0 = .ok bytes)
    (hok : esdChecksumOk ((List.range (n + 2)).map bytes) n = true) :
    pointTries n (retry + 1) l =
      .ok ((n : ℤ) + 2, ((List.range (n + 2)).map bytes).take n) { l with i2c := l.i2c.tail } := by
  have hread : tsReadData (n + 2) l = .ok (.ok ((List.range (n + 2)).map bytes)) { l with i2c := l.i2c.tail } := by
    show EStateM.Result.ok (l.i2c.head.map _) _ = _
    rw [show l.i2c.head = .ok bytes from hhead]
    rfl
  rw [pointTries, bind_apply, hread]
  simp only [hok, if_true]
  rfl

/-- Packets that are all wrong use the tries up. -/
theorem pointTries_resets {l : Link} {n retry : ℕ}
    (h : ∀ k < retry, ∃ bytes, l.i2c.get k = .ok bytes ∧ esdChecksumOk ((List.range (n + 2)).map bytes) n = false) :
    outcome (pointTries n retry) l = .error .reset := by
  induction retry generalizing l with
  | zero => rfl
  | succ retry ih =>
    obtain ⟨bytes, hhead, hbad⟩ := h 0 (Nat.succ_pos _)
    have hread : outcome (tsReadData (n + 2)) l = .ok (.ok ((List.range (n + 2)).map bytes)) := by
      show Except.ok (l.i2c.head.map _) = _
      rw [show l.i2c.head = .ok bytes from hhead]
      rfl
    rw [pointTries, outcome_bind_ok _ hread]
    simp only [hbad, Bool.false_eq_true, if_false]
    exact ih fun k hk => h (k + 1) (Nat.succ_lt_succ hk)

/-! ### What is taken -/

theorem record_pointAt {mem : ℕ → UInt8} {pkt : List UInt8} {i : ℕ}
    (h : ∀ k < 6, mem (6 * i + k) = (pkt.drop (6 * i)).getD k 0) :
    (pointAt mem i).record = Ssd2092.record (pkt.drop (6 * i)) := by
  have hfirst : mem (6 * i) = (pkt.drop (6 * i)).getD 0 0 := h 0 (by decide)
  rw [pointAt, hfirst, h 1 (by decide), h 2 (by decide), h 3 (by decide), h 4 (by decide), h 5 (by decide)]
  rfl

/-- The first records of `points` are the port's, of a packet whose data have been copied. -/
theorem pointsOf_take (mem : ℕ → UInt8) (pkt : List UInt8) {info : ℕ} (hlen : pkt.length = pointLen info + 2) :
    ((pointsOf (memcpy mem (pkt.take (pointLen info))) info).map SsdData.record).take Ssd2092.maxPoint =
      Ssd2092.records pkt (pointLen info / Ssd2092.pointSz) := by
  have hmin : pointLen info = min (lengthOf info) 60 := rfl
  have hcount : min Ssd2092.maxPoint (lengthOf info / 6) = pointLen info / Ssd2092.pointSz := by
    show min 10 (lengthOf info / 6) = pointLen info / 6
    omega
  rw [pointsOf, List.map_map, ← List.map_take, List.take_range, hcount, Ssd2092.records]
  refine List.map_congr_left fun i hi => ?_
  have hin : 6 * i + 6 ≤ pointLen info := by
    have hlt : i < pointLen info / 6 := List.mem_range.mp hi
    omega
  rw [Function.comp_apply, Nat.mul_comm i]
  refine record_pointAt fun k hk => ?_
  have hlt : 6 * i + k < (pkt.take (pointLen info)).length := by
    rw [List.length_take]
    omega
  rw [memcpy, List.getElem?_eq_getElem hlt, Option.getD_some, List.getElem_take, List.getD_eq_getElem?_getD,
    List.getElem?_drop, List.getElem?_eq_getElem (by omega), Option.getD_some]

theorem handled_ok {d : Ftdev} {l : Link} {err : ℤ} {bytes : List UInt8} (h : readPoints d.link = .ok (err, bytes) l)
    (hpos : 0 < err) : handled d = some (pointsOf (memcpy d.mem bytes) l.pointInfo) := by
  rw [handled, solomonReadPoints, h]
  exact if_pos hpos

theorem handled_reset {d : Ftdev} (h : outcome readPoints d.link = .error .reset) : handled d = none := by
  cases hrun : readPoints d.link with
  | ok r l =>
    rw [outcome, hrun] at h
    cases h
  | error e l =>
    rw [outcome, hrun] at h
    cases h
    rw [handled, solomonReadPoints, hrun]
    exact if_neg (by decide : ¬ (0 : ℤ) < -1)

/-- The report in the vendor's driver. -/
theorem handled_gets {d : Ftdev} {rep : Report} (h : Gets d rep) (hasks : Asks rep.info)
    (haux : statusOf rep.info &&& statusCheckAux = 0) :
    handled d = if esdChecksumOk rep.pkt (pointLen rep.info) then
      some (pointsOf (memcpy d.mem (rep.pkt.take (pointLen rep.info))) rep.info) else none := by
  obtain ⟨snl, hsnl, hinfo⟩ := h.word
  have hne : le16 snl 0 ≠ 0 := by
    intro hzero
    rw [← hinfo, hzero] at hasks
    exact absurd hasks (by decide)
  have hskip : (finalState (snlTries [0, 0, 0, 0] 3) d.link).pointSkipTime = false := by
    obtain ⟨i2c, hl⟩ := (snlTries_uses d.link [0, 0, 0, 0] 3).final_ok ⟨d.link.i2c, rfl⟩ hsnl
    rw [hl]
    exact h.noSkip
  have hpackets := h.packets
  have hrun := readPoints_word h.int hsnl hne
  generalize finalState (snlTries [0, 0, 0, 0] 3) d.link = l at hskip hpackets hrun
  rw [hinfo] at hrun
  have htries := hrun.trans (readWord_points hskip hasks haux)
  split_ifs with hok
  · obtain ⟨bytes, hhead, hbytes⟩ := hpackets 0 (by decide)
    rw [← hbytes] at hok ⊢
    exact handled_ok (htries.trans (pointTries_takes 2 hhead hok)) (by omega)
  · refine handled_reset ?_
    rw [outcome, htries]
    refine pointTries_resets fun k hk => ?_
    obtain ⟨bytes, hhead, hbytes⟩ := hpackets k hk
    rw [← hbytes] at hok
    exact ⟨bytes, hhead, Bool.not_eq_true _ ▸ hok⟩

/-- A report that the port takes: the vendor's driver refuses it where it misreads the checksum; otherwise its
    first ten records are those that the port's slots are from. -/
theorem ported {ts : Ts} {d : Ftdev} {rep : Report} (h : Delivers ts rep) (hgets : Gets d rep) :
    (handled d = none ↔ Misread rep) ∧ ∀ points, handled d = some points → (finalState poll ts).mt =
      ts.mt.run (recordsPacket ts.prop ((points.map SsdData.record).take Ssd2092.maxPoint)) := by
  have hasks : Asks rep.info := ⟨h.noBoot, Nat.pos_of_ne_zero h.points.1, h.points.2⟩
  have hhandled := handled_gets hgets hasks h.noAux
  have haccepts := esdChecksumOk_iff h.checksum
  refine ⟨?_, ?_⟩
  · rw [hhandled, ite_eq_right_iff]
    simp only [reduceCtorEq, imp_false]
    rw [haccepts, not_not, Misread]
  · intro points hpoints
    rw [hhandled] at hpoints
    split_ifs at hpoints
    cases hpoints
    obtain ⟨bytes, -, hbytes⟩ := hgets.packets 0 (by decide)
    have hlen : rep.pkt.length = pointLen rep.info + 2 := by
      rw [← hbytes, List.length_map, List.length_range]
    rw [pointsOf_take d.mem rep.pkt hlen]
    exact Ssd2092.poll_delivers h

/-- One finger. -/
def fingerReport : Report := ⟨0x0106, Ssd2092.fingerPkt⟩

def fingerPoll : Ts :=
  Ssd2092.afterProbe [Ssd2092.reply [], Ssd2092.reply [6, 1, 7, 7], Ssd2092.reply [],
    Ssd2092.reply Ssd2092.fingerPkt, Ssd2092.reply []] (Stream'.const true)

theorem ported_finger : (handled fingerWork = none ↔ Misread fingerReport) ∧
    ∀ points, handled fingerWork = some points → (finalState poll fingerPoll).mt =
      fingerPoll.mt.run (recordsPacket fingerPoll.prop ((points.map SsdData.record).take Ssd2092.maxPoint)) := by
  refine ported ⟨by decide +kernel, by decide, by decide, by decide, by decide +kernel, by decide⟩
    ⟨rfl, rfl, ⟨[6, 1, 7, 7], by decide +kernel, by decide⟩, fun k hk => ?_⟩
  refine ⟨fun i => Ssd2092.fingerPkt.getD i 0, ?_, by decide⟩
  interval_cases k <;> rfl

end GeminiLinux.Solomon
