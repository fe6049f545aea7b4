import GeminiLinux.Touch.Slots

/-! A report that comes more than once. The chip keeps it until an INT_CLEAR gets through, so one that does
    not brings the same report back at the next poll, however often:

        report ─▶ slots ─▶ INT_CLEAR ✗ ─▶ report ─▶ slots ─▶ INT_CLEAR ✗ ─▶ report ─▶ …

    A slot shows what the last records that reach it say, and they say the same again, to the same slots. Only
    records in front of the first one with a slot go to the slot selected before the report, and that may be
    another one the second time: behind a report the slot is selected that was released last, if one was. So a
    contact that has no slot of its own can go to and fro for ever. -/

namespace GeminiLinux.Ssd2092
open Prog InputMt

/-! ### The slot selected behind a report -/

def selected (slot : Fin maxPoint) (rs : List Record) : Fin maxPoint :=
  rs.foldl (fun slot r => if r.id > idAxisLast then slot else selects slot r) slot

theorem slot_recordsRun (prop : TouchProp) (rs : List Record) (f : Frame maxPoint) :
    (recordsRun prop f rs).mt.slot = selected f.mt.slot rs := by
  induction rs generalizing f with
  | nil => rfl
  | cons r rs ih =>
    rw [recordsRun_cons, ih, selected, selected, List.foldl_cons]
    by_cases hax : r.id > idAxisLast
    · rw [recordsRun_other hax, if_pos hax]
    · rw [recordsRun_put (by omega), if_neg hax]
      rfl

/-- Records select the same slot whatever was selected before, or none of them selects one. -/
theorem selected_const_or_id (rs : List Record) :
    (∀ slot slot', selected slot rs = selected slot' rs) ∨ ∀ slot, selected slot rs = slot := by
  induction rs using List.reverseRecOn with
  | nil => exact .inr fun _ => rfl
  | append_singleton rs r ih =>
    have hlast (slot : Fin maxPoint) : selected slot (rs ++ [r]) =
        if r.id > idAxisLast then selected slot rs else selects (selected slot rs) r := by
      rw [selected, List.foldl_append]
      rfl
    simp only [hlast]
    by_cases hax : r.id > idAxisLast
    · simp only [if_pos hax]
      exact ih
    · simp only [if_neg hax, selects]
      by_cases hid : r.id < maxPoint
      · exact .inl fun _ _ => by rw [dif_pos hid, dif_pos hid]
      · simp only [dif_neg hid]
        exact ih

theorem selected_selected (slot : Fin maxPoint) (rs : List Record) :
    selected (selected slot rs) rs = selected slot rs := by
  rcases selected_const_or_id rs with h | h
  · exact h _ _
  · exact h _

/-- The first axis record, if there is one, has a slot of its own. -/
def Leads (rs : List Record) : Prop := ∀ r ∈ (axisRecords rs).head?, r.id < maxPoint

instance (rs : List Record) : Decidable (Leads rs) := by unfold Leads; infer_instance

/-- What reaches a slot is then independent of the selection before the report. -/
theorem reaching_of_leads {rs : List Record} (h : Leads rs) (k slot slot' : Fin maxPoint) :
    reaching k slot rs = reaching k slot' rs := by
  induction rs with
  | nil => rfl
  | cons r rs ih =>
    rw [reaching, reaching]
    by_cases hax : r.id > idAxisLast
    · rw [if_pos hax, if_pos hax]
      rw [Leads, axisRecords_cons_other (by omega)] at h
      exact ih h
    · rw [Leads, axisRecords_cons_axis (by omega)] at h
      have hid : r.id < maxPoint := h r rfl
      have hselects : selects slot r = selects slot' r := by rw [selects, selects, dif_pos hid, dif_pos hid]
      rw [if_neg hax, if_neg hax, hselects]

/-! ### The same records again -/

/-- The frame of some records, before it is ended. -/
def framed (prop : TouchProp) (m : Mt maxPoint) (rs : List Record) : Frame maxPoint :=
  recordsRun prop ⟨m, fun _ => false⟩ rs

/-- A slot is released that shows a contact and is not reached. -/
theorem mem_unused {prop : TouchProp} {m : Mt maxPoint} {rs : List Record} {k : Fin maxPoint} :
    k ∈ (framed prop m rs).unused ↔ (m.slots k).active = true ∧ reaching k m.slot rs = [] := by
  obtain ⟨hslots, htouched⟩ := recordsRun_slot prop k rs ⟨m, fun _ => false⟩
  have hfree : (framed prop m rs).touched k = false ↔ reaching k m.slot rs = [] := by
    rw [framed, ← Bool.not_eq_true, htouched]
    simp
  have hmem : k ∈ (framed prop m rs).unused ↔
      ((framed prop m rs).mt.slots k).active = true ∧ (framed prop m rs).touched k = false := by
    simp [Frame.unused]
  rw [hmem, hfree]
  refine and_congr_left fun hnone => ?_
  rw [framed, hslots, hnone]
  rfl

/-- Behind a report the slot is selected that was released last, or else the one of the last record. -/
theorem slot_recordsPacket (prop : TouchProp) (m : Mt maxPoint) (rs : List Record) :
    (m.run (recordsPacket prop rs)).slot =
      (framed prop m rs).unused.getLast?.getD (selected m.slot rs) := by
  rw [Mt.run, recordsPacket, Frame.run_append, ← slot_recordsRun prop rs ⟨m, fun _ => false⟩]
  rfl

/-- The same records say the same of a slot. -/
theorem settle_settle (prop : TouchProp) (s : Slot) (rs : List Record) :
    settle prop (settle prop s rs) rs = settle prop s rs := by
  cases hlast : (rs.filter (·.w > 0)).getLast? with
  | none => simp [settle, lastPut, hlast]
  | some r => simp [settle, lastPut, hlast]

theorem mt_ext {m m' : Mt maxPoint} (hslot : m.slot = m'.slot) (hslots : m.slots = m'.slots) : m = m' := by
  obtain ⟨slot, slots⟩ := m
  obtain ⟨slot', slots'⟩ := m'
  cases hslot
  cases hslots
  rfl

section Again

variable {prop : TouchProp} {m : Mt maxPoint} {rs : List Record} (hleads : Leads rs)
include hleads

/-- The second time every slot keeps what it shows, and none is released. -/
theorem slots_again :
    ((m.run (recordsPacket prop rs)).run (recordsPacket prop rs)).slots = (m.run (recordsPacket prop rs)).slots := by
  funext k
  have hsame := reaching_of_leads hleads k (m.run (recordsPacket prop rs)).slot m.slot
  rw [run_recordsPacket, run_recordsPacket, hsame, settle_settle]

theorem unused_again : (framed prop (m.run (recordsPacket prop rs)) rs).unused = [] := by
  refine List.eq_nil_iff_forall_not_mem.mpr fun k hk => ?_
  obtain ⟨hactive, hnone⟩ := mem_unused.mp hk
  rw [reaching_of_leads hleads k _ m.slot] at hnone
  rw [run_recordsPacket, hnone] at hactive
  simp [settle, lastDown] at hactive

theorem slot_again : ((m.run (recordsPacket prop rs)).run (recordsPacket prop rs)).slot =
    selected (m.run (recordsPacket prop rs)).slot rs := by
  rw [slot_recordsPacket, unused_again hleads]
  rfl

/-- The third time nothing changes at all. -/
theorem packet_again : (((m.run (recordsPacket prop rs)).run (recordsPacket prop rs)).run (recordsPacket prop rs)) =
    (m.run (recordsPacket prop rs)).run (recordsPacket prop rs) := by
  refine mt_ext ?_ (slots_again hleads)
  rw [slot_again hleads, slot_again hleads, selected_selected]

end Again

/-! ### Polls -/

/-- The records that a poll takes from a report. -/
def Report.taken (rep : Report) : List Record := Ssd2092.records rep.pkt (pointLen rep.info / pointSz)

/-- The next poll gets the report, and it is one of points: no BOOT, no AUX, a length and a low status bit, and
    a packet with the right checksum. -/
structure Delivers (ts : Ts) (rep : Report) : Prop where
  word : outcome readSnl ts = .ok rep.info
  noBoot : status rep.info &&& statusBootSt = 0
  noAux : status rep.info &&& statusAux = 0
  points : len rep.info ≠ 0 ∧ status rep.info &&& 0x7f ≠ 0
  packet : outcome (readReg regPointData (pointLen rep.info + 2)) (finalState readSnl ts) = .ok rep.pkt
  checksum : checksumOk (rep.pkt.take (pointLen rep.info)) (le16 rep.pkt (pointLen rep.info)) = true

theorem readPoints_mt {ts : Ts} {info : ℕ} {pkt : List UInt8}
    (hread : outcome (readReg regPointData (pointLen info + 2)) ts = .ok pkt)
    (hsum : checksumOk (pkt.take (pointLen info)) (le16 pkt (pointLen info)) = true) :
    (finalState (readPoints info) ts).mt =
      ts.mt.run (recordsPacket ts.prop (records pkt (pointLen info / pointSz))) := by
  have hatt : outcome (attempt (readReg regPointData (pointLen info + 2))) ts = .ok (.ok pkt) := by
    rw [outcome_attempt, hread]
  obtain ⟨-, hmt, hprop, -⟩ := readReg_plain regPointData (pointLen info + 2) ts
  rw [readPoints, finalState_bind_ok _ hatt, finalState_attempt]
  simp only [hsum, if_true]
  rw [reportPoints, finalState_modify, hmt, hprop]
  rfl

theorem poll_delivers {ts : Ts} {rep : Report} (h : Delivers ts rep) :
    (finalState poll ts).mt = ts.mt.run (recordsPacket ts.prop rep.taken) := by
  obtain ⟨-, hmt, hprop, -⟩ := readSnl_plain ts
  have hne : rep.info ≠ 0 := fun hzero => h.points.1 (by rw [hzero]; rfl)
  rw [poll_mt, pollBody_word h.word, pollWord, if_neg hne, if_neg (not_not.mpr h.noBoot),
    if_neg (not_not.mpr h.noAux), if_pos h.points]
  have hstate := readPoints_mt h.packet h.checksum
  rw [hmt, hprop] at hstate
  cases hout : outcome (readPoints rep.info) (finalState readSnl ts) with
  | error e => exact (finalState_bind_error _ hout).symm ▸ hstate
  | ok u => exact (finalState_bind_ok _ hout).symm ▸ hstate

/-- Each delivery of a report is a packet of its records. -/
theorem after_delivered {ts : Ts} {rep : Report} {n : ℕ} (h : ∀ k < n, Delivers (after poll k ts) rep) {k : ℕ}
    (hk : k < n) : (after poll (k + 1) ts).mt = (after poll k ts).mt.run (recordsPacket ts.prop rep.taken) := by
  rw [after_succ, poll_delivers (h k hk), after_prop]

/-- A finger whose report is acknowledged by a write that fails, three times over. -/
def unclearedPolls : Ts :=
  let report := [reply [], reply [6, 1, 7, 7], reply [], reply fingerPkt, .error .ETIMEDOUT]
  afterProbe (report ++ report ++ report) (Stream'.const true)

/-- One finger is down, and another slot than its own is selected. -/
def Astray (m : Mt maxPoint) : Prop := ∃ k, m.active = {k} ∧ m.slot ≠ k

/-- A contact without a slot moves to the one that is selected; the other one is released, and selected. -/
theorem stray_moves {prop : TouchProp} {m : Mt maxPoint} {r : Record} (hid : maxPoint ≤ r.id)
    (hax : r.id ≤ idAxisLast) (hw : r.w > 0) (h : Astray m) :
    (m.run (recordsPacket prop [r])).active = {m.slot} ∧ Astray (m.run (recordsPacket prop [r])) := by
  obtain ⟨k, hactive, hne⟩ := h
  have hselects : selects m.slot r = m.slot := dif_neg (by omega)
  have hreach (i : Fin maxPoint) : reaching i m.slot [r] = if m.slot = i then [r] else [] := by
    rw [reaching, if_neg (by omega), hselects]
    rfl
  have hmoved : (m.run (recordsPacket prop [r])).active = {m.slot} := by
    ext i
    rw [mem_active, run_recordsPacket, hreach, settle, Finset.mem_singleton, eq_comm (a := i)]
    split_ifs with hi
    · simp [lastDown, hw, hi]
    · simp [lastDown, hi]
  have hunused (i : Fin maxPoint) : i ∈ (framed prop m [r]).unused ↔ i = k := by
    have hin : (m.slots i).active = true ↔ i = k := by
      rw [← mem_active, hactive, Finset.mem_singleton]
    rw [mem_unused, hreach, hin]
    constructor
    · exact fun hi => hi.1
    · rintro rfl
      exact ⟨rfl, if_neg hne⟩
  have hslot : (m.run (recordsPacket prop [r])).slot = k := by
    rw [slot_recordsPacket]
    cases hlast : (framed prop m [r]).unused.getLast? with
    | none =>
      rw [List.getLast?_eq_none_iff] at hlast
      have hk := (hunused k).mpr rfl
      rw [hlast] at hk
      cases hk
    | some i => exact (hunused i).mp (List.mem_of_getLast? hlast)
  exact ⟨hmoved, m.slot, hmoved, fun heq => hne (heq.symm.trans hslot)⟩

/-- Delivered again and again it goes to and fro: each time it is in a slot that it was not in before. -/
theorem stray_redelivered {ts : Ts} {rep : Report} {r : Record} {n : ℕ}
    (h : ∀ k < n, Delivers (after poll k ts) rep) (htaken : rep.taken = [r]) (hid : maxPoint ≤ r.id)
    (hax : r.id ≤ idAxisLast) (hw : r.w > 0) (hstart : Astray ts.mt) : ∀ k < n,
      (after poll (k + 1) ts).mt.active = {(after poll k ts).mt.slot} ∧
        (after poll k ts).mt.slot ∉ (after poll k ts).mt.active := by
  have hmt {k : ℕ} (hk : k < n) := after_delivered h hk
  rw [htaken] at hmt
  have hastray (k : ℕ) (hk : k ≤ n) : Astray (after poll k ts).mt := by
    induction k with
    | zero => exact hstart
    | succ k ih =>
      rw [hmt hk]
      exact (stray_moves hid hax hw (ih (by omega))).2
  intro k hk
  obtain ⟨i, hactive, hne⟩ := hastray k hk.le
  rw [hmt hk]
  refine ⟨(stray_moves hid hax hw (hastray k hk.le)).1, ?_⟩
  rw [hactive, Finset.mem_singleton]
  exact hne

end GeminiLinux.Ssd2092
