import GeminiLinux.Touch.Frames

/-! The contacts the input core shows. A restart of the chip, announced by the BOOT or the AUX bit of
    the S&L word, makes it forget its contacts, but only a report ever changes a slot: a finger that
    was down stays down. A report of points leaves down exactly the fingers it says are down, and a
    report without axis records releases every slot or, if it has no length, changes none. -/

namespace GeminiLinux.Ssd2092
open Prog InputMt

/-! ### Restarts -/

/-- The next poll reads a word with the BOOT or the AUX bit, and handles it. -/
def Restarts (ts : Ts) : Prop := ∃ info, outcome readSnl ts = .ok info ∧
  (status info &&& statusBootSt ≠ 0 ∨ status info &&& statusAux ≠ 0)

def SameMt (ts ts' : Ts) : Prop := ts'.mt = ts.mt

instance : Std.Refl SameMt := ⟨fun _ => rfl⟩

instance : IsTrans Ts SameMt := ⟨fun _ _ _ h h' => h'.trans h⟩

theorem Emits.sameMt {Q : Ev → Prop} {α : Type} {p : TsM α} (h : Within (Emits Q) p) :
    Within SameMt p := h.mono fun _ _ h => h.mt

/-- The BOOT and the AUX branch leave the slots alone. -/
theorem pollWord_restart {info : ℕ}
    (h : status info &&& statusBootSt ≠ 0 ∨ status info &&& statusAux ≠ 0) :
    Within SameMt (pollWord info) := by
  refine pollWord_within (fun _ _ h => h.emits.mt) (fun _ _ => Emits.sameMt reinit_emits)
    fun hboot haux => ?_
  rcases h with h | h
  · exact absurd hboot h
  · exact absurd haux h

/-- The acknowledgement does not touch the slots. -/
theorem poll_mt (ts : Ts) : (finalState poll ts).mt = (finalState pollBody ts).mt :=
  Within.tail (R := SameMt) (ack_within fun ts => (intClear_steady ts).emits.mt) pollBody ts

/-- A poll that handles a restart leaves the slots as they were. -/
theorem poll_restart_mt {ts : Ts} (h : Restarts ts) : (finalState poll ts).mt = ts.mt := by
  obtain ⟨info, hinfo, hbits⟩ := h
  rw [poll_mt, pollBody_word hinfo]
  exact (pollWord_restart hbits _).trans (readSnl_plain ts).emits.mt

/-- Over a run of polls every restart that is handled leaves no slot active exactly if none was
    active before it. -/
theorem restarts_release_iff (ts : Ts) (n : ℕ) :
    (∀ k < n, Restarts (after poll k ts) → (after poll (k + 1) ts).mt.active = ∅) ↔
      ∀ k < n, Restarts (after poll k ts) → (after poll k ts).mt.active = ∅ := by
  refine forall₂_congr fun k _ => forall_congr' fun hrestart => ?_
  rw [after_succ, poll_restart_mt hrestart]

/-- A finger is down when the chip reboots. -/
def rebooted : Ts :=
  afterProbe (pointsReplies [6, 1, 7, 7] fingerPkt ++ [reply [], reply [0, 0x80, 0x80, 0x80]])
    (Stream'.const true)

theorem restart_keeps_finger : Probed rebooted ∧
    Restarts (after poll 1 rebooted) ∧ (after poll 2 rebooted).mt.active = {0} :=
  ⟨afterProbe_probed (by decide +kernel), ⟨0x8000, by decide +kernel, .inl (by decide)⟩,
    by decide +kernel⟩

/-! ### Reports -/

/-- The axis records of a packet; the others are keys, gestures and aux data. -/
def axisRecords (rs : List Record) : List Record := rs.filter (·.id ≤ idAxisLast)

/-- What the records make of a frame, before it is ended. -/
def recordsRun (prop : TouchProp) (f : Frame maxPoint) (rs : List Record) : Frame maxPoint :=
  f.run (rs.flatMap (recordEvents prop))

theorem recordsRun_cons (prop : TouchProp) (f : Frame maxPoint) (r : Record) (rs : List Record) :
    recordsRun prop f (r :: rs) = recordsRun prop (recordsRun prop f [r]) rs := by
  simp only [recordsRun, List.flatMap_cons, List.flatMap_nil, List.append_nil, Frame.run_append]

theorem recordsRun_other {prop : TouchProp} {f : Frame maxPoint} {r : Record} (h : r.id > idAxisLast) :
    recordsRun prop f [r] = f := by
  simp [recordsRun, recordEvents, h, Frame.run]

/-- An axis record sets the state of its slot and touches it, and no other. -/
theorem recordsRun_axis {prop : TouchProp} {f : Frame maxPoint} {r : Record}
    (h : r.id ≤ idAxisLast) (hid : r.id < maxPoint) (i : Fin maxPoint) :
    (((recordsRun prop f [r]).mt.slots i).active =
        if r.id = i then decide (r.w > 0) else (f.mt.slots i).active) ∧
      (recordsRun prop f [r]).touched i = if r.id = i then true else f.touched i := by
  have hevs : recordEvents prop r = [.mtSlot r.id, .slotState (r.w > 0)] ++
      if r.w > 0 then [reportPos prop r.x r.y, .pressure r.w] else [] := if_neg (by omega)
  obtain ⟨hactive, htouched⟩ := f.run_slotState hid (r.w > 0) i
  rw [recordsRun, List.flatMap_singleton, hevs, Frame.run_append]
  by_cases hw : r.w > 0
  · obtain ⟨hactive', htouched'⟩ := (f.run [.mtSlot r.id, .slotState (r.w > 0)]).run_axes
      (asInt (applyProp prop r.x r.y).1) (asInt (applyProp prop r.x r.y).2) r.w i
    rw [if_pos hw, reportPos]
    exact ⟨hactive'.trans hactive, (congrFun htouched' i).trans htouched⟩
  · rw [if_neg hw]
    exact ⟨hactive, htouched⟩

/-- The ids of the axis records are slots, and none comes twice. -/
structure Distinct (rs : List Record) : Prop where
  inRange : ∀ r ∈ axisRecords rs, r.id < maxPoint
  nodup : ((axisRecords rs).map Record.id).Nodup

theorem axisRecords_cons_axis {r : Record} {rs : List Record} (h : r.id ≤ idAxisLast) :
    axisRecords (r :: rs) = r :: axisRecords rs := by simp [axisRecords, h]

theorem axisRecords_cons_other {r : Record} {rs : List Record} (h : ¬ r.id ≤ idAxisLast) :
    axisRecords (r :: rs) = axisRecords rs := by simp [axisRecords, h]

theorem Distinct.tail {r : Record} {rs : List Record} (h : Distinct (r :: rs)) : Distinct rs := by
  obtain ⟨hrange, hnodup⟩ := h
  by_cases hax : r.id ≤ idAxisLast
  · rw [axisRecords_cons_axis hax] at hrange hnodup
    rw [List.map_cons, List.nodup_cons] at hnodup
    exact ⟨fun r' hr' => hrange r' (List.mem_cons_of_mem _ hr'), hnodup.2⟩
  · rw [axisRecords_cons_other hax] at hrange hnodup
    exact ⟨hrange, hnodup⟩

/-- A slot that no axis record names stays as it is. -/
theorem recordsRun_unnamed {prop : TouchProp} {i : Fin maxPoint} :
    ∀ {rs : List Record} (f : Frame maxPoint), (∀ r ∈ axisRecords rs, r.id < maxPoint) →
      (∀ r ∈ axisRecords rs, r.id ≠ i) →
      ((recordsRun prop f rs).mt.slots i).active = (f.mt.slots i).active ∧
        (recordsRun prop f rs).touched i = f.touched i := by
  intro rs
  induction rs with
  | nil =>
    intro f _ _
    exact ⟨rfl, rfl⟩
  | cons r rs ih =>
    intro f hrange hne
    rw [recordsRun_cons]
    by_cases hax : r.id ≤ idAxisLast
    · rw [axisRecords_cons_axis hax] at hrange hne
      obtain ⟨hr, hrs⟩ := List.forall_mem_cons.mp hrange
      obtain ⟨hri, hrsi⟩ := List.forall_mem_cons.mp hne
      obtain ⟨hactive, htouched⟩ := ih (recordsRun prop f [r]) hrs hrsi
      obtain ⟨hactive', htouched'⟩ := recordsRun_axis hax hr i
      rw [if_neg hri] at hactive' htouched'
      exact ⟨hactive.trans hactive', htouched.trans htouched'⟩
    · rw [axisRecords_cons_other hax] at hrange hne
      rw [recordsRun_other (by omega)]
      exact ih f hrange hne

/-- A slot that an axis record names has the state the record gives it. -/
theorem recordsRun_named {prop : TouchProp} {i : Fin maxPoint} {r : Record} (hi : r.id = i) :
    ∀ {rs : List Record} (f : Frame maxPoint), Distinct rs → r ∈ axisRecords rs →
      ((recordsRun prop f rs).mt.slots i).active = decide (r.w > 0) ∧
        (recordsRun prop f rs).touched i = true := by
  intro rs
  induction rs with
  | nil =>
    intro f _ hmem
    exact absurd hmem List.not_mem_nil
  | cons r' rs ih =>
    intro f hdistinct hmem
    rw [recordsRun_cons]
    by_cases hax : r'.id ≤ idAxisLast
    · obtain ⟨hrange, hnodup⟩ := hdistinct
      have htail := (Distinct.mk hrange hnodup).tail
      rw [axisRecords_cons_axis hax] at hrange hnodup hmem
      rw [List.map_cons, List.nodup_cons] at hnodup
      rcases List.mem_cons.mp hmem with rfl | hmem
      · have hne : ∀ r' ∈ axisRecords rs, r'.id ≠ i := fun r' hr' heq =>
          hnodup.1 (List.mem_map.mpr ⟨r', hr', heq.trans hi.symm⟩)
        obtain ⟨hactive, htouched⟩ := recordsRun_unnamed
          (recordsRun prop f [r]) htail.inRange hne
        obtain ⟨hactive', htouched'⟩ := recordsRun_axis hax
          (hrange r (List.mem_cons_self ..)) i
        rw [if_pos hi] at hactive' htouched'
        exact ⟨hactive.trans hactive', htouched.trans htouched'⟩
      · exact ih _ htail hmem
    · rw [axisRecords_cons_other hax] at hmem
      exact ih _ hdistinct.tail hmem

/-- The slots a packet leaves active: those of its axis records with weight. -/
theorem mem_active_packet (prop : TouchProp) (m : Mt maxPoint) {pkt : List UInt8} {count : ℕ}
    (h : Distinct (records pkt count)) (i : Fin maxPoint) :
    i ∈ (m.run (pointsPacket prop pkt count)).active ↔
      ∃ r ∈ axisRecords (records pkt count), r.id = i ∧ r.w > 0 := by
  rw [Mt.run, pointsPacket, Frame.run_append, Frame.mem_active_syncFrame]
  by_cases hnamed : ∃ r ∈ axisRecords (records pkt count), r.id = i
  · obtain ⟨r, hmem, hi⟩ := hnamed
    obtain ⟨hactive, htouched⟩ := recordsRun_named  hi ⟨m, fun _ => false⟩ h hmem
    rw [recordsRun] at hactive htouched
    rw [hactive, htouched, decide_eq_true_eq]
    refine ⟨fun hw => ⟨r, hmem, hi, hw.1⟩, ?_⟩
    rintro ⟨r', hmem', hi', hw⟩
    have heq := List.inj_on_of_nodup_map h.nodup hmem' hmem (hi'.trans hi.symm)
    exact ⟨heq ▸ hw, rfl⟩
  · have hne : ∀ r ∈ axisRecords (records pkt count), r.id ≠ i := fun r hr hi => hnamed ⟨r, hr, hi⟩
    obtain ⟨-, htouched⟩ := recordsRun_unnamed  ⟨m, fun _ => false⟩ h.inRange hne
    rw [recordsRun] at htouched
    rw [htouched]
    refine ⟨fun hw => absurd hw.2 (by simp), ?_⟩
    rintro ⟨r, hmem, hi, -⟩
    exact absurd hi (hne r hmem)

/-! ### What a poll makes of a report -/

/-- A report: its S&L word and, if that has a length, the packet that follows. -/
structure Report where
  info : ℕ
  pkt : List UInt8

/-- The complete records of a report. -/
def Report.records (rep : Report) : List Record := Ssd2092.records rep.pkt (len rep.info / pointSz)

/-- The next poll reads the report without an error and with valid checksums, and it is one of
    points: neither BOOT nor AUX, a low status bit set, a length that fits. -/
structure Reads (ts : Ts) (rep : Report) : Prop where
  word : outcome readSnl ts = .ok rep.info
  noBoot : status rep.info &&& statusBootSt = 0
  noAux : status rep.info &&& statusAux = 0
  low : status rep.info &&& 0x7f ≠ 0
  fits : len rep.info ≤ maxPkt - 2
  points : len rep.info ≠ 0 →
    outcome (readReg regPointData (len rep.info + 2)) (finalState readSnl ts) = .ok rep.pkt ∧
      checksumOk (rep.pkt.take (len rep.info)) (le16 rep.pkt (len rep.info)) = true
  distinct : Distinct rep.records

/-- The fingers that are down after a report, if `before` were down: none if it has no record, those
    of its axis records with weight if it has any, and the same ones if it has only others. -/
def fingers (before : Finset (Fin maxPoint)) (rs : List Record) : Finset (Fin maxPoint) :=
  if rs = [] then ∅
  else if axisRecords rs = [] then before
  else Finset.univ.filter fun i => ∃ r ∈ axisRecords rs, r.id = i ∧ r.w > 0

/-- The packet of the report, if it has one, is what changes the slots. -/
theorem poll_report {ts : Ts} {rep : Report} (h : Reads ts rep) :
    (finalState poll ts).mt = if len rep.info = 0 then ts.mt
      else ts.mt.run (pointsPacket ts.prop rep.pkt (len rep.info / pointSz)) := by
  obtain ⟨hword, hboot, haux, hlow, hfits, hpoints, -⟩ := h
  have hne : rep.info ≠ 0 := by
    rintro hzero
    exact hlow (by rw [hzero]; rfl)
  have hlen : pointLen rep.info = len rep.info := Nat.min_eq_left hfits
  obtain ⟨-, hmt, hprop, -⟩ := readSnl_plain ts
  rw [poll_mt, pollBody_word hword, pollWord, if_neg hne, if_neg (not_not.mpr hboot),
    if_neg (not_not.mpr haux)]
  by_cases hzero : len rep.info = 0
  · rw [if_neg (fun hw => hw.1 hzero), if_pos hzero]
    exact hmt
  · obtain ⟨hread, hsum⟩ := hpoints hzero
    obtain ⟨-, hmt', hprop', -⟩ := readReg_plain regPointData (len rep.info + 2) (finalState readSnl ts)
    have hatt : outcome (attempt (readReg regPointData (len rep.info + 2))) (finalState readSnl ts) =
        .ok (.ok rep.pkt) := by rw [outcome_attempt, hread]
    have hstate : (finalState (readPoints rep.info) (finalState readSnl ts)).mt =
        ts.mt.run (pointsPacket ts.prop rep.pkt (len rep.info / pointSz)) := by
      rw [readPoints, hlen, finalState_bind_ok _ hatt, finalState_attempt]
      simp only [hsum, if_true]
      rw [reportPoints, finalState_modify, hmt', hprop', hmt, hprop]
    rw [if_pos ⟨hzero, hlow⟩, if_neg hzero]
    rcases hout : outcome (readPoints rep.info) (finalState readSnl ts) with e | u
    · rw [finalState_bind_error _ hout]; exact hstate
    · rw [finalState_bind_ok _ hout]; exact hstate

/-- A report the two drivers treat differently: without a length, or with records of which none is
    an axis record. -/
def Rare (rep : Report) : Prop :=
  len rep.info = 0 ∨ rep.records ≠ [] ∧ axisRecords rep.records = []

theorem records_eq_nil {pkt : List UInt8} {count : ℕ} : records pkt count = [] ↔ count = 0 := by
  simp [records]

/-- After one report the slots show the fingers that are down, unless the report is a rare one and
    fingers were down. -/
theorem poll_fingers_iff {ts : Ts} {rep : Report} (h : Reads ts rep) :
    (finalState poll ts).mt.active = fingers ts.mt.active rep.records ↔
      (Rare rep → ts.mt.active = ∅) := by
  rw [poll_report h]
  by_cases hzero : len rep.info = 0
  · have hnil : rep.records = [] := records_eq_nil.mpr (by rw [hzero]; rfl)
    rw [if_pos hzero, fingers, if_pos hnil]
    exact ⟨fun heq _ => heq, fun himp => himp (.inl hzero)⟩
  · rw [if_neg hzero]
    have hmem := mem_active_packet ts.prop ts.mt h.distinct
    have hrare : Rare rep ↔ rep.records ≠ [] ∧ axisRecords rep.records = [] :=
      or_iff_right hzero
    rw [fingers, hrare]
    split_ifs with hnil haxis
    · refine ⟨fun _ hw => absurd hnil hw.1, fun _ => Finset.eq_empty_of_forall_notMem fun i hi => ?_⟩
      obtain ⟨r, hr, -⟩ := (hmem i).mp hi
      rw [← Report.records, hnil] at hr
      exact absurd hr (List.not_mem_nil)
    · have hempty : (ts.mt.run (pointsPacket ts.prop rep.pkt (len rep.info / pointSz))).active = ∅ := by
        refine Finset.eq_empty_of_forall_notMem fun i hi => ?_
        obtain ⟨r, hr, -⟩ := (hmem i).mp hi
        rw [← Report.records, haxis] at hr
        exact absurd hr (List.not_mem_nil)
      rw [hempty]
      exact ⟨fun heq _ => heq.symm, fun himp => (himp ⟨hnil, haxis⟩).symm⟩
    · refine ⟨fun _ hw => absurd hw.2 haxis, fun _ => Finset.ext fun i => ?_⟩
      rw [hmem i, Finset.mem_filter, ← Report.records]
      simp

/-- Over any sequence of reports the slots show the fingers that are down exactly if no finger is
    down when a rare report comes. -/
theorem fingers_tracked_iff (ts : Ts) (n : ℕ) (rep : ℕ → Report)
    (h : ∀ k < n, Reads (after poll k ts) (rep k)) :
    (∀ k < n, (after poll (k + 1) ts).mt.active =
        fingers (after poll k ts).mt.active (rep k).records) ↔
      ∀ k < n, Rare (rep k) → (after poll k ts).mt.active = ∅ := by
  refine forall₂_congr fun k hk => ?_
  rw [after_succ]
  exact poll_fingers_iff (h k hk)

/-- A finger is down when a report without a length comes. -/
def held : Ts :=
  afterProbe (pointsReplies [6, 1, 7, 7] fingerPkt ++ [reply [], reply [0, 1, 1, 1]])
    (Stream'.const true)

def heldReports : ℕ → Report
  | 0 => ⟨0x0106, fingerPkt⟩
  | _ => ⟨0x0100, []⟩

theorem heldReports_read : ∀ k < 2, Reads (after poll k held) (heldReports k)
  | 0, _ => ⟨by decide +kernel, by decide, by decide, by decide, by decide,
      fun _ => by decide +kernel, by decide, by decide⟩
  | 1, _ => ⟨by decide +kernel, by decide, by decide, by decide, by decide,
      fun hlen => absurd rfl hlen, by decide, by decide⟩

theorem fingers_tracked_iff_held :
    (∀ k < 2, (after poll (k + 1) held).mt.active =
        fingers (after poll k held).mt.active (heldReports k).records) ↔
      ∀ k < 2, Rare (heldReports k) → (after poll k held).mt.active = ∅ :=
  fingers_tracked_iff held 2 heldReports heldReports_read

theorem held_finger_sticks :
    (∀ k < 2, Reads (after poll k held) (heldReports k)) ∧
      ¬ ∀ k < 2, (after poll (k + 1) held).mt.active =
        fingers (after poll k held).mt.active (heldReports k).records := by
  refine ⟨heldReports_read, ?_⟩
  intro htracked
  have hstays : (after poll 2 held).mt.active = {0} := by decide +kernel
  have hgone : fingers (after poll 1 held).mt.active (heldReports 1).records = ∅ := rfl
  exact absurd ((hstays.symm.trans (htracked 1 (by decide))).trans hgone) (by decide)

end GeminiLinux.Ssd2092
