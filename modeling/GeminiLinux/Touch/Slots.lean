import GeminiLinux.Touch.Contacts

/-! Which records a slot gets. The slot selected is carried from record to record, and the ids the
    driver takes for axes go up to 0x0e while the device has ten slots: a record with an id from 10
    to 14 selects nothing and goes to the slot the record before it has selected.

        id:    0 .. 9        10 .. 14            0x0f ..
               slot id       slot selected       none

    At the end of the frame a slot shows the last record that has reached it and the axes of the last
    one with weight, and that is right exactly if the records of its own would leave it the same. -/

namespace GeminiLinux.Ssd2092
open Prog InputMt

/-! ### One record -/

/-- The slot of a contact with weight. -/
def contact (prop : TouchProp) (r : Record) : Slot where
  active := true
  x := asInt (applyProp prop r.x r.y).1
  y := asInt (applyProp prop r.x r.y).2
  pressure := r.w

/-- What a record makes of the slot it reaches. -/
def put (prop : TouchProp) (s : Slot) (r : Record) : Slot :=
  if r.w > 0 then contact prop r else { s with active := false }

/-- The slot selected after a record. -/
def selects (slot : Fin maxPoint) (r : Record) : Fin maxPoint :=
  if h : r.id < maxPoint then ⟨r.id, h⟩ else slot

theorem selects_eq_iff {slot k : Fin maxPoint} {r : Record} (h : r.id < maxPoint) :
    selects slot r = k ↔ r.id = k := by
  rw [selects, dif_pos h, Fin.ext_iff]

theorem step_mtSlot (f : Frame maxPoint) (r : Record) :
    f.step (.mtSlot r.id) = { f with mt := { f.mt with slot := selects f.mt.slot r } } := by
  simp only [Frame.step, selects]
  split_ifs with h
  · rfl
  · rfl

/-- An axis record changes the slot selected after it, and touches it. -/
theorem recordsRun_put {prop : TouchProp} {f : Frame maxPoint} {r : Record} (h : r.id ≤ idAxisLast) :
    recordsRun prop f [r] =
      { mt := Mt.update ⟨selects f.mt.slot r, f.mt.slots⟩ (put prop · r)
        touched := Function.update f.touched (selects f.mt.slot r) true } := by
  have hevs : recordEvents prop r = [.mtSlot r.id, .slotState (r.w > 0)] ++
      if r.w > 0 then [reportPos prop r.x r.y, .pressure r.w] else [] := if_neg (by omega)
  have hselect : f.run [.mtSlot r.id, .slotState (r.w > 0)] =
      ({ f with mt := { f.mt with slot := selects f.mt.slot r } } : Frame maxPoint).step
        (.slotState (r.w > 0)) := by
    rw [← step_mtSlot]
    rfl
  rw [recordsRun, List.flatMap_singleton, hevs, Frame.run_append, hselect]
  by_cases hw : r.w > 0
  · simp [Frame.run, Frame.step, Mt.update, put, contact, reportPos, hw]
  · simp [Frame.run, Frame.step, Mt.update, put, hw]

/-! ### All records -/

/-- The records that reach slot `k`, `slot` being selected before them. -/
def reaching (k : Fin maxPoint) : Fin maxPoint → List Record → List Record
  | _, [] => []
  | slot, r :: rs =>
    if r.id > idAxisLast then reaching k slot rs
    else if selects slot r = k then r :: reaching k (selects slot r) rs
    else reaching k (selects slot r) rs

/-- Each slot gets the records that reach it, in their order, and is touched by them. -/
theorem recordsRun_slot (prop : TouchProp) (k : Fin maxPoint) :
    ∀ (rs : List Record) (f : Frame maxPoint),
      (recordsRun prop f rs).mt.slots k =
          (reaching k f.mt.slot rs).foldl (put prop) (f.mt.slots k) ∧
        ((recordsRun prop f rs).touched k = true ↔
          f.touched k = true ∨ reaching k f.mt.slot rs ≠ []) := by
  intro rs
  induction rs with
  | nil =>
    intro f
    simp [recordsRun, Frame.run, reaching]
  | cons r rs ih =>
    intro f
    obtain ⟨hslots, htouched⟩ := ih (recordsRun prop f [r])
    rw [recordsRun_cons, hslots, htouched]
    by_cases hax : r.id > idAxisLast
    · rw [recordsRun_other hax, reaching, if_pos hax]
      exact ⟨rfl, Iff.rfl⟩
    · rw [recordsRun_put (by omega), reaching, if_neg hax]
      by_cases hk : selects f.mt.slot r = k
      · subst hk
        simp [Mt.update]
      · have hk' : k ≠ selects f.mt.slot r := fun h => hk h.symm
        simp [Mt.update, hk, hk']

/-- The last of some records has weight. -/
def lastDown (rs : List Record) : Prop := ∃ r, rs.getLast? = some r ∧ r.w > 0

instance (rs : List Record) : Decidable (lastDown rs) :=
  decidable_of_iff (rs.getLast?.any (·.w > 0) = true) (by
    cases h : rs.getLast? with
    | none => simp [lastDown, h]
    | some r => simp [lastDown, h])

/-- What the last of some records with weight says of the slot, or `s` if none has weight. -/
def lastPut (prop : TouchProp) (s : Slot) (rs : List Record) : Slot :=
  ((rs.filter (·.w > 0)).getLast?.map (contact prop)).getD s

/-- What some records, and the end of the frame after them, make of a slot. -/
def settle (prop : TouchProp) (s : Slot) (rs : List Record) : Slot :=
  { lastPut prop s rs with active := lastDown rs }

theorem lastDown_append (rs : List Record) (r : Record) : lastDown (rs ++ [r]) ↔ r.w > 0 := by
  simp [lastDown]

theorem lastPut_append (prop : TouchProp) (s : Slot) (rs : List Record) (r : Record) :
    lastPut prop s (rs ++ [r]) = if r.w > 0 then contact prop r else lastPut prop s rs := by
  by_cases hw : r.w > 0
  · simp [lastPut, hw]
  · simp [lastPut, hw]

/-- A slot that records reach is left as the last of them say. -/
theorem foldl_put (prop : TouchProp) (s : Slot) (rs : List Record) :
    rs.foldl (put prop) s =
      { lastPut prop s rs with active := if rs = [] then s.active else lastDown rs } := by
  induction rs using List.reverseRecOn with
  | nil => simp [lastPut]
  | append_singleton rs r ih =>
    rw [List.foldl_append, List.foldl_cons, List.foldl_nil, ih, lastPut_append]
    by_cases hw : r.w > 0
    · simp [put, lastDown_append, hw, contact]
    · simp [put, lastDown_append, hw]

/-- The packet of some records. -/
def recordsPacket (prop : TouchProp) (rs : List Record) : List InputEv :=
  rs.flatMap (recordEvents prop) ++ [.syncFrame]

theorem run_recordsPacket (prop : TouchProp) (m : Mt maxPoint) (rs : List Record) (k : Fin maxPoint) :
    (m.run (recordsPacket prop rs)).slots k = settle prop (m.slots k) (reaching k m.slot rs) := by
  obtain ⟨hslots, htouched⟩ := recordsRun_slot prop k rs ⟨m, fun _ => false⟩
  have hsync : (m.run (recordsPacket prop rs)).slots k =
      { (recordsRun prop ⟨m, fun _ => false⟩ rs).mt.slots k with
        active := ((recordsRun prop ⟨m, fun _ => false⟩ rs).mt.slots k).active &&
          (recordsRun prop ⟨m, fun _ => false⟩ rs).touched k } := by
    rw [Mt.run, recordsPacket, Frame.run_append]
    rfl
  rw [hsync, hslots, foldl_put]
  by_cases hnil : reaching k m.slot rs = []
  · have hfree : (recordsRun prop ⟨m, fun _ => false⟩ rs).touched k = false := by
      rw [← Bool.not_eq_true, htouched]
      simp [hnil]
    simp [hfree, hnil, settle, lastDown]
  · rw [htouched.mpr (.inr hnil)]
    simp [hnil, settle]

/-! ### The records of a contact -/

/-- The records with the id of slot `k`. -/
def own (k : Fin maxPoint) (rs : List Record) : List Record := rs.filter (·.id = k)

/-- The records that have a slot of their own. -/
def slotted (rs : List Record) : List Record := rs.filter (·.id < maxPoint)

/-- Records with slots of their own reach those and no other. -/
theorem reaching_slotted (k : Fin maxPoint) :
    ∀ (rs : List Record) (slot : Fin maxPoint), reaching k slot (slotted rs) = own k rs := by
  have hk := k.isLt
  intro rs
  induction rs with
  | nil =>
    intro slot
    rfl
  | cons r rs ih =>
    intro slot
    by_cases hr : r.id < maxPoint
    · have hax : ¬ r.id > idAxisLast := by
        have : maxPoint = 10 := rfl
        have : idAxisLast = 14 := rfl
        omega
      rw [slotted, List.filter_cons_of_pos (by simpa using hr), reaching, if_neg hax]
      simp only [selects_eq_iff hr, own, List.filter_cons, decide_eq_true_eq]
      rw [← slotted, ih, ← own]
    · have hne : ¬ r.id = k := by omega
      rw [slotted, List.filter_cons_of_neg (by simpa using hr), ← slotted, ih, own, own,
        List.filter_cons_of_neg (by simpa using hne)]

/-- The report of `rs` leaves in each slot what the records of its contact say: the last of them
    decides whether it is active and where, and a contact without records is released. The records
    without a slot make no difference. -/
structure Tracks (prop : TouchProp) (m : Mt maxPoint) (rs : List Record) (m' : Mt maxPoint) :
    Prop where
  active : ∀ k, (m'.slots k).active = true ↔ ∃ r, (own k rs).getLast? = some r ∧ r.w > 0
  placed : ∀ k r, (own k rs).getLast? = some r → r.w > 0 → m'.slots k = contact prop r
  strays : m'.slots = (m.run (recordsPacket prop (slotted rs))).slots

/-- Every slot shows the same after the records that reach it as after its own: if the last of these
    has weight so has the last of those, and the last ones with weight agree on the axes. -/
structure Harmless (prop : TouchProp) (m : Mt maxPoint) (rs : List Record) : Prop where
  down : ∀ k, lastDown (reaching k m.slot rs) ↔ lastDown (own k rs)
  axes : ∀ k, { lastPut prop (m.slots k) (reaching k m.slot rs) with active := false } =
    { lastPut prop (m.slots k) (own k rs) with active := false }

theorem settle_eq_iff (prop : TouchProp) (s : Slot) (rs rs' : List Record) :
    settle prop s rs = settle prop s rs' ↔ (lastDown rs ↔ lastDown rs') ∧
      { lastPut prop s rs with active := false } = { lastPut prop s rs' with active := false } := by
  simp only [settle, Slot.mk.injEq, decide_eq_decide, true_and]

theorem settle_of_down {prop : TouchProp} {s : Slot} {rs : List Record} {r : Record}
    (hlast : rs.getLast? = some r) (hw : r.w > 0) : settle prop s rs = contact prop r := by
  obtain ⟨init, rfl⟩ := List.getLast?_eq_some_iff.mp hlast
  rw [settle, lastPut_append, if_pos hw]
  simp [lastDown_append, hw, contact]

/-- A report leaves in the slots what their contacts say exactly if the records without a slot of
    their own do no harm. -/
theorem reportPoints_tracks_iff (ts : Ts) (pkt : List UInt8) (count : ℕ) :
    Tracks ts.prop ts.mt (records pkt count) (finalState (reportPoints pkt count) ts).mt ↔
      Harmless ts.prop ts.mt (records pkt count) := by
  generalize hrs : records pkt count = rs
  have hmt : (finalState (reportPoints pkt count) ts).mt = ts.mt.run (recordsPacket ts.prop rs) := by
    rw [reportPoints, finalState_modify, pointsPacket, hrs]
    rfl
  have hown (k : Fin maxPoint) : (ts.mt.run (recordsPacket ts.prop (slotted rs))).slots k =
      settle ts.prop (ts.mt.slots k) (own k rs) := by
    rw [run_recordsPacket, reaching_slotted]
  have hstrays : (ts.mt.run (recordsPacket ts.prop rs)).slots =
      (ts.mt.run (recordsPacket ts.prop (slotted rs))).slots ↔ Harmless ts.prop ts.mt rs := by
    rw [funext_iff]
    simp only [hown, run_recordsPacket, settle_eq_iff, forall_and]
    exact ⟨fun h => ⟨h.1, h.2⟩, fun h => ⟨h.down, h.axes⟩⟩
  rw [hmt]
  refine ⟨fun h => hstrays.mp h.strays, ?_⟩
  intro h
  have hslots := hstrays.mpr h
  refine ⟨?_, ?_, hslots⟩
  · intro k
    rw [hslots, hown, settle, decide_eq_true_eq, lastDown]
  · intro k r hlast hw
    rw [hslots, hown, settle_of_down hlast hw]

/-- A contact with id 12 after one with id 0: the finger of slot 0 jumps to its position. -/
def strayPkt : List UInt8 := [0, 10, 20, 0, 5, 0, 12, 200, 44, 0x01, 9, 0]

theorem stray_moves_finger :
    ¬ ∀ (ts : Ts) (pkt : List UInt8) (count : ℕ),
      Tracks ts.prop ts.mt (records pkt count) (finalState (reportPoints pkt count) ts).mt := by
  intro h
  have hslot := (h (afterProbe [] (Stream'.const true)) strayPkt 2).placed 0 ⟨0, 10, 20, 5⟩
    (by decide) (by decide)
  exact absurd hslot (by decide +kernel)

end GeminiLinux.Ssd2092
