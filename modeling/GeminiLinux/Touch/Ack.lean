import GeminiLinux.Touch.Contacts
import GeminiLinux.Touch.Transfers

/-! What a poll acknowledges. The chip keeps a report latched until INT_CLEAR is written, so a write
    that comes before all of the report is handled loses the rest: points that are not delivered, a
    boot flag without a configuration, an AUX flag without a re-initialisation. Every path to the
    label `ack` leads to such a write, those of a failed read too. -/

namespace GeminiLinux.Ssd2092
open Prog InputMt

/-! ### Marks -/

/-- What an event of the trace says about the report that is latched. -/
inductive Mark where
  | acked
  | configured
  | wasReset
  | delivered (evs : List InputEv)
  deriving DecidableEq

/-- A write of INT_CLEAR that succeeded acknowledges; `ssd2092_tmc_config` logs its geometry only where
    it succeeds. -/
def Ev.mark : Ev → Option Mark
  | .send pkt ok _ => if ok ∧ pkt = intClearPkt then some .acked else none
  | .recv _ _ => none
  | .reset asserted => if asserted then some .wasReset else none
  | .log fmt _ => if fmt = tmcConfigFmt then some .configured else none
  | .packet evs => some (.delivered evs)

def marks (ts : Ts) : List Mark := ts.trace.filterMap Ev.mark

theorem Emits.marks {Q : Ev → Prop} {ts ts' : Ts} (h : Emits Q ts ts') :
    ∃ evs : List Ev, Ssd2092.marks ts' = Ssd2092.marks ts ++ evs.filterMap Ev.mark ∧
      ∀ ev ∈ evs, Q ev := by
  obtain ⟨evs, htrace, hall⟩ := h.evs
  exact ⟨evs, by rw [Ssd2092.marks, htrace, List.filterMap_append, Ssd2092.marks], hall⟩

/-- What carries no mark adds none. -/
theorem Emits.marks_eq {Q : Ev → Prop} {ts ts' : Ts} (h : Emits Q ts ts')
    (hQ : ∀ ev, Q ev → ev.mark = none) : Ssd2092.marks ts' = Ssd2092.marks ts := by
  obtain ⟨evs, hmarks, hall⟩ := h.marks
  rw [hmarks, List.filterMap_eq_nil_iff.mpr fun ev hev => hQ ev (hall ev hev), List.append_nil]

/-- What never acknowledges adds no such mark. -/
theorem Emits.marks_noAck {Q : Ev → Prop} {ts ts' : Ts} (h : Emits Q ts ts')
    (hQ : ∀ ev, Q ev → ev.mark ≠ some .acked) :
    ∃ ms, Ssd2092.marks ts' = Ssd2092.marks ts ++ ms ∧ .acked ∉ ms := by
  obtain ⟨evs, hmarks, hall⟩ := h.marks
  refine ⟨_, hmarks, ?_⟩
  intro hmem
  obtain ⟨ev, hev, hmark⟩ := List.mem_filterMap.mp hmem
  exact hQ ev (hall ev hev) hmark

theorem Plain.mark {run : Bool} : ∀ {ev : Ev}, Plain run ev → ev.mark = none
  | .send _ _ _, h => if_neg fun hw => h.2 hw.2
  | .recv _ _, _ => rfl
  | .log _ _, h => if_neg h

theorem Ds.mark : ∀ {ev : Ev}, Ds ev → ev.mark ≠ some .acked
  | .send pkt ok _, h => by
      have hne : pkt ≠ intClearPkt := by
        rintro rfl
        exact h (by decide)
      simp [Ev.mark, hne]
  | .recv _ _, _ => by simp [Ev.mark]
  | .reset asserted, _ => by cases asserted <;> simp [Ev.mark]
  | .log _ _, _ => by simp [Ev.mark]

theorem PlainOrConfigured.mark {run : Bool} {ev : Ev} (h : PlainOrConfigured run ev) :
    ev.mark ≠ some .acked := by
  rcases h with h | ⟨args, rfl⟩
  · rw [h.mark]; simp
  · simp [Ev.mark]

/-! ### A report that is latched -/

def Report.HasBoot (rep : Report) : Prop := status rep.info &&& statusBootSt ≠ 0

def Report.HasAux (rep : Report) : Prop := status rep.info &&& statusAux ≠ 0

/-- A point or key status bit, and at least one complete record. -/
def Report.HasPoints (rep : Report) : Prop := status rep.info &&& 0x3f ≠ 0 ∧ rep.records ≠ []

/-- The packet the points of the report are delivered in. -/
def Report.packet (prop : TouchProp) (rep : Report) : List InputEv :=
  pointsPacket prop rep.pkt (len rep.info / pointSz)

/-- All of the report is handled: its points delivered, a boot flag answered with a configuration that
    succeeded and an AUX flag with a re-initialisation. -/
structure Handled (prop : TouchProp) (rep : Report) (ms : List Mark) : Prop where
  boot : rep.HasBoot → .configured ∈ ms
  aux : rep.HasAux → .wasReset ∈ ms
  points : rep.HasPoints → .delivered (rep.packet prop) ∈ ms

/-- If the next poll acknowledges, it has handled all of the report that is latched before that. -/
def Keeps (ts : Ts) (rep : Report) : Prop :=
  ∀ pre post, marks (finalState poll ts) = marks ts ++ pre ++ .acked :: post → Handled ts.prop rep pre

theorem handled_none_iff {prop : TouchProp} {rep : Report} :
    Handled prop rep [] ↔ ¬ rep.HasBoot ∧ ¬ rep.HasAux ∧ ¬ rep.HasPoints := by
  refine ⟨fun h => ⟨fun hb => ?_, fun ha => ?_, fun hp => ?_⟩, fun ⟨hb, ha, hp⟩ => ?_⟩
  · exact absurd (h.boot hb) List.not_mem_nil
  · exact absurd (h.aux ha) List.not_mem_nil
  · exact absurd (h.points hp) List.not_mem_nil
  · exact ⟨fun h => absurd h hb, fun h => absurd h ha, fun h => absurd h hp⟩

theorem handled_configured_iff {prop : TouchProp} {rep : Report} :
    Handled prop rep [.configured] ↔ ¬ rep.HasAux ∧ ¬ rep.HasPoints := by
  refine ⟨fun h => ⟨fun ha => ?_, fun hp => ?_⟩, fun ⟨ha, hp⟩ => ?_⟩
  · exact absurd (h.aux ha) (by simp)
  · exact absurd (h.points hp) (by simp)
  · exact ⟨fun _ => List.mem_singleton.mpr rfl, fun h => absurd h ha, fun h => absurd h hp⟩

theorem handled_delivered_iff {prop : TouchProp} {rep : Report} {evs : List InputEv} :
    Handled prop rep [.delivered evs] ↔
      ¬ rep.HasBoot ∧ ¬ rep.HasAux ∧ (rep.HasPoints → evs = rep.packet prop) := by
  refine ⟨fun h => ⟨fun hb => ?_, fun ha => ?_, fun hp => ?_⟩, fun ⟨hb, ha, hp⟩ => ?_⟩
  · exact absurd (h.boot hb) (by simp)
  · exact absurd (h.aux ha) (by simp)
  · exact (Mark.delivered.inj (List.mem_singleton.mp (h.points hp))).symm
  · refine ⟨fun h => absurd h hb, fun h => absurd h ha, ?_⟩
    intro h
    rw [hp h]
    exact List.mem_singleton.mpr rfl

/-! ### Marks a function adds -/

/-- `p` returns `a` and adds the marks `ms`, no acknowledgement among them. -/
structure Marks {α : Type} (p : TsM α) (ts : Ts) (a : α) (ms : List Mark) : Prop where
  out : outcome p ts = .ok a
  marks : Ssd2092.marks (finalState p ts) = Ssd2092.marks ts ++ ms
  noAck : .acked ∉ ms

section Rules

variable {α β : Type} {p : TsM α} {ts : Ts} {a : α} {b : β} {ms ms' : List Mark}

theorem Marks.pure (a : α) : Marks (pure a : TsM α) ts a [] :=
  ⟨rfl, (List.append_nil _).symm, List.not_mem_nil⟩

theorem Marks.bind {f : α → TsM β} (hp : Marks p ts a ms) (hf : Marks (f a) (finalState p ts) b ms') :
    Marks (p >>= f) ts b (ms ++ ms') := by
  obtain ⟨hout, hmarks, hno⟩ := hp
  obtain ⟨hout', hmarks', hno'⟩ := hf
  refine ⟨?_, ?_, ?_⟩
  · rw [outcome_bind_ok _ hout, hout']
  · rw [finalState_bind_ok _ hout, hmarks', hmarks, List.append_assoc]
  · rw [List.mem_append]
    exact not_or.mpr ⟨hno, hno'⟩

theorem Marks.attempt (h : Ssd2092.marks (finalState p ts) = Ssd2092.marks ts ++ ms)
    (hno : .acked ∉ ms) : Marks (attempt p) ts (outcome p ts) ms :=
  ⟨outcome_attempt p ts, by rw [finalState_attempt, h], hno⟩

theorem Marks.attempt_plain (hp : Within (Steady Plain) p) (ts : Ts) :
    Marks (Prog.attempt p) ts (outcome p ts) [] :=
  .attempt (((hp ts).emits.marks_eq fun _ => Plain.mark).trans (List.append_nil _).symm)
    List.not_mem_nil

theorem devLog_marks {fmt : String} (args : List ℤ) (h : fmt ≠ tmcConfigFmt) :
    Marks (devLog fmt args) ts () [] :=
  ⟨rfl, ((devLog_plain args h ts).emits.marks_eq fun _ => Plain.mark).trans
    (List.append_nil _).symm, List.not_mem_nil⟩

end Rules

/-- The end of the configuration is where it is logged. -/
theorem tmcGeometry_marks (val : ℕ) (ts : Ts) : Marks (tmcGeometry val) ts () [.configured] := by
  have hlog : Marks (devLog tmcConfigFmt [ts.maxX, ts.maxY, val]) ts () [.configured] :=
    ⟨rfl, by rw [devLog, finalState_modify, marks, List.filterMap_append]; rfl, by decide⟩
  have hwarn : "implausible resolution, using %ux%u default" ≠ tmcConfigFmt := by decide
  have hget : Marks (get : TsM Ts) ts ts [] := ⟨rfl, (List.append_nil _).symm, List.not_mem_nil⟩
  refine hget.bind (hlog.bind ?_)
  split_ifs
  · exact (devLog_marks _ hwarn).bind ⟨rfl, (List.append_nil _).symm, List.not_mem_nil⟩
  · exact .pure _

theorem tmcConfig_marks {ts : Ts} (h : Answers 5 ts.i2c) : Marks tmcConfig ts () [.configured] := by
  obtain ⟨val, hval⟩ := (tmcRead_okIff ts).mpr h
  have hread : Marks tmcRead ts val [] :=
    ⟨hval, ((tmcRead_plain ts).emits.marks_eq fun _ => Plain.mark).trans (List.append_nil _).symm,
      List.not_mem_nil⟩
  exact hread.bind (tmcGeometry_marks val _)

/-- A configuration that fails leaves no mark. -/
theorem tmcConfig_marks_fail {ts : Ts} (h : ¬ Answers 5 ts.i2c) :
    marks (finalState tmcConfig ts) = marks ts := by
  rcases hout : outcome tmcRead ts with e | val
  · rw [tmcConfig, finalState_bind_error _ hout]
    exact (tmcRead_plain ts).emits.marks_eq fun _ => Plain.mark
  · exact absurd ((tmcRead_okIff ts).mp ⟨val, hout⟩) h

/-- A re-initialisation does not acknowledge. -/
theorem reinit_noAck (ts : Ts) : ∃ ms, Marks reinit ts () ms := by
  have hno : ∀ ev, (Ds ev ∨ ∃ run, PlainOrConfigured run ev) → ev.mark ≠ some .acked := by
    rintro ev (h | ⟨run, h⟩)
    · exact h.mark
    · exact h.mark
  obtain ⟨ms, hms, hno⟩ := (reinit_emits ts).marks_noAck hno
  have hout : outcome reinit ts = .ok () := by
    rw [reinit, outcome_bind_ok _ (outcome_attempt _ ts)]
    rfl
  exact ⟨ms, hout, hms, hno⟩

/-- The marks of a point read: the packet, if it is read and its checksum holds. -/
def pointMarks (info : ℕ) (ts : Ts) : List Mark :=
  match outcome (readReg regPointData (pointLen info + 2)) ts with
  | .ok pkt =>
    if checksumOk (pkt.take (pointLen info)) (le16 pkt (pointLen info)) then
      [.delivered (pointsPacket ts.prop pkt (pointLen info / pointSz))]
    else []
  | .error _ => []

theorem reportPoints_marks (pkt : List UInt8) (count : ℕ) (ts : Ts) :
    Marks (reportPoints pkt count) ts () [.delivered (pointsPacket ts.prop pkt count)] :=
  ⟨rfl, by rw [reportPoints, finalState_modify, marks, List.filterMap_append]; rfl, by simp⟩

theorem readPoints_marks (info : ℕ) (ts : Ts) : Marks (readPoints info) ts () (pointMarks info ts) := by
  have hread : Marks (attempt (readReg regPointData (pointLen info + 2))) ts _ [] :=
    .attempt_plain (readReg_plain _ _) ts
  have hprop := (readReg_plain regPointData (pointLen info + 2) ts).emits.prop
  rw [pointMarks]
  rcases hout : outcome (readReg regPointData (pointLen info + 2)) ts with e | pkt
  · rw [hout] at hread
    exact hread.bind (devLog_marks _ (by decide))
  · rw [hout] at hread
    by_cases hsum : checksumOk (pkt.take (pointLen info)) (le16 pkt (pointLen info))
    · have hreport := reportPoints_marks pkt (pointLen info / pointSz)
        (finalState (attempt (readReg regPointData (pointLen info + 2))) ts)
      rw [finalState_attempt, hprop] at hreport
      simp only [if_pos hsum]
      refine hread.bind ?_
      simp only [if_pos hsum, finalState_attempt]
      exact hreport
    · simp only [if_neg hsum]
      refine hread.bind ?_
      simp only [if_neg hsum]
      exact devLog_marks _ (by decide)

/-! ### From the body of the poll to the acknowledgement -/

theorem intClear_marks (ts : Ts) : marks (finalState intClear ts) =
    marks ts ++ match ts.i2c.head with
      | .ok _ => [.acked]
      | .error _ => [] := by
  rw [intClear, writeWord, write, if_neg (by rw [regBytes_length]; decide)]
  unfold finalState i2cMasterSend
  rcases ts.i2c.head with e | data
  · rw [marks, List.filterMap_append]; rfl
  · rw [marks, List.filterMap_append]; rfl

/-- A poll that does not acknowledge keeps everything. -/
theorem keeps_of_noAck {ts : Ts} {ms : List Mark} (rep : Report)
    (h : marks (finalState poll ts) = marks ts ++ ms) (hno : .acked ∉ ms) : Keeps ts rep := by
  intro pre post hack
  rw [h, List.append_assoc, List.append_cancel_left_eq] at hack
  exact absurd (hack ▸ List.mem_append_right _ (List.mem_cons_self ..)) hno

/-- One that does keeps what it has handled by then. -/
theorem keeps_of_ack {ts : Ts} {ms : List Mark} (rep : Report)
    (h : marks (finalState poll ts) = marks ts ++ ms ++ [.acked]) (hno : .acked ∉ ms) :
    Keeps ts rep ↔ Handled ts.prop rep ms := by
  refine ⟨fun hkeeps => hkeeps ms [] h, ?_⟩
  intro hhandled pre post hack
  rw [h, List.append_assoc, List.append_assoc, List.append_cancel_left_eq,
    List.append_cons_inj_of_notMem hno List.not_mem_nil] at hack
  exact hack.1 ▸ hhandled

/-- What a poll has handled counts where it gets to the acknowledgement and that succeeds. -/
theorem keeps_iff {ts : Ts} {b : Bool} {ms : List Mark} (h : Marks pollBody ts b ms) (rep : Report) :
    Keeps ts rep ↔
      (b = true → (∃ data, (finalState pollBody ts).i2c.head = .ok data) → Handled ts.prop rep ms) := by
  obtain ⟨hout, hmarks, hno⟩ := h
  cases b with
  | false =>
    have hpoll : finalState poll ts = finalState pollBody ts := finalState_bind_ok _ hout
    have hkeeps := keeps_of_noAck rep (hpoll ▸ hmarks) hno
    exact ⟨fun _ hb => absurd hb (by decide), fun _ => hkeeps⟩
  | true =>
    have hpoll : finalState poll ts = finalState intClear (finalState pollBody ts) := by
      rw [poll, finalState_bind_ok _ hout, if_pos rfl,
        finalState_bind_ok _ (outcome_attempt _ _), finalState_attempt]
      rfl
    have hacked := intClear_marks (finalState pollBody ts)
    rw [← hpoll, hmarks] at hacked
    rcases hhead : (finalState pollBody ts).i2c.head with e | data
    · rw [hhead, List.append_nil] at hacked
      refine ⟨fun _ _ => ?_, fun _ => keeps_of_noAck rep hacked hno⟩
      rintro ⟨data, hdata⟩
      cases hdata
    · rw [hhead] at hacked
      rw [keeps_of_ack rep hacked hno]
      exact ⟨fun hh _ _ => hh, fun hh => hh rfl ⟨data, rfl⟩⟩

/-! ### The branches of the poll -/

theorem pollBody_marks {ts : Ts} {info : ℕ} {b : Bool} {ms : List Mark}
    (h : outcome readSnl ts = .ok info) (hw : Marks (pollWord info) (finalState readSnl ts) b ms) :
    Marks pollBody ts b ms := by
  have hsnl := Marks.attempt_plain readSnl_plain ts
  rw [h] at hsnl
  refine hsnl.bind ?_
  rw [finalState_attempt]
  exact hw

/-- A word that cannot be read leads to the acknowledgement, and nothing is handled. -/
theorem pollBody_error {ts : Ts} {e : Errno} (h : outcome readSnl ts = .error e) :
    Marks pollBody ts true [] := by
  have hsnl := Marks.attempt_plain readSnl_plain ts
  rw [h] at hsnl
  exact hsnl.bind ((devLog_marks _ (by decide)).bind (.pure true))

section Word

variable {info : ℕ} (ts : Ts)

theorem pollWord_zero (h : info = 0) : Marks (pollWord info) ts false [] := by
  rw [pollWord, if_pos h]
  exact .pure _

/-- The boot flag is answered with a configuration, which succeeds or not. -/
theorem pollWord_boot (h : info ≠ 0) (hboot : status info &&& statusBootSt ≠ 0) :
    Answers 5 ts.i2c ∧ Marks (pollWord info) ts true [.configured] ∨
      ¬ Answers 5 ts.i2c ∧ Marks (pollWord info) ts true [] := by
  have hlog : Marks (devLog "TMC boot flag set, re-sending config" []) ts () [] :=
    devLog_marks _ (by decide)
  rw [pollWord, if_neg h, if_pos hboot]
  by_cases hanswers : Answers 5 ts.i2c
  · have hconfig : Marks tmcConfig (finalState (devLog "TMC boot flag set, re-sending config" []) ts) ()
        [.configured] := tmcConfig_marks hanswers
    exact .inl ⟨hanswers, hlog.bind ((Marks.attempt hconfig.marks hconfig.noAck).bind (.pure true))⟩
  · have hconfig : marks (finalState tmcConfig
        (finalState (devLog "TMC boot flag set, re-sending config" []) ts)) =
        marks (finalState (devLog "TMC boot flag set, re-sending config" []) ts) :=
      tmcConfig_marks_fail hanswers
    exact .inr ⟨hanswers, hlog.bind ((Marks.attempt (hconfig.trans (List.append_nil _).symm)
      List.not_mem_nil).bind (.pure true))⟩

/-- The AUX flag is not acknowledged at all. -/
theorem pollWord_aux (h : info ≠ 0) (hboot : ¬ status info &&& statusBootSt ≠ 0)
    (haux : status info &&& statusAux ≠ 0) : ∃ ms, Marks (pollWord info) ts false ms := by
  have haux' : Marks (attempt (readReg regAux 2)) ts _ [] :=
    .attempt_plain (readReg_plain _ _) ts
  have hlog : "AUX event 0x%04x, re-initialising" ≠ tmcConfigFmt := by decide
  rw [pollWord, if_neg h, if_neg hboot, if_pos haux]
  obtain ⟨ms, hms⟩ := reinit_noAck (finalState (devLog "AUX event 0x%04x, re-initialising" _)
    (finalState (attempt (readReg regAux 2)) ts))
  exact ⟨_, (haux'.bind ((devLog_marks _ hlog).bind hms)).bind (.pure false)⟩

theorem pollWord_points (h : info ≠ 0) (hboot : ¬ status info &&& statusBootSt ≠ 0)
    (haux : ¬ status info &&& statusAux ≠ 0) (hpoints : len info ≠ 0 ∧ status info &&& 0x7f ≠ 0) :
    Marks (pollWord info) ts true (pointMarks info ts) := by
  rw [pollWord, if_neg h, if_neg hboot, if_neg haux, if_pos hpoints,
    ← List.append_nil (pointMarks info ts)]
  exact (readPoints_marks info ts).bind (.pure true)

theorem pollWord_rest (h : info ≠ 0) (hboot : ¬ status info &&& statusBootSt ≠ 0)
    (haux : ¬ status info &&& statusAux ≠ 0) (hpoints : ¬ (len info ≠ 0 ∧ status info &&& 0x7f ≠ 0)) :
    Marks (pollWord info) ts true [] := by
  rw [pollWord, if_neg h, if_neg hboot, if_neg haux, if_neg hpoints]
  exact .pure _

end Word

end GeminiLinux.Ssd2092
