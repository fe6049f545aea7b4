import GeminiLinux.Touch.Ssd2092

/-! What the functions of the touch driver leave alone and what they add to the trace. Only
    `ssd2092_report_points` and `ssd2092_probe` touch the slots; whatever speaks the TMC's registers
    leaves the TMC in the state it finds it in (`Steady`), and only the reset and the DS handshake
    move it (`Emits`). -/

namespace GeminiLinux.Ssd2092
open Prog InputMt

/-- Slots and properties stay; the trace grows by events with `Q`. -/
structure Emits (Q : Ev → Prop) (ts ts' : Ts) : Prop where
  mt : ts'.mt = ts.mt
  prop : ts'.prop = ts.prop
  evs : ∃ evs, ts'.trace = ts.trace ++ evs ∧ ∀ ev ∈ evs, Q ev

/-- In addition the TMC keeps its state, and `Q` may speak of it. -/
structure Steady (Q : Bool → Ev → Prop) (ts ts' : Ts) : Prop where
  running : ts'.running = ts.running
  emits : Emits (Q ts.running) ts ts'

theorem Emits.mono {Q Q' : Ev → Prop} {ts ts' : Ts} (h : Emits Q ts ts') (hQ : ∀ ev, Q ev → Q' ev) :
    Emits Q' ts ts' := by
  obtain ⟨evs, htrace, hall⟩ := h.evs
  exact ⟨h.mt, h.prop, evs, htrace, fun ev hev => hQ ev (hall ev hev)⟩

theorem Steady.mono {Q Q' : Bool → Ev → Prop} {ts ts' : Ts} (h : Steady Q ts ts')
    (hQ : ∀ run ev, Q run ev → Q' run ev) : Steady Q' ts ts' :=
  ⟨h.running, h.emits.mono (hQ _)⟩

instance {Q : Ev → Prop} : Std.Refl (Emits Q) where
  refl ts := ⟨rfl, rfl, [], (List.append_nil _).symm, by simp⟩

instance {Q : Ev → Prop} : IsTrans Ts (Emits Q) where
  trans := by
    rintro ts ts' ts'' ⟨hmt, hprop, evs, htrace, hall⟩ ⟨hmt', hprop', evs', htrace', hall'⟩
    refine ⟨hmt'.trans hmt, hprop'.trans hprop, evs ++ evs', ?_, ?_⟩
    · rw [htrace', htrace, List.append_assoc]
    · intro ev hev
      rcases List.mem_append.mp hev with hev | hev
      · exact hall ev hev
      · exact hall' ev hev

instance {Q : Bool → Ev → Prop} : Std.Refl (Steady Q) where
  refl ts := ⟨rfl, Std.Refl.refl ts⟩

instance {Q : Bool → Ev → Prop} : IsTrans Ts (Steady Q) where
  trans := by
    rintro ts ts' ts'' ⟨hrun, hemits⟩ ⟨hrun', hemits'⟩
    rw [hrun] at hemits'
    exact ⟨hrun'.trans hrun, IsTrans.trans _ _ _ hemits hemits'⟩

/-- One event appended, nothing else changed that `Emits` speaks of. -/
theorem emits_one {Q : Ev → Prop} {ts ts' : Ts} {ev : Ev} (hmt : ts'.mt = ts.mt)
    (hprop : ts'.prop = ts.prop) (htrace : ts'.trace = ts.trace ++ [ev]) (hev : Q ev) :
    Emits Q ts ts' :=
  ⟨hmt, hprop, [ev], htrace, fun _ h => List.mem_singleton.mp h ▸ hev⟩

/-! ### Single steps -/

section Steps

variable {Q : Ev → Prop} {P : Bool → Ev → Prop}

theorem devLog_emits {fmt : String} {args : List ℤ} (h : Q (.log fmt args)) :
    Within (Emits Q) (devLog fmt args) := fun _ => emits_one rfl rfl rfl h

theorem send_emits {pkt : List UInt8} (h : ∀ ok run, Q (.send pkt ok run)) :
    Within (Emits Q) (i2cMasterSend pkt) := by
  intro ts
  unfold finalState i2cMasterSend
  rcases ts.i2c.head with e | _
  · exact emits_one rfl rfl rfl (h _ _)
  · exact emits_one rfl rfl rfl (h _ _)

theorem recv_emits {len : ℕ} (h : ∀ ok, Q (.recv len ok)) : Within (Emits Q) (i2cMasterRecv len) := by
  intro ts
  unfold finalState i2cMasterRecv
  rcases ts.i2c.head with e | _
  · exact emits_one rfl rfl rfl (h _)
  · exact emits_one rfl rfl rfl (h _)

theorem setReset_emits {asserted : Bool} (h : Q (.reset asserted)) :
    Within (Emits Q) (gpiodSetReset asserted) := fun _ => emits_one rfl rfl rfl h

theorem devLog_steady {fmt : String} {args : List ℤ} (h : ∀ run, P run (.log fmt args)) :
    Within (Steady P) (devLog fmt args) := fun ts => ⟨rfl, devLog_emits (h _) ts⟩

/-- Every packet but one leaves the TMC as it is. -/
theorem send_steady {pkt : List UInt8} (hpkt : pkt ≠ unstallPkt)
    (h : ∀ ok run, P run (.send pkt ok run)) : Within (Steady P) (i2cMasterSend pkt) := by
  intro ts
  unfold finalState i2cMasterSend
  rcases ts.i2c.head with e | _
  · exact ⟨rfl, emits_one rfl rfl rfl (h _ _)⟩
  · exact ⟨by simp [hpkt], emits_one rfl rfl rfl (h _ _)⟩

theorem recv_steady {len : ℕ} (h : ∀ ok run, P run (.recv len ok)) :
    Within (Steady P) (i2cMasterRecv len) := by
  intro ts
  refine ⟨?_, recv_emits (fun ok => h ok ts.running) ts⟩
  unfold finalState i2cMasterRecv
  cases ts.i2c.head <;> rfl

theorem intAsserted_steady : Within (Steady P) intAsserted := fun ts =>
  ⟨rfl, rfl, rfl, [], by simp [intAsserted, finalState], by simp⟩

end Steps

theorem orFail_within {R : Ts → Ts → Prop} [Std.Refl R] [IsTrans Ts R] {α : Type} {p : TsM α}
    {fmt : String} (hp : Within R p) (hlog : ∀ args, Within R (devLog fmt args)) :
    Within R (orFail p fmt) := .onError hp fun _ => hlog _

/-! ### The TMC's registers -/

/-- What the functions that only read the TMC, or write other registers of it than INT_CLEAR, add to
    the trace. -/
def Plain (run : Bool) : Ev → Prop
  | .send pkt _ run' => run' = run ∧ pkt ≠ intClearPkt
  | .recv _ _ => True
  | .log fmt _ => fmt ≠ tmcConfigFmt
  | .reset _ => False
  | .packet _ => False

theorem regBytes_length (reg : ℕ) : (regBytes reg).length = 2 := rfl

theorem readReg_plain (reg len : ℕ) : Within (Steady Plain) (readReg reg len) := by
  have hne : ∀ pkt : List UInt8, pkt.length = 4 → regBytes reg ≠ pkt := by
    rintro _ hlen rfl
    exact absurd hlen (by rw [regBytes_length]; decide)
  exact .bind (send_steady (hne _ rfl) fun _ _ => ⟨rfl, hne _ rfl⟩) fun _ =>
    recv_steady fun _ _ => trivial

theorem writeWord_within {R : Ts → Ts → Prop} [Std.Refl R] [IsTrans Ts R] {reg val : ℕ}
    (h : Within R (i2cMasterSend (regBytes reg ++ regBytes val))) : Within R (writeWord reg val) := by
  rw [writeWord, write, if_neg (by rw [regBytes_length]; decide)]
  exact h

theorem touchMode_plain : Within (Steady Plain) (writeWord regTouchMode 0x0000) :=
  writeWord_within (send_steady (by decide) fun _ _ => ⟨rfl, by decide⟩)

theorem readSnlWords_plain : Within (Steady Plain) readSnlWords := by
  refine .bind (readReg_plain _ _) fun snl => ?_
  split_ifs
  · exact readReg_plain _ _
  · exact .pure _

theorem readSnlTries_plain : ∀ tries : ℕ, Within (Steady Plain) (readSnlTries tries) := by
  intro tries
  induction tries with
  | zero => exact .throw _
  | succ tries ih =>
    refine .bind readSnlWords_plain fun snl => ?_
    split_ifs
    · exact .pure _
    · exact ih

theorem readSnl_plain : Within (Steady Plain) readSnl := readSnlTries_plain 3

/-- The poll goes on from the word it reads. -/
theorem pollBody_word {ts : Ts} {info : ℕ} (h : outcome readSnl ts = .ok info) :
    finalState pollBody ts = finalState (pollWord info) (finalState readSnl ts) := by
  have hatt : outcome (attempt readSnl) ts = .ok (.ok info) := by rw [outcome_attempt, h]
  rw [pollBody, finalState_bind_ok _ hatt, finalState_attempt]

theorem devLog_plain {fmt : String} (args : List ℤ) (h : fmt ≠ tmcConfigFmt) :
    Within (Steady Plain) (devLog fmt args) := devLog_steady fun _ => h

theorem orFail_plain {α : Type} {p : TsM α} {fmt : String} (hp : Within (Steady Plain) p)
    (h : fmt ≠ tmcConfigFmt) : Within (Steady Plain) (orFail p fmt) :=
  orFail_within hp fun _ => devLog_plain _ h

/-- The geometry is the driver's own. -/
theorem setGeometry_steady {P : Bool → Ev → Prop} {f : Ts → Ts}
    (h : ∀ ts, (f ts).mt = ts.mt ∧ (f ts).prop = ts.prop ∧ (f ts).running = ts.running ∧
      (f ts).trace = ts.trace) : Within (Steady P) (modify f : TsM PUnit) := by
  intro ts
  obtain ⟨hmt, hprop, hrun, htrace⟩ := h ts
  exact ⟨hrun, hmt, hprop, [], by simpa using htrace, by simp⟩

theorem tmcRead_plain : Within (Steady Plain) tmcRead := by
  refine .bind (orFail_plain touchMode_plain (by decide)) fun _ =>
    .bind (orFail_plain (readReg_plain _ _) (by decide)) fun x =>
    .bind (setGeometry_steady fun _ => ⟨rfl, rfl, rfl, rfl⟩) fun _ =>
    .bind (orFail_plain (readReg_plain _ _) (by decide)) fun y =>
    .bind (setGeometry_steady fun _ => ⟨rfl, rfl, rfl, rfl⟩) fun _ =>
    .bind (.attempt (readReg_plain _ _)) fun r => ?_
  rcases r with e | val
  · exact .bind (devLog_plain _ (by decide)) fun _ => .pure _
  · exact .pure _

/-- `ssd2092_tmc_config` may in addition log that it is done. -/
def PlainOrConfigured (run : Bool) (ev : Ev) : Prop :=
  Plain run ev ∨ ∃ args, ev = .log tmcConfigFmt args

theorem tmcConfig_steady : Within (Steady PlainOrConfigured) tmcConfig := by
  refine .bind (tmcRead_plain.mono fun _ _ h => h.mono fun _ _ => .inl) fun val =>
    .bind .get fun ts => .bind (devLog_steady fun _ => .inr ⟨_, rfl⟩) fun _ => ?_
  have hlog : "implausible resolution, using %ux%u default" ≠ tmcConfigFmt := by decide
  split_ifs
  · exact .bind (devLog_steady fun _ => .inl hlog) fun _ =>
      setGeometry_steady fun _ => ⟨rfl, rfl, rfl, rfl⟩
  · exact .pure _

theorem intClear_steady : Within (Steady fun run ev => ∃ ok, ev = .send intClearPkt ok run) intClear :=
  writeWord_within (send_steady (by decide) fun ok _ => ⟨ok, rfl⟩)

/-! ### Reset and handshake -/

/-- What the reset and the handshake add to the trace: no access to a register of the TMC. -/
def tmcRegs : List ℕ :=
  [regIntClear, 0x0050, 0x0051, 0x0052, 0x0053, 0x0054, 0x0055, 0x0056, 0x0057, 0x0058, 0x0059,
    regStatusLength, regStatusLengthAlt, regPointData, regAux]

def Ds : Ev → Prop
  | .send pkt _ _ => pkt.take 2 ∉ tmcRegs.map regBytes
  | .recv _ _ => True
  | .log fmt _ => fmt ≠ tmcConfigFmt
  | .reset _ => True
  | .packet _ => False

theorem waitInt_within {R : Ts → Ts → Prop} [Std.Refl R] [IsTrans Ts R] (h : Within R intAsserted) :
    ∀ n : ℕ, Within R (waitInt n) := by
  intro n
  induction n with
  | zero => exact .throw _
  | succ n ih =>
    refine .bind h fun asserted => ?_
    split_ifs
    · exact .pure _
    · exact ih

theorem intAsserted_emits {Q : Ev → Prop} : Within (Emits Q) intAsserted := fun ts =>
  (intAsserted_steady (P := fun _ => Q) ts).emits

theorem devLog_ds {fmt : String} (args : List ℤ) (h : fmt ≠ tmcConfigFmt) :
    Within (Emits Ds) (devLog fmt args) := devLog_emits h

theorem orFail_ds {α : Type} {p : TsM α} {fmt : String} (hp : Within (Emits Ds) p)
    (h : fmt ≠ tmcConfigFmt) : Within (Emits Ds) (orFail p fmt) :=
  orFail_within hp fun _ => devLog_ds _ h

theorem hwReset_ds : Within (Emits Ds) hwReset :=
  .bind (setReset_emits trivial) fun _ => .bind (setReset_emits trivial) fun _ =>
    .bind (setReset_emits trivial) fun _ =>
    orFail_ds (waitInt_within intAsserted_emits _) (by decide)

theorem readCmd_ds {cmd : List UInt8} (len : ℕ) (h : cmd.take 2 ∉ tmcRegs.map regBytes) :
    Within (Emits Ds) (readCmd cmd len) :=
  .bind (send_emits fun _ _ => h) fun _ => recv_emits fun _ => trivial

theorem writeWord_ds {reg val : ℕ} (h : regBytes reg ∉ tmcRegs.map regBytes) :
    Within (Emits Ds) (writeWord reg val) :=
  writeWord_within (send_emits fun _ _ => h)

theorem eflashWrite_ds (addr data : ℕ) : Within (Emits Ds) (eflashWrite addr data) := by
  have hreg : regBytes dsEflashWrite ∉ tmcRegs.map regBytes := by decide
  rw [eflashWrite, write, if_neg (by simp [regBytes_length])]
  exact send_emits fun _ _ => hreg

theorem dsHandshake_ds : Within (Emits Ds) dsHandshake := by
  refine .bind (orFail_ds (readCmd_ds 2 (by decide)) (by decide)) fun _ =>
    .bind (devLog_ds _ (by decide)) fun _ =>
    .bind (orFail_ds (readCmd_ds 10 (by decide)) (by decide)) fun _ =>
    .bind (devLog_ds _ (by decide)) fun _ =>
    .bind (orFail_ds (.bind (eflashWrite_ds _ _) fun _ => eflashWrite_ds _ _) (by decide)) fun _ =>
    .bind (orFail_ds (writeWord_ds (by decide)) (by decide)) fun _ =>
    .bind (orFail_ds (writeWord_ds (by decide)) (by decide)) fun _ =>
    .bind (.attempt (waitInt_within intAsserted_emits _)) fun r => ?_
  rcases r with e | _
  · exact devLog_ds _ (by decide)
  · exact .pure _

/-- A re-initialisation is a reset, a handshake and a configuration. -/
theorem reinit_emits : Within (Emits fun ev => Ds ev ∨ ∃ run, PlainOrConfigured run ev) reinit :=
  .bind (.attempt (.bind (hwReset_ds.mono fun _ _ h => h.mono fun _ => .inl) fun _ =>
    .bind (dsHandshake_ds.mono fun _ _ h => h.mono fun _ => .inl) fun _ =>
    tmcConfig_steady.mono fun _ _ h => h.emits.mono fun _ hev => .inr ⟨_, hev⟩)) fun _ => .pure _

/-! ### The poll -/

section Poll

variable {R : Ts → Ts → Prop} [Std.Refl R] [IsTrans Ts R]

/-- What the branches of the poll keep: those of the configuration whatever a steady step keeps, the
    others that and what the re-initialisation or the report keeps. -/
theorem pollWord_within {info : ℕ} (hsteady : ∀ ts ts', Steady PlainOrConfigured ts ts' → R ts ts')
    (hreinit : status info &&& statusBootSt = 0 → status info &&& statusAux ≠ 0 → Within R reinit)
    (hreport : status info &&& statusBootSt = 0 → status info &&& statusAux = 0 →
      ∀ pkt count, Within R (reportPoints pkt count)) : Within R (pollWord info) := by
  have hlog : ∀ fmt args, fmt ≠ tmcConfigFmt → Within R (devLog fmt args) := fun fmt args h ts =>
    hsteady _ _ ((devLog_plain args h ts).mono fun _ _ => .inl)
  have hread : ∀ reg len, Within R (readReg reg len) := fun reg len ts =>
    hsteady _ _ ((readReg_plain reg len ts).mono fun _ _ => .inl)
  rw [pollWord]
  split_ifs with hzero hboot haux hpoints
  · exact .pure _
  · exact .bind (hlog _ _ (by decide)) fun _ =>
      .bind (.attempt fun ts => hsteady _ _ (tmcConfig_steady ts)) fun _ => .pure _
  · exact .bind (.bind (.attempt (hread _ _)) fun _ => .bind (hlog _ _ (by decide)) fun _ =>
      hreinit (not_not.mp hboot) haux) fun _ => .pure _
  · refine .bind (.bind (.attempt (hread _ _)) fun r => ?_) fun _ => .pure _
    rcases r with e | pkt
    · exact hlog _ _ (by decide)
    · dsimp only
      split_ifs
      · exact hreport (not_not.mp hboot) (not_not.mp haux) _ _
      · exact hlog _ _ (by decide)
  · exact .pure _

theorem ack_within (h : Within R intClear) (b : Bool) :
    Within R (if b then do let _ ← attempt intClear else pure () : TsM Unit) := by
  split_ifs
  · exact .bind (.attempt h) fun _ => .pure _
  · exact .pure _

end Poll

/-- The properties are set up by the probe alone. -/
def SameProp (ts ts' : Ts) : Prop := ts'.prop = ts.prop

instance : Std.Refl SameProp := ⟨fun _ => rfl⟩

instance : IsTrans Ts SameProp := ⟨fun _ _ _ h h' => h'.trans h⟩

theorem poll_prop (ts : Ts) : (finalState poll ts).prop = ts.prop := by
  have hword (info : ℕ) : Within SameProp (pollWord info) :=
    pollWord_within (fun _ _ h => h.emits.prop) (fun _ _ => reinit_emits.mono fun _ _ h => h.prop)
      fun _ _ _ _ _ => rfl
  have hbody : Within SameProp pollBody :=
    .bind (.attempt fun ts => (readSnl_plain ts).emits.prop) fun
      | .error e => .bind (fun ts => (devLog_plain _ (by decide) ts).emits.prop) fun _ => .pure _
      | .ok info => hword info
  exact Within.bind hbody (ack_within fun ts => (intClear_steady ts).emits.prop) ts

theorem after_prop (ts : Ts) (k : ℕ) : (after poll k ts).prop = ts.prop := by
  induction k with
  | zero => rfl
  | succ k ih => rw [after_succ, poll_prop, ih]

end GeminiLinux.Ssd2092
