import GeminiLinux.Touch.Transfers

/-! Whether the TMC runs when its registers are accessed. Every hardware reset stalls it and only the
    write of DS_CPU_CONTROL in the handshake lets it run again. `ssd2092_reinit` returns nothing, so a
    re-initialisation that fails before that write leaves the next poll to speak to a stalled TMC.

        hw_reset: stalled ─INT within 400 samples─▶ ds_handshake: 8 transfers ─▶ running
                     └──────────── timeout, or a transfer fails ───────────▶ stalled -/

namespace GeminiLinux.Ssd2092
open Prog

/-- An access to a register of the TMC is made while it runs. -/
def TmcOk : Ev → Prop
  | .send pkt _ running => pkt.take 2 ∈ tmcRegs.map regBytes → running = true
  | .recv _ _ => True
  | .reset _ => True
  | .log _ _ => True
  | .packet _ => True

/-- Every access so far was. -/
def TraceOk (ts : Ts) : Prop := ∀ ev ∈ ts.trace, TmcOk ev

structure Live (ts : Ts) : Prop where
  running : ts.running = true
  traceOk : TraceOk ts

theorem Ds.tmcOk : ∀ {ev : Ev}, Ds ev → TmcOk ev
  | .send _ _ _, h => fun hmem => absurd hmem h
  | .recv _ _, _ => trivial
  | .reset _, _ => trivial
  | .log _ _, _ => trivial

theorem Plain.tmcOk : ∀ {ev : Ev}, Plain true ev → TmcOk ev
  | .send _ _ _, h => fun _ => h.1
  | .recv _ _, _ => trivial
  | .log _ _, _ => trivial

theorem PlainOrConfigured.tmcOk {ev : Ev} (h : PlainOrConfigured true ev) : TmcOk ev := by
  rcases h with h | ⟨args, rfl⟩
  · exact h.tmcOk
  · trivial

theorem Emits.traceOk {Q : Ev → Prop} {ts ts' : Ts} (h : Emits Q ts ts') (hQ : ∀ ev, Q ev → TmcOk ev)
    (hts : TraceOk ts) : TraceOk ts' := by
  obtain ⟨evs, htrace, hall⟩ := h.evs
  intro ev hev
  rw [htrace, List.mem_append] at hev
  rcases hev with hev | hev
  · exact hts ev hev
  · exact hQ ev (hall ev hev)

/-- What keeps the TMC as it is and accesses it only while it runs. -/
theorem Steady.live {Q : Bool → Ev → Prop} {ts ts' : Ts} (h : Steady Q ts ts')
    (hQ : ∀ ev, Q true ev → TmcOk ev) (hts : Live ts) : Live ts' := by
  obtain ⟨hrun, hemits⟩ := h
  rw [hts.running] at hrun hemits
  exact ⟨hrun, hemits.traceOk hQ hts.traceOk⟩

/-! ### The reset -/

theorem waitInt_ok_iff : ∀ (n : ℕ) (ts : Ts),
    (∃ u, outcome (waitInt n) ts = .ok u) ↔ ∃ i < n, ts.intPin.get i = true := by
  intro n
  induction n with
  | zero =>
    intro ts
    refine ⟨?_, ?_⟩
    · rintro ⟨u, hu⟩
      cases hu
    · rintro ⟨i, hi, -⟩
      exact absurd hi (Nat.not_lt_zero i)
  | succ n ih =>
    intro ts
    have hsample : outcome intAsserted ts = .ok (ts.intPin.get 0) := rfl
    rw [waitInt, outcome_bind_ok _ hsample]
    cases h0 : ts.intPin.get 0 with
    | true => exact ⟨fun _ => ⟨0, Nat.succ_pos n, h0⟩, fun _ => ⟨(), rfl⟩⟩
    | false =>
      rw [if_neg (by decide), ih]
      refine ⟨?_, ?_⟩
      · rintro ⟨i, hi, hget⟩
        exact ⟨i + 1, by omega, hget⟩
      · rintro ⟨i, hi, hget⟩
        cases i with
        | zero => exact absurd (hget.symm.trans h0) (by decide)
        | succ i => exact ⟨i, by omega, hget⟩

/-- The bus and the TMC stay as they are. -/
structure Idle (ts ts' : Ts) : Prop where
  i2c : ts'.i2c = ts.i2c
  running : ts'.running = ts.running

instance : Std.Refl Idle := ⟨fun _ => ⟨rfl, rfl⟩⟩

instance : IsTrans Ts Idle := ⟨fun _ _ _ h h' => ⟨h'.i2c.trans h.i2c, h'.running.trans h.running⟩⟩

theorem waitInt_idle (n : ℕ) : Within Idle (waitInt n) := waitInt_within (fun _ => ⟨rfl, rfl⟩) n

theorem devLog_idle (fmt : String) (args : List ℤ) : Within Idle (devLog fmt args) :=
  fun _ => ⟨rfl, rfl⟩

/-- The reset stalls the TMC, makes no transfer, and succeeds if INT is seen asserted in time. -/
theorem hwReset_spec (ts : Ts) :
    ((∃ u, outcome hwReset ts = .ok u) ↔ ∃ i < intReadyMs, ts.intPin.get i = true) ∧
      (finalState hwReset ts).i2c = ts.i2c ∧ (finalState hwReset ts).running = false := by
  have hset : ∀ (b : Bool) (ts : Ts), outcome (gpiodSetReset b) ts = .ok () := fun _ _ => rfl
  have hidle : Within Idle (orFail (waitInt intReadyMs)
      "INT never asserted after reset (DS not ready): %d") :=
    orFail_within (waitInt_idle _) (devLog_idle _)
  rw [hwReset, outcome_bind_ok _ (hset _ _), outcome_bind_ok _ (hset _ _),
    outcome_bind_ok _ (hset _ _), finalState_bind_ok _ (hset _ _), finalState_bind_ok _ (hset _ _),
    finalState_bind_ok _ (hset _ _), outcome_orFail, waitInt_ok_iff]
  refine ⟨Iff.rfl, (hidle _).i2c, (hidle _).running.trans ?_⟩
  simp [gpiodSetReset]

/-! ### The handshake -/

/-- A step that cannot let the TMC run. -/
def SameRun (ts ts' : Ts) : Prop := ts'.running = ts.running

instance : Std.Refl SameRun := ⟨fun _ => rfl⟩

instance : IsTrans Ts SameRun := ⟨fun _ _ _ h h' => h'.trans h⟩

/-- From a stalled TMC `p` lets it run exactly if it succeeds. -/
def Releases {α : Type} (p : TsM α) : Prop := ∀ ts, ts.running = false →
  ((finalState p ts).running = true ↔ ∃ a, outcome p ts = .ok a)

theorem Releases.after_same {α β : Type} {p : TsM α} {f : α → TsM β} (hp : Within SameRun p)
    (hf : ∀ a, Releases (f a)) : Releases (p >>= f) := by
  intro ts hts
  have hrun : (finalState p ts).running = false := (hp ts).trans hts
  rcases hout : outcome p ts with e | a
  · rw [outcome_bind_error _ hout, finalState_bind_error _ hout, hrun]
    simp
  · rw [outcome_bind_ok _ hout, finalState_bind_ok _ hout]
    exact hf a _ hrun

theorem Releases.before_same {α β : Type} {p : TsM α} {f : α → TsM β} (hp : Releases p)
    (hf : ∀ a, Within SameRun (f a)) (hok : ∀ a ts, ∃ b, outcome (f a) ts = .ok b) :
    Releases (p >>= f) := by
  intro ts hts
  have hrel := hp ts hts
  rcases hout : outcome p ts with e | a
  · rw [hout] at hrel
    rw [outcome_bind_error _ hout, finalState_bind_error _ hout, hrel]
    simp
  · rw [hout] at hrel
    rw [outcome_bind_ok _ hout, finalState_bind_ok _ hout, hf a _, hrel]
    exact ⟨fun _ => hok a _, fun _ => ⟨a, rfl⟩⟩

theorem devLog_same (fmt : String) (args : List ℤ) : Within SameRun (devLog fmt args) := fun _ => rfl

theorem send_same {pkt : List UInt8} (h : pkt ≠ unstallPkt) : Within SameRun (i2cMasterSend pkt) :=
  fun ts => (send_steady (P := fun _ _ => True) h (fun _ _ => trivial) ts).running

theorem readCmd_same {cmd : List UInt8} (len : ℕ) (h : cmd ≠ unstallPkt) :
    Within SameRun (readCmd cmd len) :=
  .bind (send_same h) fun _ ts => (recv_steady (P := fun _ _ => True) (fun _ _ => trivial) ts).running

theorem eflashWrite_same (addr data : ℕ) : Within SameRun (eflashWrite addr data) := by
  rw [eflashWrite, write, if_neg (by simp [regBytes_length])]
  refine send_same fun heq => ?_
  have hlen := congrArg List.length heq
  simp [regBytes_length, unstallPkt] at hlen

/-- The write that releases the TMC. -/
theorem unstall_releases (fmt : String) : Releases (orFail (writeWord dsCpuControl 0x0000) fmt) := by
  intro ts hts
  have hsend : writeWord dsCpuControl 0x0000 = i2cMasterSend unstallPkt := by
    rw [writeWord, write, if_neg (by rw [regBytes_length]; decide)]
    rfl
  have hrun : (finalState (writeWord dsCpuControl 0x0000) ts).running = true ↔
      ∃ u, outcome (writeWord dsCpuControl 0x0000) ts = .ok u := by
    rw [hsend]
    unfold finalState outcome i2cMasterSend
    rcases ts.i2c.head with e | data
    · simp [hts]
    · simp
  have hlog : (finalState (orFail (writeWord dsCpuControl 0x0000) fmt) ts).running =
      (finalState (writeWord dsCpuControl 0x0000) ts).running := by
    rcases hout : outcome (writeWord dsCpuControl 0x0000) ts with e | u
    · rw [orFail, finalState_onError_error hout]
      rfl
    · rw [finalState_orFail hout]
  rw [hlog, outcome_orFail, hrun]

theorem dsHandshake_releases : Releases dsHandshake := by
  refine .after_same (orFail_within (readCmd_same 2 (by decide)) (devLog_same _)) fun _ =>
    .after_same (devLog_same _ _) fun _ =>
    .after_same (orFail_within (readCmd_same 10 (by decide)) (devLog_same _)) fun _ =>
    .after_same (devLog_same _ _) fun _ =>
    .after_same (orFail_within (.bind (eflashWrite_same _ _) fun _ => eflashWrite_same _ _)
      (devLog_same _)) fun _ =>
    .after_same (orFail_within (writeWord_within (send_same (by decide))) (devLog_same _)) fun _ =>
    .before_same (unstall_releases _) (fun _ => .bind (.attempt fun ts => (waitInt_idle _ ts).running)
      fun r => ?_) fun _ ts => ?_
  · rcases r with e | _
    · exact devLog_same _ _
    · exact .pure _
  · rw [outcome_bind_ok _ (outcome_attempt _ ts)]
    rcases outcome (waitInt intReadyMs) ts with e | _
    · exact ⟨_, rfl⟩
    · exact ⟨_, rfl⟩

/-- Two reads of two transfers each, two eflash writes, the clearing of INT and the release. -/
theorem dsHandshake_okIff : OkIff 8 dsHandshake := by
  refine (readCmd_needs _ _).orFail.bind_okIff (m := 6) fun _ =>
    (devLog_needs _ _).free_okIff fun _ =>
    (readCmd_needs _ _).orFail.bind_okIff (m := 4) fun _ =>
    (devLog_needs _ _).free_okIff fun _ =>
    Needs.bind_okIff (k := 2) (m := 2)
      (Needs.orFail (.bind (eflashWrite_needs _ _) fun _ => eflashWrite_needs _ _)) fun _ =>
    (writeWord_needs _ _).orFail.bind_okIff (m := 1) fun _ =>
    (writeWord_needs _ _).orFail.bind_okIff (m := 0) fun _ => okIff_zero fun ts => ?_
  rw [outcome_bind_ok _ (outcome_attempt _ ts)]
  rcases outcome (waitInt intReadyMs) ts with e | _
  · exact ⟨_, rfl⟩
  · exact ⟨_, rfl⟩

/-! ### The re-initialisation -/

/-- INT is seen asserted within the samples of the reset, and the transfers of the handshake succeed. -/
def Recovers (ts : Ts) : Prop :=
  (∃ i < intReadyMs, ts.intPin.get i = true) ∧ Answers 8 ts.i2c

theorem finalState_reinit (ts : Ts) :
    finalState reinit ts = finalState (do hwReset; dsHandshake; tmcConfig) ts := by
  rw [reinit, finalState_bind_ok _ (outcome_attempt _ ts), finalState_attempt]
  rfl

/-- A re-initialisation leaves the TMC running exactly if the reset and the handshake succeed. -/
theorem reinit_running_iff (ts : Ts) : (finalState reinit ts).running = true ↔ Recovers ts := by
  obtain ⟨hreset, hi2c, hstalled⟩ := hwReset_spec ts
  have hconfig : Within SameRun tmcConfig := fun ts => (tmcConfig_steady ts).running
  rw [finalState_reinit, Recovers, ← hreset, ← hi2c, ← dsHandshake_okIff]
  rcases hout : outcome hwReset ts with e | u
  · rw [finalState_bind_error _ hout, hstalled]
    simp
  · have hrun := dsHandshake_releases _ hstalled
    rw [finalState_bind_ok _ hout, ← hrun]
    rcases hout' : outcome dsHandshake (finalState hwReset ts) with e | v
    · rw [finalState_bind_error _ hout']
      exact ⟨fun h => ⟨⟨u, rfl⟩, h⟩, fun h => h.2⟩
    · rw [finalState_bind_ok _ hout', hconfig _]
      exact ⟨fun h => ⟨⟨u, rfl⟩, h⟩, fun h => h.2⟩

/-- It accesses the TMC only while that runs. -/
theorem reinit_traceOk {ts : Ts} (h : TraceOk ts) : TraceOk (finalState reinit ts) := by
  obtain ⟨-, -, hstalled⟩ := hwReset_spec ts
  have hreset := (hwReset_ds ts).traceOk (fun _ => Ds.tmcOk) h
  have hshake := (dsHandshake_ds (finalState hwReset ts)).traceOk (fun _ => Ds.tmcOk) hreset
  rw [finalState_reinit]
  rcases hout : outcome hwReset ts with e | u
  · rw [finalState_bind_error _ hout]; exact hreset
  · rw [finalState_bind_ok _ hout]
    rcases hout' : outcome dsHandshake (finalState hwReset ts) with e | v
    · rw [finalState_bind_error _ hout']; exact hshake
    · have hlive : Live (finalState dsHandshake (finalState hwReset ts)) :=
        ⟨(dsHandshake_releases _ hstalled).mpr ⟨v, hout'⟩, hshake⟩
      rw [finalState_bind_ok _ hout']
      exact ((tmcConfig_steady _).live (fun _ => PlainOrConfigured.tmcOk) hlive).traceOk

/-! ### What a running TMC is left to -/

/-- Live states lead to live states. -/
def StaysLive (ts ts' : Ts) : Prop := Live ts → Live ts'

instance : Std.Refl StaysLive := ⟨fun _ => id⟩

instance : IsTrans Ts StaysLive := ⟨fun _ _ _ h h' => h' ∘ h⟩

theorem stays_plain {α : Type} {p : TsM α} (h : Within (Steady Plain) p) : Within StaysLive p :=
  fun ts => (h ts).live fun _ => Plain.tmcOk

theorem stays_devLog (fmt : String) (args : List ℤ) : Within StaysLive (devLog fmt args) := fun ts =>
  (devLog_steady (P := fun _ => TmcOk) (fun _ => trivial) ts).live fun _ => id

theorem stays_tmcConfig : Within StaysLive tmcConfig := fun ts =>
  (tmcConfig_steady ts).live fun _ => PlainOrConfigured.tmcOk

theorem stays_intClear : Within StaysLive intClear := fun ts =>
  (intClear_steady ts).live fun ev hev => by
    obtain ⟨ok, rfl⟩ := hev
    exact fun _ => rfl

theorem stays_reportPoints (pkt : List UInt8) (count : ℕ) :
    Within StaysLive (reportPoints pkt count) := by
  intro ts hts
  refine ⟨hts.running, ?_⟩
  intro ev hev
  rcases List.mem_append.mp hev with hev | hev
  · exact hts.traceOk ev hev
  · rw [List.mem_singleton.mp hev]
    trivial

/-! ### The probe -/

/-- A TMC that is reset, handled properly so far. -/
def Stalled (ts : Ts) : Prop := ts.running = false ∧ TraceOk ts

theorem establishes_orFail {P Q : Ts → Prop} {α : Type} {p : TsM α} (fmt : String)
    (h : Establishes P p Q) : Establishes P (orFail p fmt) Q := by
  intro ts hts a ha
  rw [outcome_orFail] at ha
  rw [finalState_orFail ha]
  exact h ts hts a ha

theorem establishes_given {P : Ts → Prop} {α : Type} (r : Except Errno α) :
    Establishes P (MonadExcept.ofExcept r : TsM α) P := fun ts hts _ _ => by
  rw [finalState_ofExcept]; exact hts

theorem hwReset_establishes : Establishes TraceOk hwReset Stalled := fun ts hts _ _ =>
  ⟨(hwReset_spec ts).2.2, (hwReset_ds ts).traceOk (fun _ => Ds.tmcOk) hts⟩

theorem dsHandshake_establishes : Establishes Stalled dsHandshake Live := fun ts hts a ha =>
  ⟨(dsHandshake_releases ts hts.1).mpr ⟨a, ha⟩, (dsHandshake_ds ts).traceOk (fun _ => Ds.tmcOk) hts.2⟩

theorem tmcConfig_establishes : Establishes Live tmcConfig Live :=
  .of_within stays_tmcConfig fun _ _ h hs => hs h

/-- The driver's own data do not matter. -/
theorem establishes_modify {f : Ts → Ts}
    (h : ∀ ts, (f ts).running = ts.running ∧ (f ts).trace = ts.trace) :
    Establishes Live (modify f : TsM PUnit) Live := by
  intro ts hts _ _
  obtain ⟨hrun, htrace⟩ := h ts
  refine ⟨hrun.trans hts.running, ?_⟩
  intro ev hev
  rw [finalState_modify, htrace] at hev
  exact hts.traceOk ev hev

/-- A successful probe leaves the TMC running. -/
theorem probe_establishes (env : ProbeEnv) : Establishes TraceOk (probe env) Live := by
  have hreset : Establishes TraceOk (gpiodSetReset true) TraceOk :=
    .of_within (setReset_emits trivial) fun _ _ h hs => hs.traceOk (fun _ => Ds.tmcOk) h
  have hinput : Establishes Live (if env.inputAlloc then pure () else throw Errno.ENOMEM : TsM Unit)
      Live := by
    split_ifs
    · exact fun ts hts _ _ => hts
    · exact .throw _
  rw [probe]
  cases hk : env.kzalloc with
  | false => exact .throw _
  | true =>
    refine .bind (establishes_orFail _ (establishes_given _)) fun _ => .bind hreset fun _ =>
      .bind (establishes_orFail _ (establishes_given _)) fun _ =>
      .bind (establishes_orFail _ hwReset_establishes) fun _ =>
      .bind (establishes_orFail _ dsHandshake_establishes) fun _ =>
      .bind (establishes_orFail _ tmcConfig_establishes) fun _ =>
      .bind (establishes_orFail _ hinput) fun _ =>
      .bind (establishes_modify fun _ => ⟨rfl, rfl⟩) fun _ =>
      .bind (establishes_orFail _ (establishes_given _)) fun _ =>
      .bind (establishes_modify fun _ => ⟨rfl, rfl⟩) fun _ =>
      .bind (establishes_orFail _ (establishes_given _)) fun _ =>
      .bind (establishes_orFail _ (establishes_given _)) fun _ =>
      .bind (fun ts hts _ _ => hts) fun ts => .of_within (stays_devLog _ _) fun _ _ h hs => hs h

/-! ### The poll -/

/-- Every branch but the AUX one. -/
theorem stays_pollWord {info : ℕ}
    (h : status info &&& statusBootSt = 0 → status info &&& statusAux = 0) :
    Within StaysLive (pollWord info) :=
  pollWord_within (fun _ _ h => h.live fun _ => PlainOrConfigured.tmcOk)
    (fun hboot haux => absurd (h hboot) haux) fun _ _ => stays_reportPoints

/-- The next poll re-initialises the chip: it reads a word with the AUX and without the BOOT bit. -/
def Reinits (ts : Ts) : Prop := ∃ info, outcome readSnl ts = .ok info ∧
  status info &&& statusBootSt = 0 ∧ status info &&& statusAux ≠ 0

/-- Where the re-initialisation of that poll finds the bus and the INT line. -/
def atReinit (ts : Ts) : Ts := finalState (readReg regAux 2) (finalState readSnl ts)

theorem poll_live {ts : Ts} (h : ¬ Reinits ts) (hts : Live ts) : Live (finalState poll ts) := by
  have hbody : Live (finalState pollBody ts) := by
    have hsnl := stays_plain readSnl_plain ts hts
    rw [pollBody, finalState_bind_ok _ (outcome_attempt _ ts), finalState_attempt]
    rcases hout : outcome readSnl ts with e | info
    · exact stays_devLog _ _ _ hsnl
    · refine stays_pollWord (fun hboot => ?_) _ hsnl
      by_contra haux
      exact h ⟨info, hout, hboot, haux⟩
  exact Within.tail (ack_within stays_intClear) pollBody ts hbody

/-- A poll that re-initialises leaves the TMC running exactly if it recovers. -/
theorem poll_reinits {ts : Ts} (h : Reinits ts) (hts : Live ts) :
    TraceOk (finalState poll ts) ∧
      ((finalState poll ts).running = true ↔ Recovers (atReinit ts)) := by
  obtain ⟨info, hout, hboot, haux⟩ := h
  have hne : info ≠ 0 := by
    rintro rfl
    exact haux rfl
  have hword : pollWord info = auxEvent >>= fun _ => pure false := by
    rw [pollWord, if_neg hne, if_neg (not_not.mpr hboot), if_pos haux]
  have hread := outcome_attempt (readReg regAux 2) (finalState readSnl ts)
  have hre : ∀ ts, outcome reinit ts = .ok () := fun ts => by
    rw [reinit, outcome_bind_ok _ (outcome_attempt _ ts)]
    rfl
  have hlog : ∀ args ts, outcome (devLog "AUX event 0x%04x, re-initialising" args) ts = .ok () :=
    fun _ _ => rfl
  have haux' : outcome auxEvent (finalState readSnl ts) = .ok () := by
    rw [auxEvent, outcome_bind_ok _ hread, outcome_bind_ok _ (hlog _ _), hre]
  have hbody : outcome pollBody ts = .ok false := by
    rw [pollBody, outcome_bind_ok _ (outcome_attempt _ ts), finalState_attempt, hout]
    dsimp only
    rw [hword, outcome_bind_ok _ haux']
    rfl
  have hpoll : ∃ args, finalState poll ts = finalState reinit
      (finalState (devLog "AUX event 0x%04x, re-initialising" args) (atReinit ts)) := by
    refine ⟨[auxWord (outcome (readReg regAux 2) (finalState readSnl ts))], ?_⟩
    rw [poll, finalState_bind_ok _ hbody, pollBody_word hout, hword, finalState_bind_ok _ haux',
      auxEvent, finalState_bind_ok _ hread, finalState_attempt, finalState_bind_ok _ (hlog _ _)]
    rfl
  obtain ⟨args, hpoll⟩ := hpoll
  have hlive : Live (finalState (devLog "AUX event 0x%04x, re-initialising" args) (atReinit ts)) :=
    stays_devLog _ _ _ (stays_plain (readReg_plain _ _) _ (stays_plain readSnl_plain ts hts))
  rw [hpoll, reinit_running_iff]
  exact ⟨reinit_traceOk hlive.traceOk, Iff.rfl⟩

/-! ### A stalled TMC -/

theorem Emits.grows {Q : Ev → Prop} {ts ts' : Ts} (h : Emits Q ts ts') : Appends Ts.trace ts ts' := by
  obtain ⟨evs, htrace, -⟩ := h.evs
  exact ⟨evs, htrace.symm⟩

theorem grows_plain {α : Type} {p : TsM α} (h : Within (Steady Plain) p) :
    Within (Appends Ts.trace) p :=
  fun ts => (h ts).emits.grows

theorem grows_devLog (fmt : String) (args : List ℤ) : Within (Appends Ts.trace) (devLog fmt args) :=
  fun _ => List.prefix_append _ _

theorem grows_pollWord (info : ℕ) : Within (Appends Ts.trace) (pollWord info) :=
  pollWord_within (fun _ _ h => h.emits.grows) (fun _ _ ts => (reinit_emits ts).grows)
    fun _ _ _ _ _ => List.prefix_append _ _

theorem grows_ack (b : Bool) :
    Within (Appends Ts.trace) (if b then do let _ ← attempt intClear else pure () : TsM Unit) :=
  ack_within (fun ts => (intClear_steady ts).emits.grows) b

theorem grows_word (r : Except Errno ℕ) : Within (Appends Ts.trace) (match r with
    | .error e => do
      devLog "S&L read failed: %d" [e.ret]
      pure true
    | .ok info => pollWord info) := by
  rcases r with e | info
  · exact .bind (grows_devLog _ _) fun _ => .pure _
  · exact grows_pollWord info

theorem poll_grows : Within (Appends Ts.trace) poll :=
  .bind (.bind (.attempt (grows_plain readSnl_plain)) grows_word) grows_ack

/-- A poll begins with an access to the TMC, whatever its state. -/
theorem poll_stalled {ts : Ts} (h : ts.running = false) : ¬ TraceOk (finalState poll ts) := by
  have hsend : ¬ TraceOk (finalState (i2cMasterSend (regBytes regStatusLength)) ts) := by
    intro hok
    have hbad : ∃ ok, .send (regBytes regStatusLength) ok false ∈
        (finalState (i2cMasterSend (regBytes regStatusLength)) ts).trace := by
      rw [← h]
      unfold finalState i2cMasterSend
      rcases ts.i2c.head with e | data
      · exact ⟨false, by simp⟩
      · exact ⟨true, by simp⟩
    obtain ⟨ok, hmem⟩ := hbad
    exact absurd (hok _ hmem (by decide)) (by decide)
  have hrecv : Appends Ts.trace (finalState (i2cMasterSend (regBytes regStatusLength)) ts)
      (finalState (readReg regStatusLength 4) ts) :=
    Within.tail (fun _ ts => (recv_emits (Q := fun _ => True) (fun _ => trivial) ts).grows) _ ts
  have hwords : Appends Ts.trace (finalState (readReg regStatusLength 4) ts)
      (finalState readSnlWords ts) := by
    refine Within.tail (fun snl => ?_) _ ts
    split_ifs
    · exact grows_plain (readReg_plain _ _)
    · exact .pure _
  have hsnl : Appends Ts.trace (finalState readSnlWords ts) (finalState readSnl ts) := by
    refine Within.tail (fun snl => ?_) _ ts
    split_ifs
    · exact .pure _
    · exact grows_plain (readSnlTries_plain 2)
  have hbody : Appends Ts.trace (finalState readSnl ts) (finalState pollBody ts) := by
    rw [← finalState_attempt]
    exact Within.tail grows_word _ ts
  have hpoll : Appends Ts.trace (finalState pollBody ts) (finalState poll ts) :=
    Within.tail grows_ack _ ts
  have hgrows : Appends Ts.trace (finalState (i2cMasterSend (regBytes regStatusLength)) ts)
      (finalState poll ts) := hrecv.trans (hwords.trans (hsnl.trans (hbody.trans hpoll)))
  exact fun hok => hsend (hgrows.forall hok)

/-! ### Runs of polls -/

theorem poll_traceOk {ts : Ts} (h : Live ts) : TraceOk (finalState poll ts) := by
  by_cases hre : Reinits ts
  · exact (poll_reinits hre h).1
  · exact (poll_live hre h).traceOk

theorem poll_running_iff {ts : Ts} (h : Live ts) :
    (finalState poll ts).running = true ↔ (Reinits ts → Recovers (atReinit ts)) := by
  by_cases hre : Reinits ts
  · rw [(poll_reinits hre h).2]
    exact ⟨fun hrec _ => hrec, fun himp => himp hre⟩
  · exact ⟨fun _ hre' => absurd hre' hre, fun _ => (poll_live hre h).running⟩

theorem traceOk_earlier {ts : Ts} : ∀ {n : ℕ}, TraceOk (after poll n ts) →
    ∀ k ≤ n, TraceOk (after poll k ts) := by
  intro n
  induction n with
  | zero =>
    intro h k hk
    exact Nat.le_zero.mp hk ▸ h
  | succ n ih =>
    intro h k hk
    rcases Nat.lt_or_ge n k with hlt | hge
    · exact Nat.le_antisymm hk hlt ▸ h
    · rw [after_succ] at h
      exact ih ((poll_grows _).forall h) k hge

/-- The states of a run in which every re-initialisation recovers. -/
theorem live_after {ts : Ts} (hts : Live ts) {n : ℕ}
    (h : ∀ k, k + 1 < n → Reinits (after poll k ts) → Recovers (atReinit (after poll k ts))) :
    ∀ k < n, Live (after poll k ts) := by
  intro k
  induction k with
  | zero =>
    intro _
    exact hts
  | succ k ih =>
    intro hk
    have hlive := ih (by omega)
    rw [after_succ]
    exact ⟨(poll_running_iff hlive).mpr (h k hk), poll_traceOk hlive⟩

/-- After a successful probe and any number of polls every access to a register of the TMC was made
    while that ran exactly if every re-initialisation but one in the last poll recovered. -/
theorem tmc_only_running_iff (env : ProbeEnv) {ts : Ts} (htrace : ts.trace = [])
    (hprobe : outcome (probe env) ts = .ok ()) (n : ℕ) :
    TraceOk (after poll n (finalState (probe env) ts)) ↔
      ∀ k, k + 1 < n → Reinits (after poll k (finalState (probe env) ts)) →
        Recovers (atReinit (after poll k (finalState (probe env) ts))) := by
  have hlive : Live (finalState (probe env) ts) :=
    probe_establishes env ts (fun ev hev => absurd (htrace ▸ hev) List.not_mem_nil) () hprobe
  refine ⟨?_, ?_⟩
  · intro hok k hk
    have hrunning : ∀ j < n, (after poll j (finalState (probe env) ts)).running = true := by
      intro j hj
      by_contra hstalled
      have hnext := traceOk_earlier hok (j + 1) hj
      rw [after_succ] at hnext
      exact poll_stalled (Bool.eq_false_of_not_eq_true hstalled) hnext
    have hnext := hrunning (k + 1) hk
    rw [after_succ] at hnext
    exact (poll_running_iff ⟨hrunning k (by omega), traceOk_earlier hok k (by omega)⟩).mp hnext
  · intro hrec
    cases n with
    | zero => exact hlive.traceOk
    | succ n =>
      rw [after_succ]
      exact poll_traceOk (live_after hlive hrec n (Nat.lt_succ_self n))

/-- The first poll reads an AUX event, and INT stays high after the reset that follows. -/
def unready : Ts :=
  powerOn (bus [reply [], reply [0, 0x40, 0x40, 0x40]]) ([true, true] ++ₛ Stream'.const false)

theorem tmc_only_running_iff_unready : TraceOk (after poll 2 (finalState (probe goodEnv) unready)) ↔
    ∀ k, k + 1 < 2 → Reinits (after poll k (finalState (probe goodEnv) unready)) →
      Recovers (atReinit (after poll k (finalState (probe goodEnv) unready))) :=
  tmc_only_running_iff goodEnv rfl (by decide +kernel) 2

theorem stalled_tmc_polled : outcome (probe goodEnv) unready = .ok () ∧
    ¬ TraceOk (after poll 2 (finalState (probe goodEnv) unready)) := by
  refine ⟨by decide +kernel, ?_⟩
  intro hok
  have hstalled : .send (regBytes regStatusLength) true false ∈
      (after poll 2 (finalState (probe goodEnv) unready)).trace := by decide +kernel
  exact absurd (hok _ hstalled (by decide)) (by decide)

end GeminiLinux.Ssd2092
