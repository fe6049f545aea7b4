import GeminiLinux.Consys.Power

/-! How far a probe that fails is rolled back. What the failure leaves depends on the step at which the
    probe fails alone; the labels undo the rails and runtime PM, and no label undoes a poke:

        VCN18 ─▶ VCN28 ─▶ sleep mask ─▶ RGU ─▶ SPM ─▶ resume ─▶ chip ID
        ◀────────◀──────── (no label) ───────────────◀──────────

    So a failure is rolled back exactly if the pokes made had nothing to change and runtime PM was in the
    state its labels lead to. -/

namespace GeminiLinux.Consys
open Prog

/-! ### The state a probe changes -/

@[ext] structure Hw where
  enables : Supply → ℕ
  sleepMask : BitVec 32
  rgu : BitVec 32
  spm : BitVec 32
  conn : Bool
  usage : ℕ
  disableDepth : ℕ
  active : Bool

def Device.hw (d : Device) : Hw where
  enables := d.enables
  sleepMask := d.regs conn2apSleepMaskPa
  rgu := d.regs apRguSwsysrstPa
  spm := d.regs spmPwronConfgEnPa
  conn := d.conn
  usage := d.usage
  disableDepth := d.disableDepth
  active := d.active

/-- A register is written. -/
def Device.poke (pa : ℕ) (value : BitVec 32) (d : Device) : Device :=
  { d with regs := Function.update d.regs pa value }

namespace Hw

def enable (s : Supply) (h : Hw) : Hw :=
  { h with enables := Function.update h.enables s (h.enables s + 1) }

def disable (s : Supply) (h : Hw) : Hw :=
  { h with enables := Function.update h.enables s (h.enables s - 1) }

def pokeMask (h : Hw) : Hw := { h with sleepMask := h.sleepMask ||| conn2apSleepMaskBit ||| 0 }

def pokeRgu (h : Hw) : Hw := { h with rgu := h.rgu ||| apRguConnMcuRst ||| apRguKey }

def pokeSpm (h : Hw) : Hw := { h with spm := spmPwronConfgEnVal }

def pmEnable (h : Hw) : Hw := { h with disableDepth := h.disableDepth - 1 }

def pmDisable (h : Hw) : Hw := { h with disableDepth := h.disableDepth + 1 }

def use (h : Hw) : Hw := { h with usage := h.usage + 1 }

def powerOn (h : Hw) : Hw := { h with conn := true }

def activate (h : Hw) : Hw := { h with usage := h.usage + 1, active := true }

/-- A resume that succeeds. -/
def resume (h : Hw) : Hw := if h.active then h.use else h.powerOn.activate

def release (h : Hw) : Hw := { h with usage := h.usage - 1 }

def powerOff (h : Hw) : Hw := { h with conn := false }

/-- `off`: the domain, once let go, is powered off at once. -/
def letOff (off : Bool) (h : Hw) : Hw := { h with active := false, conn := if off then false else h.conn }

def put (off : Bool) (h : Hw) : Hw :=
  if h.release.usage = 0 ∧ h.active ∧ h.disableDepth = 0 then h.release.letOff off else h.release

theorem disable_enable (s : Supply) (h : Hw) : (h.enable s).disable s = h := by
  simp [enable, disable]

end Hw

/-! ### The step at which a probe fails -/

inductive Stage where
  | vcn28 | sleepMask | rgu | spm | resume | chipId
  deriving DecidableEq

/-- The `k`-th fallible call succeeds. -/
def stepOk (d : Device) (k : ℕ) : Prop := d.steps.get k = .ok ()

instance (d : Device) : DecidablePred (stepOk d) := fun k => by unfold stepOk; infer_instance

/-- Runtime PM is enabled once it has been enabled, and the device, unless active, resumes. -/
def resumes (d : Device) : Prop := d.disableDepth - 1 = 0 ∧ (d.active = false → stepOk d 7)

instance : DecidablePred resumes := fun d => by unfold resumes; infer_instance

/-- The chip-ID window is mapped and one of the reads is right. -/
def chipAnswers (d : Device) : Prop :=
  stepOk d (if d.active then 7 else 8) ∧ ∃ i < chipIdRetries, d.chipIds.get i = consysChipIdExpect

instance : DecidablePred chipAnswers := fun d => by unfold chipAnswers; infer_instance

/-- Where the probe fails with VCN18 enabled, if it does. -/
def failStage (d : Device) : Option Stage :=
  if ¬ (stepOk d 0 ∧ stepOk d 1 ∧ stepOk d 2) then none
  else if ¬ stepOk d 3 then some .vcn28
  else if ¬ stepOk d 4 then some .sleepMask
  else if ¬ stepOk d 5 then some .rgu
  else if ¬ stepOk d 6 then some .spm
  else if ¬ resumes d then some .resume
  else if ¬ chipAnswers d then some .chipId
  else none

/-- What a probe that fails at a stage leaves. -/
def leftBy (d : Device) : Stage → Hw
  | .vcn28 => d.hw
  | .sleepMask => d.hw
  | .rgu => d.hw.pokeMask
  | .spm => d.hw.pokeMask.pokeRgu
  | .resume => d.hw.pokeMask.pokeRgu.pokeSpm.pmEnable.pmDisable
  | .chipId => (d.hw.pokeMask.pokeRgu.pokeSpm.pmEnable.resume.put d.powersOff.head).pmDisable

/-! ### The probe, step by step -/

/-- `k` fallible calls after `d₀`, with the hardware at `h` and nothing read or let go. -/
structure At (d₀ : Device) (k : ℕ) (h : Hw) (d : Device) : Prop where
  hw : d.hw = h
  steps : d.steps = d₀.steps.drop k
  chipIds : d.chipIds = d₀.chipIds
  powersOff : d.powersOff = d₀.powersOff
  log : d₀.log <+: d.log

/-- On the way back only the hardware and the log matter, and whether the domain is let off. -/
structure Down (d₀ : Device) (h : Hw) (d : Device) : Prop where
  hw : d.hw = h
  powersOff : d.powersOff = d₀.powersOff
  log : d₀.log <+: d.log

/-- And in the end not even that. -/
structure Done (d₀ : Device) (h : Hw) (d : Device) : Prop where
  hw : d.hw = h
  log : d₀.log <+: d.log

section Steps

variable {d₀ : Device} {k : ℕ} {h : Hw}

theorem At.down {d : Device} (ha : At d₀ k h d) : Down d₀ h d := ⟨ha.hw, ha.powersOff, ha.log⟩

theorem Down.done {d : Device} (hd : Down d₀ h d) : Done d₀ h d := ⟨hd.hw, hd.log⟩

theorem Down.devErr {d : Device} (hd : Down d₀ h d) (fmt : String) (args : List ℤ) :
    Down d₀ h { d with log := d.log ++ [(fmt, args)] } :=
  ⟨hd.hw, hd.powersOff, hd.log.trans (List.prefix_append ..)⟩

theorem step_at : Ends (At d₀ k h) step (fun _ d => stepOk d₀ k ∧ At d₀ (k + 1) h d)
    fun _ d => ¬ stepOk d₀ k ∧ Down d₀ h d := by
  refine .bind (I := fun r d => d₀.steps.get k = r ∧ At d₀ (k + 1) h d) (.modifyGet fun d ha => ?_)
    fun r => .ofExcept ?_ ?_
  · refine ⟨?_, ha.hw, ?_, ha.chipIds, ha.powersOff, ha.log⟩
    · rw [ha.steps, Stream'.head_drop]
    · exact (congrArg Stream'.tail ha.steps).trans (Stream'.tail_drop' ..)
  · rintro d _ rfl ⟨hget, ha⟩
    exact ⟨hget, ha⟩
  · rintro d e rfl ⟨hget, ha⟩
    refine ⟨?_, ha.down⟩
    rw [stepOk, hget]
    exact fun h => by cases h

theorem failing_at (err : Errno) : Ends (At d₀ k h) (failing err)
    (fun _ d => stepOk d₀ k ∧ At d₀ (k + 1) h d) fun _ d => ¬ stepOk d₀ k ∧ Down d₀ h d := by
  refine .bind (I := fun r d => r.casesOn (fun _ => ¬ stepOk d₀ k ∧ Down d₀ h d)
    fun _ => stepOk d₀ k ∧ At d₀ (k + 1) h d) (.attempt step_at) fun r => ?_
  rcases r with e | _
  · exact .throw fun _ hd => hd
  · exact .pure fun _ hd => hd

/-- An error that is logged leaves what it leaves. -/
theorem orErr_down {α : Type} {p : DeviceM α} {P : Device → Prop} {Q : α → Device → Prop} {C : Prop}
    (hp : Ends P p Q fun _ d => C ∧ Down d₀ h d) (fmt : String) (args : Errno → List ℤ) :
    Ends P (orErr p fmt args) Q fun _ d => C ∧ Down d₀ h d :=
  .onError hp fun _ => .modify fun _ hd => ⟨hd.1, hd.2.devErr _ _⟩

theorem regulatorEnable_at (s : Supply) : Ends (At d₀ k h) (regulatorEnable s)
    (fun _ d => stepOk d₀ k ∧ At d₀ (k + 1) (h.enable s) d) fun _ d => ¬ stepOk d₀ k ∧ Down d₀ h d := by
  refine .bind step_at fun _ => .of_and fun hok => .modify fun d ha => ?_
  obtain ⟨rfl, hsteps, hids, hoff, hlog⟩ := ha
  exact ⟨hok, rfl, hsteps, hids, hoff, hlog⟩

theorem regulatorDisable_done (s : Supply) : Ends (Done d₀ h) (regulatorDisable s)
    (fun _ => Done d₀ (h.disable s)) fun _ _ => False := by
  refine .modify fun d hd => ?_
  obtain ⟨rfl, hlog⟩ := hd
  exact ⟨rfl, hlog⟩

/-- A poke that changes the hardware by `f`. -/
theorem consysPoke_at {pa : ℕ} {setBits key value : BitVec 32} {overwrite : Bool} {f : Hw → Hw}
    (hf : ∀ d : Device, (d.poke pa (if overwrite then value else d.regs pa ||| setBits ||| key)).hw = f d.hw)
    (what : String) :
    Ends (At d₀ k h) (consysPoke pa setBits key overwrite value what)
      (fun _ d => stepOk d₀ k ∧ At d₀ (k + 1) (f h) d) fun _ d => ¬ stepOk d₀ k ∧ Down d₀ h d := by
  refine .bind (orErr_down (failing_at _) _ _) fun _ => .of_and fun hok => .modify fun d ha => ?_
  obtain ⟨rfl, hsteps, hids, hoff, hlog⟩ := ha
  exact ⟨hok, hf d, hsteps, hids, hoff, hlog⟩

/-! ### Runtime PM and the chip ID -/

theorem pmRuntimeEnable_at : Ends (At d₀ k h) pmRuntimeEnable (fun _ => At d₀ k h.pmEnable)
    fun _ _ => False := by
  refine .modify fun d ha => ?_
  obtain ⟨rfl, hsteps, hids, hoff, hlog⟩ := ha
  exact ⟨rfl, hsteps, hids, hoff, hlog⟩

theorem pmRuntimeDisable_done : Ends (Done d₀ h) pmRuntimeDisable (fun _ => Done d₀ h.pmDisable)
    fun _ _ => False := by
  refine .modify fun d hd => ?_
  obtain ⟨rfl, hlog⟩ := hd
  exact ⟨rfl, hlog⟩

/-- The power-on of a device that is not active. -/
theorem powerOn_at : Ends (At d₀ k h)
    (do step; domainOn; modify fun d => { d with usage := d.usage + 1, active := true })
    (fun _ d => stepOk d₀ k ∧ At d₀ (k + 1) h.powerOn.activate d)
    fun _ d => ¬ stepOk d₀ k ∧ Down d₀ h d := by
  refine .bind step_at fun _ => .of_and fun hok => ?_
  refine .bind (I := fun _ => At d₀ (k + 1) h.powerOn) (.modify fun d ha => ?_) fun _ =>
    .modify fun d ha => ⟨hok, ?_⟩
  · obtain ⟨rfl, hsteps, hids, hoff, hlog⟩ := ha
    exact ⟨rfl, hsteps, hids, hoff, hlog⟩
  · obtain ⟨hhw, hsteps, hids, hoff, hlog⟩ := ha
    rw [← hhw]
    exact ⟨rfl, hsteps, hids, hoff, hlog⟩

/-- A resume returns exactly if runtime PM is enabled and the device active or its power-on successful. -/
theorem pmRuntimeResumeAndGet_at : Ends (At d₀ k h) pmRuntimeResumeAndGet
    (fun _ d => (h.disableDepth = 0 ∧ (h.active = false → stepOk d₀ k)) ∧
      At d₀ (if h.active then k else k + 1) h.resume d)
    fun _ d => ¬ (h.disableDepth = 0 ∧ (h.active = false → stepOk d₀ k)) ∧ Down d₀ h d := by
  refine .read fun d ha => .cases (fun hdepth => ?_) fun hdepth => .cases (fun hactive => ?_) fun hactive => ?_
  · refine .throw fun _ heq => ?_
    subst heq
    exact ⟨fun hno => hdepth ((congrArg Hw.disableDepth ha.hw).trans hno.1), ha.down⟩
  · obtain ⟨rfl, hsteps, hids, hoff, hlog⟩ := ha
    have hon : d.hw.active = true := hactive
    rw [if_pos hon, Hw.resume, if_pos hon]
    refine .modify fun d' heq => ?_
    subst heq
    refine ⟨⟨not_not.mp hdepth, fun hno => absurd (hno.symm.trans hon) Bool.false_ne_true⟩, ?_⟩
    exact ⟨rfl, hsteps, hids, hoff, hlog⟩
  · have hoffline : h.active = false := ha.hw ▸ Bool.eq_false_of_not_eq_true hactive
    have henabled : h.disableDepth = 0 := ha.hw ▸ not_not.mp hdepth
    rw [if_neg (by rw [hoffline]; decide), Hw.resume, if_neg (by rw [hoffline]; decide)]
    refine (powerOn_at.starting ha).post (fun _ d' hd => ?_) fun _ d' hd => ?_
    · exact ⟨⟨henabled, fun _ => hd.1⟩, hd.2⟩
    · exact ⟨fun hno => hd.1 (hno.2 hoffline), hd.2⟩

theorem domainLetOff_done : Ends (Down d₀ h)
    (do modify fun d : Device => { d with active := false }; domainLetOff)
    (fun _ => Done d₀ (h.letOff d₀.powersOff.head)) fun _ _ => False := by
  refine .bind (I := fun _ => Down d₀ { h with active := false }) (.modify fun d hd => ?_) fun _ =>
    .bind (I := fun off d => off = d₀.powersOff.head ∧ Done d₀ { h with active := false } d)
      (.modifyGet fun d hd => ?_) fun off => .of_and fun hoff => ?_
  · obtain ⟨rfl, hoff, hlog⟩ := hd
    exact ⟨rfl, hoff, hlog⟩
  · exact ⟨congrArg Stream'.head hd.powersOff, hd.hw, hd.log⟩
  · subst hoff
    refine .cases (fun hoff => .modify fun d hd => ?_) fun hoff => .pure fun d hd => ?_
    · rw [Hw.letOff, if_pos hoff]
      exact ⟨congrArg Hw.powerOff hd.hw, hd.log⟩
    · rw [Hw.letOff, if_neg hoff]
      exact hd

theorem idle_iff {d : Device} (hd : Down d₀ h.release d) :
    (d.usage = 0 ∧ d.active ∧ d.disableDepth = 0) ↔
      (h.release.usage = 0 ∧ h.active ∧ h.disableDepth = 0) := by
  change (d.hw.usage = 0 ∧ d.hw.active ∧ d.hw.disableDepth = 0) ↔
    (h.release.usage = 0 ∧ h.release.active ∧ h.release.disableDepth = 0)
  rw [hd.hw]

theorem pmRuntimePutSync_done : Ends (Down d₀ h) pmRuntimePutSync
    (fun _ => Done d₀ (h.put d₀.powersOff.head)) fun _ _ => False := by
  refine .bind (I := fun _ => Down d₀ h.release) (.modify fun d hd => ?_) fun _ =>
    .read fun d hd => .cases (fun hidle => ?_) fun hidle => .pure fun d' heq => ?_
  · obtain ⟨rfl, hoff, hlog⟩ := hd
    exact ⟨rfl, hoff, hlog⟩
  · rw [Hw.put, if_pos ((idle_iff hd).mp hidle)]
    exact domainLetOff_done.starting hd
  · rw [Hw.put, if_neg fun hno => hidle ((idle_iff hd).mpr hno)]
    exact heq ▸ hd.done

/-- The last read decides: a right one ends the loop. -/
theorem pollChipId_down (n : ℕ) : ∀ (id : BitVec 32) (ids : Stream' (BitVec 32)),
    Ends (fun d => d.chipIds = ids ∧ Down d₀ h d) (pollChipId n id)
      (fun id' d => (id' = consysChipIdExpect ↔
        (n = 0 ∧ id = consysChipIdExpect) ∨ ∃ i < n, ids.get i = consysChipIdExpect) ∧ Down d₀ h d)
      fun _ _ => False := by
  induction n with
  | zero =>
    intro id ids
    refine .pure fun d hd => ⟨?_, hd.2⟩
    simp
  | succ n ih =>
    intro id ids
    refine .bind (I := fun id' d => id' = ids.head ∧ d.chipIds = ids.tail ∧ Down d₀ h d)
      (.modifyGet fun d hd => ?_) fun id' => .of_and fun hid => ?_
    · obtain ⟨hids, hhw, hoff, hlog⟩ := hd
      exact ⟨congrArg Stream'.head hids, congrArg Stream'.tail hids, hhw, hoff, hlog⟩
    · subst hid
      refine .cases (fun hright => .pure fun d hd => ⟨?_, hd.2⟩) fun hwrong => ?_
      · exact ⟨fun _ => .inr ⟨0, Nat.succ_pos n, hright⟩, fun _ => hright⟩
      · refine (ih ids.head ids.tail).returning fun id' d hd => ⟨hd.1.trans ?_, hd.2⟩
        rw [Nat.exists_lt_succ_left, or_iff_right fun hno => hwrong hno.2,
          or_iff_right fun hno => Nat.succ_ne_zero n hno.1]
        exact (or_iff_right hwrong).symm

theorem checkChipId_at : Ends (At d₀ k h) checkChipId
    (fun _ _ => stepOk d₀ k ∧ ∃ i < chipIdRetries, d₀.chipIds.get i = consysChipIdExpect)
    fun _ d => ¬ (stepOk d₀ k ∧ ∃ i < chipIdRetries, d₀.chipIds.get i = consysChipIdExpect) ∧
      Down d₀ h d := by
  refine .bind ((orErr_down (failing_at _) _ _).failing fun _ d hd => ⟨fun hno => hd.1 hno.1, hd.2⟩)
    fun _ => .of_and fun hok => ?_
  refine .bind ((pollChipId_down chipIdRetries 0 d₀.chipIds).noError.mono
    (fun d ha => ⟨ha.chipIds, ha.down⟩) (fun _ _ hd => hd) fun _ _ hd => hd) fun id => .of_and fun hid => ?_
  have hzero : ¬ (chipIdRetries = 0 ∧ (0 : BitVec 32) = consysChipIdExpect) := by decide
  rw [or_iff_right hzero] at hid
  refine .cases (fun hwrong => ?_) fun hright => .modify fun _ _ => ⟨hok, hid.mp (not_not.mp hright)⟩
  refine .bind (I := fun _ => Down d₀ h) (.modify fun d hd => hd.devErr _ _) fun _ =>
    .throw fun d hd => ⟨fun hno => hwrong (hid.mpr hno.2), hd⟩

end Steps

/-! ### The probe -/

/-- Both rails enabled. -/
def Hw.railed (h : Hw) : Hw := (h.enable .vcn18).enable .vcn28

theorem Hw.railed_resume (h : Hw) : h.resume.railed = h.railed.resume := by
  change (if h.active then h.use else h.powerOn.activate).railed =
    if h.active then h.railed.use else h.railed.powerOn.activate
  split_ifs <;> rfl

theorem Hw.railed_put (off : Bool) (h : Hw) : (h.put off).railed = h.railed.put off := by
  change (if h.release.usage = 0 ∧ h.active ∧ h.disableDepth = 0 then h.release.letOff off
      else h.release).railed = if h.release.usage = 0 ∧ h.active ∧ h.disableDepth = 0 then
      h.railed.release.letOff off else h.railed.release
  split_ifs <;> rfl

/-- A failure at the stage the device fails at, with what it leaves still to be undone by `undo`. -/
def FailedAt (d₀ : Device) (undo : Hw → Hw) (d : Device) : Prop :=
  ∃ st h, failStage d₀ = some st ∧ undo h = leftBy d₀ st ∧ Done d₀ h d

section Probe

variable {d₀ : Device}

theorem FailedAt.of_down {d : Device} {h : Hw} {undo : Hw → Hw} (st : Stage) (hst : failStage d₀ = some st)
    (hleft : undo h = leftBy d₀ st) (hd : Down d₀ h d) : FailedAt d₀ undo d :=
  ⟨st, h, hst, hleft, hd.done⟩

/-- One more label on the way back. -/
theorem unwinding_failed {α : Type} {P : Device → Prop} {Q : α → Device → Prop} {p : DeviceM α}
    {undo : DeviceM Unit} {f g : Hw → Hw} (hp : Ends P p Q fun _ => FailedAt d₀ (g ∘ f))
    (hundo : ∀ h, Ends (Done d₀ h) undo (fun _ => Done d₀ (f h)) fun _ _ => False) :
    Ends P (unwinding p undo) Q fun _ => FailedAt d₀ g := by
  refine .onError hp fun _ => .of_exists fun st => .of_exists fun h => .of_and fun hst => .of_and fun hleft => ?_
  exact (hundo h).noError.returning fun _ d hd => ⟨st, f h, hst, hleft, hd⟩

/-- The labels `err_vcn28` and `err_vcn18`. -/
def offRails (h : Hw) : Hw := (h.disable .vcn28).disable .vcn18

theorem offRails_railed (h : Hw) : offRails h.railed = h := by
  rw [offRails, Hw.railed, Hw.disable_enable, Hw.disable_enable]

/-- What is left once the domain has been powered and let go again. -/
theorem leftBy_chipId (d : Device) : leftBy d .chipId = offRails
    (d.hw.pokeMask.pokeRgu.pokeSpm.railed.pmEnable.resume.put d.powersOff.head).pmDisable := by
  have hrailed : d.hw.pokeMask.pokeRgu.pokeSpm.railed.pmEnable =
      d.hw.pokeMask.pokeRgu.pokeSpm.pmEnable.railed := rfl
  rw [hrailed, ← Hw.railed_resume, ← Hw.railed_put]
  exact (offRails_railed _).symm

theorem powerConn_failed (hstage : failStage d₀ = if ¬ resumes d₀ then some .resume
      else if ¬ chipAnswers d₀ then some .chipId else none) :
    Ends (At d₀ 7 d₀.hw.pokeMask.pokeRgu.pokeSpm.railed) powerConn (fun _ _ => failStage d₀ = none)
      fun _ => FailedAt d₀ offRails := by
  refine .bind pmRuntimeEnable_at.noError fun _ =>
    unwinding_failed (f := Hw.pmDisable) ?_ fun _ => pmRuntimeDisable_done
  refine .bind ((orErr_down pmRuntimeResumeAndGet_at _ _).failing fun _ d hd => ?_)
    fun _ => .of_and fun hresumes => ?_
  · have hnot : ¬ resumes d₀ := hd.1
    refine .of_down .resume ?_ ?_ hd.2
    · rw [hstage, if_pos hnot]
    · exact offRails_railed (leftBy d₀ .resume)
  · have hyes : resumes d₀ := hresumes
    rw [if_neg (not_not.mpr hyes)] at hstage
    refine .onError (checkChipId_at.returning fun _ d hchip => ?_) fun _ => .of_and fun hchip => ?_
    · have hanswers : chipAnswers d₀ := hchip
      rw [hstage, if_neg (not_not.mpr hanswers)]
    · have hnot : ¬ chipAnswers d₀ := hchip
      refine pmRuntimePutSync_done.noError.returning fun _ d hd => ⟨.chipId, _, ?_, ?_, hd⟩
      · rw [hstage, if_pos hnot]
      · exact (leftBy_chipId d₀).symm

theorem powerUp_failed (hreach : stepOk d₀ 0 ∧ stepOk d₀ 1 ∧ stepOk d₀ 2) (h3 : stepOk d₀ 3) :
    Ends (At d₀ 4 d₀.hw.railed) powerUp (fun _ _ => failStage d₀ = none) fun _ => FailedAt d₀ offRails := by
  refine .bind ((consysPoke_at (f := Hw.pokeMask) (fun _ => rfl) _).failing fun _ d hd => ?_)
    fun _ => .of_and fun h4 => ?_
  · refine .of_down .sleepMask ?_ (offRails_railed _) hd.2
    simp [failStage, hreach, h3, hd.1]
  refine .bind ((consysPoke_at (f := Hw.pokeRgu) (fun _ => rfl) _).failing fun _ d hd => ?_)
    fun _ => .of_and fun h5 => ?_
  · refine .of_down .rgu ?_ (offRails_railed d₀.hw.pokeMask) hd.2
    simp [failStage, hreach, h3, h4, hd.1]
  refine .bind ((consysPoke_at (f := Hw.pokeSpm) (fun _ => rfl) _).failing fun _ d hd => ?_)
    fun _ => .of_and fun h6 => ?_
  · refine .of_down .spm ?_ (offRails_railed d₀.hw.pokeMask.pokeRgu) hd.2
    simp [failStage, hreach, h3, h4, h5, hd.1]
  · refine powerConn_failed ?_
    simp [failStage, hreach, h3, h4, h5, h6]

/-- The message at the end of the labels. -/
def rolledBackFmt : String := "consys-spike: probe failed (%d) - sequence rolled back"

/-- The probe fails with VCN18 enabled, and says so. -/
def Reported (d₀ : Device) (e : Errno) (d : Device) : Prop :=
  ∃ st, failStage d₀ = some st ∧ d.hw = leftBy d₀ st ∧
    ∃ evs, d.log = d₀.log ++ evs ∧ (rolledBackFmt, [e.ret]) ∈ evs

theorem probeRails_failed (hreach : stepOk d₀ 0 ∧ stepOk d₀ 1 ∧ stepOk d₀ 2) :
    Ends (At d₀ 3 (d₀.hw.enable .vcn18)) probeRails (fun _ _ => failStage d₀ = none) (Reported d₀) := by
  refine .onError (F := fun _ => FailedAt d₀ id) ?_ fun e => .modify fun d hd => ?_
  · refine unwinding_failed (f := Hw.disable .vcn18) ?_ fun _ => regulatorDisable_done _
    refine .bind ((orErr_down (regulatorEnable_at _) _ _).failing fun _ d hd => ?_) fun _ => .of_and fun h3 =>
      unwinding_failed (f := Hw.disable .vcn28) (powerUp_failed hreach h3) fun _ => regulatorDisable_done _
    refine .of_down .vcn28 ?_ (Hw.disable_enable _ _) hd.2
    simp [failStage, hreach, hd.1]
  · obtain ⟨st, h, hst, rfl, hhw, hlog⟩ := hd
    obtain ⟨evs, hevs⟩ := hlog
    refine ⟨st, hst, hhw, evs ++ [(rolledBackFmt, [e.ret])], ?_, List.mem_append_right _ (by simp)⟩
    rw [← List.append_assoc, hevs]
    rfl

theorem at_start (d : Device) : At d 0 d.hw d := ⟨rfl, rfl, rfl, rfl, List.prefix_rfl⟩

theorem orErrProbe_down {α : Type} {p : DeviceM α} {P : Device → Prop} {Q : α → Device → Prop} {C : Prop}
    {h : Hw} (hp : Ends P p Q fun _ d => C ∧ Down d₀ h d) (fmt : String) :
    Ends P (orErrProbe p fmt) Q fun _ d => C ∧ Down d₀ h d := by
  refine .onError hp fun e => .cases (fun _ => .pure fun _ hd => hd) fun _ => .modify fun _ hd => ?_
  exact ⟨hd.1, hd.2.devErr _ _⟩

/-- A probe succeeds, fails before it has enabled anything, or fails at the stage the device fails at. -/
theorem probe_ends (d₀ : Device) : Ends (· = d₀) mtkConsysSpikeProbe (fun _ _ => failStage d₀ = none)
    fun e d => failStage d₀ = none ∧ d.hw = d₀.hw ∨ Reported d₀ e d := by
  have hearly : ∀ {k : ℕ} {e : Errno} {d : Device}, k < 3 → ¬ stepOk d₀ k ∧ Down d₀ d₀.hw d →
      failStage d₀ = none ∧ d.hw = d₀.hw ∨ Reported d₀ e d := by
    intro k e d hk hd
    refine .inl ⟨if_pos fun hall => hd.1 ?_, hd.2.hw⟩
    interval_cases k
    · exact hall.1
    · exact hall.2.1
    · exact hall.2.2
  have hstep : Ends (At d₀ 0 d₀.hw) step _ _ := step_at
  have hfirst := hstep.starting (at_start d₀)
  refine .bind ((orErrProbe_down hfirst _).failing fun _ _ => hearly (by decide)) fun _ => .of_and fun h0 => ?_
  refine .bind ((orErrProbe_down step_at _).failing fun _ _ => hearly (by decide)) fun _ => .of_and fun h1 => ?_
  refine .bind ((orErrProbe_down (regulatorEnable_at _) _).failing fun _ _ => hearly (by decide))
    fun _ => .of_and fun h2 => ?_
  refine .bind ((probeRails_failed ⟨h0, h1, h2⟩).failing fun _ _ => .inr) fun _ => ?_
  exact .bind (.attempt (.fact consysGateG2b)) fun _ => .pure fun _ hnone => hnone

end Probe

/-! ### What is restored -/

/-- The hardware is as the probe found it; of the two registers it sets a bit in, that bit is. -/
structure Restored (h h' : Hw) : Prop where
  vcn18 : h'.enables .vcn18 = h.enables .vcn18
  vcn28 : h'.enables .vcn28 = h.enables .vcn28
  sleepMask : h'.sleepMask &&& conn2apSleepMaskBit = h.sleepMask &&& conn2apSleepMaskBit
  rgu : h'.rgu &&& apRguConnMcuRst = h.rgu &&& apRguConnMcuRst
  spm : h'.spm = h.spm
  conn : h'.conn = h.conn
  usage : h'.usage = h.usage
  disableDepth : h'.disableDepth = h.disableDepth
  active : h'.active = h.active

/-- A probe that fails and says that it is rolled back is. -/
def RollsBack (d : Device) : Prop :=
  ∀ e evs, outcome mtkConsysSpikeProbe d = .error e →
    (finalState mtkConsysSpikeProbe d).log = d.log ++ evs → (rolledBackFmt, [e.ret]) ∈ evs →
    Restored d.hw (finalState mtkConsysSpikeProbe d).hw

def MaskSet (d : Device) : Prop := d.hw.sleepMask &&& conn2apSleepMaskBit = conn2apSleepMaskBit

def RguSet (d : Device) : Prop := d.hw.rgu &&& apRguConnMcuRst = apRguConnMcuRst

def SpmSet (d : Device) : Prop := d.hw.spm = spmPwronConfgEnVal

/-- The pokes made before a stage have nothing to change, and runtime PM is in the state that its labels
    lead to: disabled once, and either active and in use by others or neither. -/
def Neutral (d : Device) : Stage → Prop
  | .vcn28 => True
  | .sleepMask => True
  | .rgu => MaskSet d
  | .spm => MaskSet d ∧ RguSet d
  | .resume => MaskSet d ∧ RguSet d ∧ SpmSet d ∧ d.disableDepth ≠ 0
  | .chipId => MaskSet d ∧ RguSet d ∧ SpmSet d ∧ d.disableDepth = 1 ∧
      if d.active then d.usage ≠ 0 else d.usage = 0 ∧ d.conn = !d.powersOff.head

theorem or_and_self (m b c : BitVec 32) : (m ||| b ||| c) &&& b = b := by
  ext i hi
  simp only [BitVec.getElem_and, BitVec.getElem_or]
  cases b[i] <;> simp

/-- A put after a resume lets an idle device go. -/
theorem put_resume_active {h : Hw} (off : Bool) (hactive : h.active = true) (hdepth : h.disableDepth = 0) :
    h.resume.put off = if h.usage = 0 then h.letOff off else h := by
  have hresume : h.resume = h.use := if_pos hactive
  have hrelease : h.use.release = h := rfl
  rw [hresume, Hw.put, hrelease]
  by_cases hidle : h.usage = 0
  · rw [if_pos hidle, if_pos ⟨hidle, hactive, hdepth⟩]
  · rw [if_neg hidle, if_neg fun hno => hidle hno.1]

theorem put_resume_inactive {h : Hw} (off : Bool) (hactive : h.active = false) (hdepth : h.disableDepth = 0) :
    h.resume.put off = if h.usage = 0 then h.powerOn.letOff off else { h.powerOn with active := true } := by
  have hresume : h.resume = h.powerOn.activate := if_neg (by rw [hactive]; decide)
  have hrelease : h.powerOn.activate.release = { h.powerOn with active := true } := rfl
  rw [hresume, Hw.put, hrelease]
  by_cases hidle : h.usage = 0
  · rw [if_pos hidle, if_pos ⟨hidle, rfl, hdepth⟩]
    rfl
  · rw [if_neg hidle, if_neg fun hno => hidle hno.1]

section Device

variable {d : Device}

theorem mask_iff : d.hw.pokeMask.sleepMask &&& conn2apSleepMaskBit =
    d.hw.sleepMask &&& conn2apSleepMaskBit ↔ MaskSet d := by
  rw [Hw.pokeMask, or_and_self, eq_comm, MaskSet]

theorem rgu_iff : d.hw.pokeRgu.rgu &&& apRguConnMcuRst = d.hw.rgu &&& apRguConnMcuRst ↔ RguSet d := by
  rw [Hw.pokeRgu, or_and_self, eq_comm, RguSet]

/-- With all three pokes made, what is left of runtime PM decides. -/
theorem restored_poked_iff (h' : Hw) (henables : h'.enables = d.enables)
    (hmask : h'.sleepMask = d.hw.pokeMask.sleepMask) (hrgu : h'.rgu = d.hw.pokeRgu.rgu)
    (hspm : h'.spm = spmPwronConfgEnVal) : Restored d.hw h' ↔
      MaskSet d ∧ RguSet d ∧ SpmSet d ∧ h'.disableDepth = d.disableDepth ∧
        h'.usage = d.usage ∧ h'.conn = d.conn ∧ h'.active = d.active := by
  rw [← mask_iff, ← rgu_iff, ← hmask, ← hrgu, SpmSet, ← hspm]
  constructor
  · intro h
    exact ⟨h.sleepMask, h.rgu, h.spm.symm, h.disableDepth, h.usage, h.conn, h.active⟩
  · rintro ⟨hm, hr, hs, hdepth, husage, hconn, hactive⟩
    exact ⟨congrFun henables _, congrFun henables _, hm, hr, hs.symm, hconn, husage, hdepth, hactive⟩

theorem resumes_of_chipId (h : failStage d = some .chipId) : resumes d := by
  by_contra hno
  simp only [failStage, hno, not_false_eq_true, if_true] at h
  split_ifs at h <;> cases h

/-- What the resume and the put of a failed chip ID make of runtime PM, disabled but once. -/
theorem chipId_pm_iff (h : d.disableDepth - 1 = 0) :
    ((leftBy d .chipId).disableDepth = d.disableDepth ∧ (leftBy d .chipId).usage = d.usage ∧
      (leftBy d .chipId).conn = d.conn ∧ (leftBy d .chipId).active = d.active) ↔
    d.disableDepth = 1 ∧ if d.active then d.usage ≠ 0 else d.usage = 0 ∧ d.conn = !d.powersOff.head := by
  have hone : d.disableDepth - 1 + 1 = d.disableDepth ↔ d.disableDepth = 1 := by omega
  rw [leftBy]
  generalize hh : d.hw.pokeMask.pokeRgu.pokeSpm.pmEnable = h₁
  have hdepth : h₁.disableDepth = 0 := hh ▸ h
  change (_ + 1 = _ ∧ _) ↔ _
  cases hactive : d.active with
  | true =>
    rw [put_resume_active _ (hh ▸ hactive) hdepth, ← hh, if_pos rfl]
    split_ifs with hidle
    · exact iff_of_false (fun hno => Bool.false_ne_true hno.2.2.2) fun hno => hno.2 hidle
    · exact ⟨fun hyes => ⟨hone.mp hyes.1, hidle⟩, fun hyes => ⟨hone.mpr hyes.1, rfl, rfl, hactive⟩⟩
  | false =>
    rw [put_resume_inactive _ (hh ▸ hactive) hdepth, ← hh, if_neg Bool.false_ne_true]
    split_ifs with hidle
    · have hconn : (if d.powersOff.head then false else true) = d.conn ↔ d.conn = !d.powersOff.head := by
        cases d.powersOff.head <;> exact eq_comm
      exact ⟨fun hyes => ⟨hone.mp hyes.1, hidle, hconn.mp hyes.2.2.1⟩,
        fun hyes => ⟨hone.mpr hyes.1, rfl, hconn.mpr hyes.2.2, rfl⟩⟩
    · exact iff_of_false (fun hno => Bool.false_ne_true hno.2.2.2.symm) fun hno => hidle hno.2.1

theorem restored_leftBy_iff {st : Stage} (hst : failStage d = some st) :
    Restored d.hw (leftBy d st) ↔ Neutral d st := by
  cases st with
  | vcn28 => exact ⟨fun _ => trivial, fun _ => ⟨rfl, rfl, rfl, rfl, rfl, rfl, rfl, rfl, rfl⟩⟩
  | sleepMask => exact ⟨fun _ => trivial, fun _ => ⟨rfl, rfl, rfl, rfl, rfl, rfl, rfl, rfl, rfl⟩⟩
  | rgu => exact ⟨fun h => mask_iff.mp h.sleepMask,
      fun h => ⟨rfl, rfl, mask_iff.mpr h, rfl, rfl, rfl, rfl, rfl, rfl⟩⟩
  | spm => exact ⟨fun h => ⟨mask_iff.mp h.sleepMask, rgu_iff.mp h.rgu⟩,
      fun h => ⟨rfl, rfl, mask_iff.mpr h.1, rgu_iff.mpr h.2, rfl, rfl, rfl, rfl, rfl⟩⟩
  | resume =>
    refine (restored_poked_iff (leftBy d .resume) rfl rfl rfl rfl).trans ?_
    have hdepth : (leftBy d .resume).disableDepth = d.disableDepth ↔ d.disableDepth ≠ 0 := by
      change d.disableDepth - 1 + 1 = d.disableDepth ↔ _
      omega
    rw [hdepth]
    exact ⟨fun ⟨hm, hr, hs, hd, _⟩ => ⟨hm, hr, hs, hd⟩, fun ⟨hm, hr, hs, hd⟩ => ⟨hm, hr, hs, hd, rfl, rfl, rfl⟩⟩
  | chipId =>
    have hregs : ∀ off h, (Hw.put off (Hw.resume h)).enables = h.enables ∧
        (Hw.put off (Hw.resume h)).sleepMask = h.sleepMask ∧ (Hw.put off (Hw.resume h)).rgu = h.rgu ∧
        (Hw.put off (Hw.resume h)).spm = h.spm := by
      intro off h
      unfold Hw.put Hw.resume
      split_ifs <;> exact ⟨rfl, rfl, rfl, rfl⟩
    obtain ⟨henables, hmask, hrgu, hspm⟩ := hregs d.powersOff.head d.hw.pokeMask.pokeRgu.pokeSpm.pmEnable
    rw [restored_poked_iff (leftBy d .chipId) henables hmask hrgu hspm,
      chipId_pm_iff (resumes_of_chipId hst).1, Neutral]

end Device

/-- A probe that is rolled back has done nothing that made a difference. -/
theorem RollsBack.neutral {d : Device} (h : RollsBack d) {st : Stage} (hst : failStage d = some st) :
    Neutral d st := by
  rcases hout : outcome mtkConsysSpikeProbe d with e | _
  · rcases (probe_ends d).final_error rfl hout with hearly | ⟨st', hst', hhw, evs, hlog, hmem⟩
    · rw [hearly.1] at hst
      cases hst
    · have hrestored := h e evs hout hlog hmem
      rw [hst] at hst'
      cases hst'
      rwa [hhw, restored_leftBy_iff hst] at hrestored
  · have hnone := (probe_ends d).final_ok rfl hout
    rw [hnone] at hst
    cases hst

/-- Attached and powered by the bus, with registers that read zero, and a chip that does not answer. -/
def deadChip : Device := { poweredOff with conn := true, chipIds := Stream'.const 0 }

end GeminiLinux.Consys
