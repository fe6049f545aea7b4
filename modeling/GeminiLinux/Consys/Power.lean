import GeminiLinux.Lib.Prog
import GeminiLinux.Kernel.Errno

/-! The power of the CONSYS block: the probe of the spike driver between the platform bus, runtime PM,
    the regulators and the CONN domain of scpsys.

        bind:    dev_pm_domain_attach (CONN on) ─▶ probe ─▶ bound
                                                     └ error ─▶ unwind ─▶ dev_pm_domain_detach
        probe:   VCN18 ─▶ VCN28 ─▶ three pokes ─▶ runtime resume (CONN on) ─▶ chip ID ─▶ gate
        unbind:  dev_pm_domain_detach; the driver has no remove

    What each fallible step returns, what the chip ID reads as and whether a domain that is let go is
    powered off at once are given by streams. Every change of a rail or of the domain is recorded. -/

namespace GeminiLinux.Consys
open Prog

/-! ### Constants -/

def consysChipIdExpect : BitVec 32 := 0x0279
def consysMcuAcrPa : ℕ := 0x18070110
def consysMcuAcrMbist : BitVec 32 := 1 <<< 18
def conn2apSleepMaskPa : ℕ := 0x10001350
def conn2apSleepMaskBit : BitVec 32 := 1 <<< 8
def apRguSwsysrstPa : ℕ := 0x10007018
def apRguConnMcuRst : BitVec 32 := 1 <<< 12
def apRguKey : BitVec 32 := 0x88 <<< 24
def spmPwronConfgEnPa : ℕ := 0x10006000
def spmPwronConfgEnVal : BitVec 32 := 0x0b160001
def chipIdRetries : ℕ := 10
def consysEmiMappingPa : ℕ := 0x10001340
def consysEmiRemapEn : BitVec 32 := 1 <<< 12

/-! ### The device and what is around it -/

inductive Supply where
  | vcn18 | vcn28
  deriving DecidableEq

/-- A state the system has gone through: the enable count of VCN18 and whether CONN is powered. -/
structure Rails where
  vcn18 : ℕ
  conn : Bool
  deriving DecidableEq

structure Device where
  /-- The enable counts of the regulators. -/
  enables : Supply → ℕ
  regs : ℕ → BitVec 32
  /-- The MTCMOS of the CONN domain. -/
  conn : Bool
  /-- `power.usage_count`, `power.disable_depth` and whether the runtime status is active. -/
  usage : ℕ
  disableDepth : ℕ
  active : Bool
  /-- The enable count of the btif clock. -/
  btifClk : ℕ
  bound : Bool
  emiBase : ℕ
  steps : Stream' (Except Errno Unit)
  attaches : Stream' (Except Errno Unit)
  chipIds : Stream' (BitVec 32)
  powersOff : Stream' Bool
  seen : List Rails
  log : List (String × List ℤ)

abbrev DeviceM := EStateM Errno Device

/-- A change of the rails or of the domain. -/
def change (f : Device → Device) : DeviceM Unit :=
  modify fun d => { f d with seen := d.seen ++ [⟨(f d).enables .vcn18, (f d).conn⟩] }

def devErr (fmt : String) (args : List ℤ) : DeviceM Unit :=
  modify fun d => { d with log := d.log ++ [(fmt, args)] }

/-- A call that may fail. -/
def step : DeviceM Unit := do
  let r ← modifyGet fun d => (d.steps.head, { d with steps := d.steps.tail })
  MonadExcept.ofExcept r

/-- A call whose failure the driver turns into an error of its own. -/
def failing (err : Errno) : DeviceM Unit := do
  match ← attempt step with
  | .ok _ => pure ()
  | .error _ => throw err

def ioremap : DeviceM Unit := failing .ENOMEM

/-- `if (ret) { dev_err(...); return ret; }`. -/
def orErr {α : Type} (p : DeviceM α) (fmt : String) (args : Errno → List ℤ) : DeviceM α :=
  onError p fun e => devErr fmt (args e)

/-- `dev_err_probe`, which does not log a deferral as an error. -/
def devErrProbe (e : Errno) (fmt : String) : DeviceM Unit :=
  if e = .EPROBE_DEFER then pure () else devErr fmt [e.ret]

/-- `if (ret) return dev_err_probe(...);`. -/
def orErrProbe {α : Type} (p : DeviceM α) (fmt : String) : DeviceM α :=
  onError p fun e => devErrProbe e fmt

/-- `goto` a label that undoes a step and goes on to the ones below. -/
def unwinding {α : Type} (p : DeviceM α) (undo : DeviceM Unit) : DeviceM α := onError p fun _ => undo

/-! ### Regulators, runtime PM and the domain -/

def regulatorEnable (s : Supply) : DeviceM Unit := do
  step
  change fun d => { d with enables := Function.update d.enables s (d.enables s + 1) }

def regulatorDisable (s : Supply) : DeviceM Unit :=
  change fun d => { d with enables := Function.update d.enables s (d.enables s - 1) }

def domainOn : DeviceM Unit := change fun d => { d with conn := true }

/-- The domain may be powered off now. -/
def domainLetOff : DeviceM Unit := do
  let off ← modifyGet fun d => (d.powersOff.head, { d with powersOff := d.powersOff.tail })
  if off then change fun d => { d with conn := false } else pure ()

def devPmDomainAttach : DeviceM Unit := do
  let r ← modifyGet fun d => (d.attaches.head, { d with attaches := d.attaches.tail })
  MonadExcept.ofExcept r
  domainOn

def devPmDomainDetach : DeviceM Unit := domainLetOff

/-- An unbalanced call changes nothing. -/
def pmRuntimeEnable : DeviceM Unit := modify fun d => { d with disableDepth := d.disableDepth - 1 }

def pmRuntimeDisable : DeviceM Unit := modify fun d => { d with disableDepth := d.disableDepth + 1 }

/-- While runtime PM is disabled the call fails with EACCES; an active device is not resumed again. -/
def pmRuntimeResumeAndGet : DeviceM Unit := do
  let d ← get
  if d.disableDepth ≠ 0 then throw (.other 13)
  else if d.active then modify fun d => { d with usage := d.usage + 1 }
  else do
    step
    domainOn
    modify fun d => { d with usage := d.usage + 1, active := true }

def pmRuntimePutSync : DeviceM Unit := do
  modify fun d => { d with usage := d.usage - 1 }
  let d ← get
  if d.usage = 0 ∧ d.active ∧ d.disableDepth = 0 then do
    modify fun d => { d with active := false }
    domainLetOff
  else pure ()

def mtkScpdKeepDefaultOff : ℕ := 1 <<< 2

/-- The `caps` of `scp_domain_data_mt6797[MT6797_POWER_DOMAIN_CONN]`. -/
def connCaps : ℕ := mtkScpdKeepDefaultOff

/-- What `mtk_register_power_domains` does with the CONN domain. -/
def mtkRegisterPowerDomain (caps : ℕ) : DeviceM Unit :=
  if caps &&& mtkScpdKeepDefaultOff ≠ 0 then pure () else domainOn

/-! ### The driver -/

def consysPoke (pa : ℕ) (setBits key : BitVec 32) (overwrite : Bool) (value : BitVec 32)
    (what : String) : DeviceM Unit := do
  orErr ioremap ("consys-spike: ioremap(%#lx) for " ++ what ++ " failed") fun _ => [pa]
  modify fun d => { d with
    regs := Function.update d.regs pa (if overwrite then value else d.regs pa ||| setBits ||| key) }

def consysPokeClear (pa : ℕ) (clrBits key : BitVec 32) (what : String) : DeviceM Unit := do
  orErr ioremap ("consys-spike: ioremap(%#lx) for " ++ what ++ " failed") fun _ => [pa]
  modify fun d => { d with regs := Function.update d.regs pa (d.regs pa &&& ~~~clrBits ||| key) }

/-- The zeroing of the coredump window is left out. -/
def consysEmiSetup : DeviceM Unit := do
  orErr (failing .ENODEV) "consys-spike: no memory-region" fun _ => []
  orErr (failing .EINVAL) "consys-spike: memory-region unresolved" fun _ => []
  let d ← get
  consysPoke consysEmiMappingPa
    (BitVec.ofNat 32 ((d.emiBase &&& 0xfff00000) >>> 20) ||| consysEmiRemapEn) 0 false 0
    "CONSYS_EMI_MAPPING"
  orErr ioremap "consys-spike: EMI window ioremap failed" fun _ => []

/-- `consys_gate_g2b` up to the exchange over BTIF, which touches neither rail, domain nor clock. -/
def consysGateG2b : DeviceM Unit := do
  consysEmiSetup
  orErr step "consys-spike: no btif clock (%ld)" fun e => [e.ret]
  orErr step "consys-spike: btif clock enable failed (%d)" fun e => [e.ret]
  modify fun d => { d with btifClk := d.btifClk + 1 }
  orErr ioremap "consys-spike: BTIF ioremap failed" fun _ => []
  consysPokeClear apRguSwsysrstPa apRguConnMcuRst apRguKey "AP_RGU_SWSYSRST(release)"

/-- The reads of the chip ID that are left; the last one made counts. -/
def pollChipId : ℕ → BitVec 32 → DeviceM (BitVec 32)
  | 0, id => pure id
  | n + 1, _ => do
    let id ← modifyGet fun d => (d.chipIds.head, { d with chipIds := d.chipIds.tail })
    if id = consysChipIdExpect then pure id else pollChipId n id

/-- Steps 7 and 8. -/
def checkChipId : DeviceM Unit := do
  orErr ioremap "consys-spike: ioremap chip-ID window failed" fun _ => []
  let id ← pollChipId chipIdRetries 0
  if id ≠ consysChipIdExpect then do
    devErr "consys-spike: GATE G2A FAIL - chip ID %#x (want %#x)" [id.toNat, consysChipIdExpect.toNat]
    throw .ENODEV
  else modify fun d => { d with
    regs := Function.update d.regs consysMcuAcrPa (d.regs consysMcuAcrPa ||| consysMcuAcrMbist) }

/-- Steps 6 to 8, under the labels `err_rpm` and `err_domain`. -/
def powerConn : DeviceM Unit := do
  pmRuntimeEnable
  unwinding (do
    orErr pmRuntimeResumeAndGet "consys-spike: CONN domain power-on failed (%d)" fun e => [e.ret]
    unwinding checkChipId pmRuntimePutSync) pmRuntimeDisable

/-- Steps 3 to 8. -/
def powerUp : DeviceM Unit := do
  consysPoke conn2apSleepMaskPa conn2apSleepMaskBit 0 false 0 "CONN2AP_SLEEP_MASK"
  consysPoke apRguSwsysrstPa apRguConnMcuRst apRguKey false 0 "AP_RGU_SWSYSRST"
  consysPoke spmPwronConfgEnPa 0 0 true spmPwronConfgEnVal "SPM_PWRON_CONFG_EN"
  powerConn

/-- Steps 2 to 8, under the labels `err_vcn28` and `err_vcn18`. -/
def probeRails : DeviceM Unit :=
  orErr (unwinding (do
    orErr (regulatorEnable .vcn28) "consys-spike: VCN28 enable failed (%d)" fun e => [e.ret]
    unwinding powerUp (regulatorDisable .vcn28)) (regulatorDisable .vcn18))
    "consys-spike: probe failed (%d) - sequence rolled back" fun e => [e.ret]

/-- `mtk_consys_spike_probe`; what the gate returns does not matter to it. -/
def mtkConsysSpikeProbe : DeviceM Unit := do
  orErrProbe step "no vcn18"
  orErrProbe step "no vcn28"
  orErrProbe (regulatorEnable .vcn18) "VCN18 enable failed"
  probeRails
  let _ ← attempt consysGateG2b

/-! ### Binding and unbinding -/

/-- `platform_probe`. -/
def platformProbe : DeviceM Unit := do
  devPmDomainAttach
  unwinding mtkConsysSpikeProbe devPmDomainDetach
  modify fun d => { d with bound := true }

/-- What happens to the device: a bind, an unbind, or a domain without a device is powered off. -/
inductive Action where
  | bind | unbind | powerOff
  deriving DecidableEq

def act : Action → DeviceM Unit
  | .bind => do
    let d ← get
    if d.bound then pure ()
    else do
      let _ ← attempt platformProbe
  | .unbind => do
    let d ← get
    if d.bound then do
      devPmDomainDetach
      modify fun d => { d with bound := false }
    else pure ()
  | .powerOff => do
    let d ← get
    if d.bound then pure () else change fun d => { d with conn := false }

def run : List Action → DeviceM Unit
  | [] => pure ()
  | a :: as => do
    act a
    run as

/-- From the registration of the CONN domain on. -/
def boot (as : List Action) : DeviceM Unit := do
  mtkRegisterPowerDomain connCaps
  run as

/-! ### The record grows -/

section Grows

variable {α : Type} {p : DeviceM α}

theorem change_grows (f : Device → Device) : Within (Appends Device.seen) (change f) :=
  fun _ => List.prefix_append _ _

theorem modify_grows {f : Device → Device} (h : ∀ d, (f d).seen = d.seen) :
    Within (Appends Device.seen) (modify f : DeviceM PUnit) := fun d => by
  rw [finalState_modify, Appends, h]

theorem step_grows : Within (Appends Device.seen) step :=
  .bind (fun _ => List.prefix_rfl) fun r => .ofExcept r

theorem failing_grows (err : Errno) : Within (Appends Device.seen) (failing err) := by
  refine .bind (.attempt step_grows) fun r => ?_
  rcases r with e | _
  · exact .throw _
  · exact .pure _

theorem orErr_grows (hp : Within (Appends Device.seen) p) (fmt : String) (args : Errno → List ℤ) :
    Within (Appends Device.seen) (orErr p fmt args) := .onError hp fun _ => modify_grows fun _ => rfl

theorem orErrProbe_grows (hp : Within (Appends Device.seen) p) (fmt : String) :
    Within (Appends Device.seen) (orErrProbe p fmt) := by
  refine .onError hp fun e => ?_
  rw [devErrProbe]
  split_ifs
  · exact .pure _
  · exact modify_grows fun _ => rfl

theorem unwinding_grows {undo : DeviceM Unit} (hp : Within (Appends Device.seen) p)
    (hundo : Within (Appends Device.seen) undo) : Within (Appends Device.seen) (unwinding p undo) :=
  .onError hp fun _ => hundo

end Grows

theorem regulatorEnable_grows (s : Supply) : Within (Appends Device.seen) (regulatorEnable s) :=
  .bind step_grows fun _ => change_grows _

theorem domainLetOff_grows : Within (Appends Device.seen) domainLetOff := by
  refine .bind (fun _ => List.prefix_rfl) fun off => ?_
  split_ifs
  · exact change_grows _
  · exact .pure _

theorem pmRuntimeResumeAndGet_grows : Within (Appends Device.seen) pmRuntimeResumeAndGet := by
  refine .bind .get fun d => ?_
  split_ifs
  · exact .throw _
  · exact modify_grows fun _ => rfl
  · exact .bind step_grows fun _ => .bind (change_grows _) fun _ => modify_grows fun _ => rfl

theorem pmRuntimePutSync_grows : Within (Appends Device.seen) pmRuntimePutSync := by
  refine .bind (modify_grows fun _ => rfl) fun _ => .bind .get fun d => ?_
  split_ifs
  · exact .bind (modify_grows fun _ => rfl) fun _ => domainLetOff_grows
  · exact .pure _

theorem consysPoke_grows (pa : ℕ) (setBits key : BitVec 32) (overwrite : Bool) (value : BitVec 32)
    (what : String) :
    Within (Appends Device.seen) (consysPoke pa setBits key overwrite value what) :=
  .bind (orErr_grows (failing_grows _) _ _) fun _ => modify_grows fun _ => rfl

theorem consysGateG2b_grows : Within (Appends Device.seen) consysGateG2b :=
  .bind (.bind (orErr_grows (failing_grows _) _ _) fun _ =>
      .bind (orErr_grows (failing_grows _) _ _) fun _ => .bind .get fun _ =>
      .bind (consysPoke_grows _ _ _ _ _ _) fun _ => orErr_grows (failing_grows _) _ _) fun _ =>
    .bind (orErr_grows step_grows _ _) fun _ => .bind (orErr_grows step_grows _ _) fun _ =>
    .bind (modify_grows fun _ => rfl) fun _ => .bind (orErr_grows (failing_grows _) _ _) fun _ =>
    .bind (orErr_grows (failing_grows _) _ _) fun _ => modify_grows fun _ => rfl

theorem pollChipId_grows : ∀ (n : ℕ) (id : BitVec 32),
    Within (Appends Device.seen) (pollChipId n id) := by
  intro n
  induction n with
  | zero =>
    intro id
    exact .pure _
  | succ n ih =>
    intro _
    refine .bind (fun _ => List.prefix_rfl) fun id => ?_
    split_ifs
    · exact .pure _
    · exact ih id

theorem checkChipId_grows : Within (Appends Device.seen) checkChipId := by
  refine .bind (orErr_grows (failing_grows _) _ _) fun _ => .bind (pollChipId_grows _ _) fun id => ?_
  split_ifs
  · exact .bind (modify_grows fun _ => rfl) fun _ => .throw _
  · exact modify_grows fun _ => rfl

theorem powerUp_grows : Within (Appends Device.seen) powerUp :=
  .bind (consysPoke_grows _ _ _ _ _ _) fun _ => .bind (consysPoke_grows _ _ _ _ _ _) fun _ =>
    .bind (consysPoke_grows _ _ _ _ _ _) fun _ => .bind (modify_grows fun _ => rfl) fun _ =>
    unwinding_grows (.bind (orErr_grows pmRuntimeResumeAndGet_grows _ _) fun _ =>
      unwinding_grows checkChipId_grows pmRuntimePutSync_grows) (modify_grows fun _ => rfl)

theorem mtkConsysSpikeProbe_grows : Within (Appends Device.seen) mtkConsysSpikeProbe :=
  .bind (orErrProbe_grows step_grows _) fun _ => .bind (orErrProbe_grows step_grows _) fun _ =>
    .bind (orErrProbe_grows (regulatorEnable_grows _) _) fun _ =>
    .bind (orErr_grows (unwinding_grows (.bind (orErr_grows (regulatorEnable_grows _) _ _) fun _ =>
      unwinding_grows powerUp_grows (change_grows _)) (change_grows _)) _ _) fun _ =>
    .bind (.attempt consysGateG2b_grows) fun _ => .pure _

theorem devPmDomainAttach_grows : Within (Appends Device.seen) devPmDomainAttach :=
  .bind (fun _ => List.prefix_rfl) fun r => .bind (.ofExcept r) fun _ => change_grows _

/-- What `platform_probe` goes on with when the domain is attached. -/
theorem attached_grows : Within (Appends Device.seen)
    (do unwinding mtkConsysSpikeProbe devPmDomainDetach; modify fun d => { d with bound := true }) :=
  .bind (unwinding_grows mtkConsysSpikeProbe_grows domainLetOff_grows) fun _ =>
    modify_grows fun _ => rfl

theorem act_grows : ∀ a : Action, Within (Appends Device.seen) (act a)
  | .bind => by
      refine .bind .get fun d => ?_
      split_ifs
      · exact .pure _
      · exact .bind (.attempt (.bind devPmDomainAttach_grows fun _ => attached_grows)) fun _ => .pure _
  | .unbind => by
      refine .bind .get fun d => ?_
      split_ifs
      · exact .bind domainLetOff_grows fun _ => modify_grows fun _ => rfl
      · exact .pure _
  | .powerOff => by
      refine .bind .get fun d => ?_
      split_ifs
      · exact .pure _
      · exact change_grows _

theorem run_grows : ∀ as : List Action, Within (Appends Device.seen) (run as)
  | [] => .pure _
  | a :: as => .bind (act_grows a) fun _ => run_grows as

/-! ### The order of the rails and the domain -/

/-- In every state gone through the domain is powered only if VCN18 is enabled. -/
def Ordered (d : Device) : Prop := ∀ r ∈ d.seen, r.conn = true → 0 < r.vcn18

/-- No driver is bound, VCN18 and the domain are off, and so far all was in order. -/
structure Off (d : Device) : Prop where
  vcn18 : d.enables .vcn18 = 0
  conn : d.conn = false
  unbound : d.bound = false
  ordered : Ordered d

theorem devPmDomainDetach_ok (d : Device) : outcome devPmDomainDetach d = .ok () := by
  rw [devPmDomainDetach, domainLetOff, outcome_bind_ok _ (outcome_modifyGet _ d)]
  split_ifs <;> rfl

/-- The driver core takes a failed probe as it is. -/
theorem act_ok (a : Action) (d : Device) : outcome (act a) d = .ok () := by
  cases a with
  | bind =>
    rw [act, outcome_bind_ok _ (outcome_get d)]
    split_ifs
    · rfl
    · rw [outcome_bind_ok _ (outcome_attempt _ _)]
      rfl
  | unbind =>
    rw [act, outcome_bind_ok _ (outcome_get d)]
    split_ifs
    · rw [outcome_bind_ok _ (devPmDomainDetach_ok _)]
      rfl
    · rfl
  | powerOff =>
    rw [act, outcome_bind_ok _ (outcome_get d)]
    split_ifs <;> rfl

theorem act_unbind_off {d : Device} (h : Off d) : finalState (act .unbind) d = d := by
  rw [act, finalState_bind_ok _ (outcome_get d), if_neg (by rw [h.unbound]; decide)]
  rfl

theorem act_powerOff_off {d : Device} (h : Off d) : Off (finalState (act .powerOff) d) ∧
    (finalState (act .powerOff) d).attaches = d.attaches := by
  obtain ⟨hvcn18, -, hunbound, hordered⟩ := h
  rw [act, finalState_bind_ok _ (outcome_get d), if_neg (by rw [hunbound]; decide)]
  refine ⟨⟨hvcn18, rfl, hunbound, fun r hr hconn => ?_⟩, rfl⟩
  rcases List.mem_append.mp hr with hr | hr
  · exact hordered r hr hconn
  · rw [List.mem_singleton.mp hr] at hconn
    exact absurd hconn Bool.false_ne_true

theorem finalState_act_bind {d : Device} (h : d.bound = false) :
    finalState (act .bind) d = finalState platformProbe d := by
  rw [act, finalState_bind_ok _ (outcome_get d), if_neg (by rw [h]; decide),
    finalState_bind_ok _ (outcome_attempt _ _), finalState_attempt]
  rfl

/-- A bind whose attach fails does not get to the probe. -/
theorem act_bind_off {d : Device} {e : Errno} (h : Off d) (he : d.attaches.head = .error e) :
    Off (finalState (act .bind) d) ∧ (finalState (act .bind) d).attaches = d.attaches.tail := by
  have hout : outcome devPmDomainAttach d = .error e := by
    rw [devPmDomainAttach, outcome_bind_ok _ (outcome_modifyGet _ d), he]
    rfl
  have hstate : finalState devPmDomainAttach d = { d with attaches := d.attaches.tail } := by
    rw [devPmDomainAttach, finalState_bind_ok _ (outcome_modifyGet _ d), he]
    rfl
  rw [finalState_act_bind h.unbound, platformProbe, finalState_bind_error _ hout, hstate]
  exact ⟨⟨h.vcn18, h.conn, h.unbound, h.ordered⟩, rfl⟩

/-- One whose attach succeeds powers the domain on while VCN18 is off. -/
theorem act_bind_attached {d : Device} (h : Off d) (hok : d.attaches.head = .ok ()) :
    ¬ Ordered (finalState (act .bind) d) := by
  have hattach : (finalState devPmDomainAttach d).seen = d.seen ++ [⟨d.enables .vcn18, true⟩] := by
    rw [devPmDomainAttach, finalState_bind_ok _ (outcome_modifyGet _ d), hok]
    rfl
  have hgrows : Appends Device.seen (finalState devPmDomainAttach d) (finalState platformProbe d) :=
    Within.tail (fun _ => attached_grows) _ d
  rw [finalState_act_bind h.unbound]
  intro hordered
  have hmem : (⟨0, true⟩ : Rails) ∈ (finalState platformProbe d).seen :=
    hgrows.subset (by rw [hattach, h.vcn18]; exact List.mem_append_right _ (List.mem_singleton.mpr rfl))
  exact absurd (hordered _ hmem rfl) (Nat.lt_irrefl 0)

theorem run_ordered_iff : ∀ (as : List Action) {d : Device}, Off d →
    (Ordered (finalState (run as) d) ↔
      ∀ k < as.count .bind, ∃ e, d.attaches.get k = .error e)
  | [], d, h => ⟨fun _ k hk => absurd hk (Nat.not_lt_zero k), fun _ => h.ordered⟩
  | .unbind :: as, d, h => by
      rw [run, finalState_bind_ok _ (act_ok _ d), act_unbind_off h, run_ordered_iff as h,
        List.count_cons_of_ne (by decide)]
  | .powerOff :: as, d, h => by
      obtain ⟨hoff, hattaches⟩ := act_powerOff_off h
      rw [run, finalState_bind_ok _ (act_ok _ d), run_ordered_iff as hoff, hattaches,
        List.count_cons_of_ne (by decide)]
  | .bind :: as, d, h => by
      rw [run, finalState_bind_ok _ (act_ok _ d), List.count_cons_self]
      rcases hhead : d.attaches.head with e | u
      · obtain ⟨hoff, hattaches⟩ := act_bind_off h hhead
        rw [run_ordered_iff as hoff, hattaches]
        refine ⟨?_, fun hall k hk => hall (k + 1) (Nat.succ_lt_succ hk)⟩
        intro hall k hk
        cases k with
        | zero => exact ⟨e, hhead⟩
        | succ k => exact hall k (Nat.lt_of_succ_lt_succ hk)
      · have hbad := act_bind_attached h hhead
        refine ⟨fun hordered => absurd ((run_grows as _).forall hordered) hbad, ?_⟩
        intro hall
        obtain ⟨e, he⟩ := hall 0 (Nat.succ_pos _)
        exact absurd (he.symm.trans hhead) (by simp)

/-- The domain is registered off, so that the run begins in order. -/
theorem register_off (d : Device) : finalState (mtkRegisterPowerDomain connCaps) d = d := by
  rw [mtkRegisterPowerDomain, if_pos (by decide)]
  rfl

/-- From VCN18 and the domain off, over any binds and unbinds and whatever the probes return, the domain
    is powered only while VCN18 is enabled exactly if every bind fails to attach it. -/
theorem conn_after_vcn18_iff {d : Device} (h : Off d) (as : List Action) :
    Ordered (finalState (boot as) d) ↔
      ∀ k < as.count .bind, ∃ e, d.attaches.get k = .error e := by
  have hreg : outcome (mtkRegisterPowerDomain connCaps) d = .ok () := by
    rw [mtkRegisterPowerDomain, if_pos (by decide)]
    rfl
  rw [boot, finalState_bind_ok _ hreg, register_off d]
  exact run_ordered_iff as h

/-- The system before its first bind, with a chip that answers and nothing that fails. -/
def poweredOff : Device where
  enables := fun _ => 0
  regs := fun _ => 0
  conn := false
  usage := 0
  disableDepth := 1
  active := false
  btifClk := 0
  bound := false
  emiBase := 0xbfe00000
  steps := Stream'.const (.ok ())
  attaches := Stream'.const (.ok ())
  chipIds := Stream'.const consysChipIdExpect
  powersOff := Stream'.const true
  seen := []
  log := []

theorem poweredOff_off : Off poweredOff := ⟨rfl, rfl, rfl, fun _ hr => absurd hr List.not_mem_nil⟩

theorem conn_after_vcn18_iff_rebind : Ordered (finalState (boot [.bind, .unbind, .bind]) poweredOff) ↔
    ∀ k < [Action.bind, .unbind, .bind].count .bind, ∃ e, poweredOff.attaches.get k = .error e :=
  conn_after_vcn18_iff poweredOff_off [.bind, .unbind, .bind]

theorem conn_on_before_vcn18 : Off poweredOff ∧ (finalState (boot [.bind]) poweredOff).bound = true ∧
    ¬ Ordered (finalState (boot [.bind]) poweredOff) := by
  have hseen : (⟨0, true⟩ : Rails) ∈ (finalState (boot [.bind]) poweredOff).seen := by decide +kernel
  exact ⟨poweredOff_off, by decide +kernel, fun hordered => absurd (hordered _ hseen rfl) (by decide)⟩

end GeminiLinux.Consys
