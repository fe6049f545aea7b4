import GeminiLinux.Kernel.Regmap
import GeminiLinux.Lib.Runs

/-! The LDOs of the MT6351 PMIC that feed CONSYS and the SD slot. Three of them have to be set up before
    they are switched on: VCN28 is put under hardware control, VMCH and VMC are set to 3.0 V. The driver does
    this in `ops.enable`, and the regulator core calls that for the first user of a rail that is off.

        regulator_enable ──first user──▶ ops.is_enabled ──off──▶ ops.enable: setup, then EN
                                              │ on
                                              └──▶ counted, and that is all

    The consumers of a rail are numbered; the core counts what each has enabled, and the users of the
    rail. -/

namespace GeminiLinux.Mt6351
open Prog Regmap Runs

/-! ### Registers and rails -/

def ldoVcn28Con0 : ℕ := 0x0a0c
def ldoVcn18Con0 : ℕ := 0x0a52
def ldoVcn33Con3 : ℕ := 0x0a98
def ldoVcn33Con4 : ℕ := 0x0a9a
def ldoVmchCon0 : ℕ := 0x0a2e
def ldoVmcCon0 : ℕ := 0x0aaa

def vmchAnaCon0 : ℕ := 0x0ace
def vmcAnaCon0 : ℕ := 0x0ae2
def vmchVoselMask : BitVec 16 := 0x1 <<< 8
def vmchVosel3V0 : BitVec 16 := 0x0 <<< 8
def vmcVoselMask : BitVec 16 := 0x7 <<< 8
def vmcVosel3V0 : BitVec 16 := 0x6 <<< 8

def ldoEn : BitVec 16 := BitVec.twoPow 16 1
def ldoOnCtrl : BitVec 16 := BitVec.twoPow 16 3

/-- `MT6351_ID_*`. -/
inductive Id where
  | vcn18 | vcn28 | vcn33Bt | vcn33Wifi | vmch | vmc
  deriving DecidableEq

structure RegulatorDesc where
  name : String
  fixedUV : ℕ
  enableReg : ℕ
  enableMask : BitVec 16

/-- `MT6351_LDO_FIXED`. -/
def ldoFixed (name : String) (fixedUV enableReg : ℕ) : RegulatorDesc :=
  { name, fixedUV, enableReg, enableMask := ldoEn }

/-- `mt6351_regulators`. -/
def regulators : Id → RegulatorDesc
  | .vcn18 => ldoFixed "vcn18" 1800000 ldoVcn18Con0
  | .vcn28 => ldoFixed "vcn28" 2800000 ldoVcn28Con0
  | .vcn33Bt => ldoFixed "vcn33_bt" 3300000 ldoVcn33Con3
  | .vcn33Wifi => ldoFixed "vcn33_wifi" 3300000 ldoVcn33Con4
  | .vmch => ldoFixed "vmch" 3000000 ldoVmchCon0
  | .vmc => ldoFixed "vmc" 3000000 ldoVmcCon0

/-! ### The operations of the driver -/

/-- The PMIC, and what the core counts: the users of each rail, and what each consumer has enabled. -/
structure Pmic where
  map : Map 16
  useCount : Id → ℕ
  enableCount : Id → ℕ → ℕ

abbrev PmicM := EStateM Errno Pmic

/-- The PMIC wrapper has no register cache. -/
def cached (_ : ℕ) : Bool := false

def onMap {α : Type} (p : MapM 16 α) : PmicM α := zoom Pmic.map (fun map pmic => { pmic with map }) p

def regulatorEnableRegmap (id : Id) : PmicM Unit :=
  onMap (regmapUpdateBits cached (regulators id).enableReg (regulators id).enableMask
    (regulators id).enableMask)

def regulatorDisableRegmap (id : Id) : PmicM Unit :=
  onMap (regmapUpdateBits cached (regulators id).enableReg (regulators id).enableMask 0)

def regulatorIsEnabledRegmap (id : Id) : PmicM Bool := do
  let val ← onMap (regmapRead cached (regulators id).enableReg)
  pure (decide (val &&& (regulators id).enableMask ≠ 0))

/-- The `switch` of `mt6351_ldo_enable`. -/
def ldoSetup : Id → PmicM Unit
  | .vcn28 => onMap (regmapUpdateBits cached ldoVcn28Con0 ldoOnCtrl ldoOnCtrl)
  | .vmch => onMap (regmapUpdateBits cached vmchAnaCon0 vmchVoselMask vmchVosel3V0)
  | .vmc => onMap (regmapUpdateBits cached vmcAnaCon0 vmcVoselMask vmcVosel3V0)
  | .vcn18 | .vcn33Bt | .vcn33Wifi => pure ()

def ldoEnable (id : Id) : PmicM Unit := do
  ldoSetup id
  regulatorEnableRegmap id

/-! ### The regulator core -/

def countEnable (id : Id) (f : ℕ → ℕ) (consumer : ℕ) : PmicM Unit := modify fun pmic => { pmic with
  enableCount := Function.update pmic.enableCount id
    (Function.update (pmic.enableCount id) consumer (f (pmic.enableCount id consumer))) }

def countUse (id : Id) (f : ℕ → ℕ) : PmicM Unit := modify fun pmic => { pmic with
  useCount := Function.update pmic.useCount id (f (pmic.useCount id)) }

/-- A status that cannot be read fails the enable. -/
def regulatorEnable (id : Id) (consumer : ℕ) : PmicM Unit := do
  countEnable id (· + 1) consumer
  if (← get).useCount id = 0 then
    onError (do
      if ← regulatorIsEnabledRegmap id then pure ()
      else ldoEnable id) fun _ => countEnable id (· - 1) consumer
  else pure ()
  if (← get).enableCount id consumer = 1 then countUse id (· + 1) else pure ()

/-- `-EIO` for a disable that no enable stands against. -/
def regulatorDisable (id : Id) (consumer : ℕ) : PmicM Unit := do
  let pmic ← get
  if pmic.enableCount id consumer = 0 then throw (.other 5)
  else do
    if pmic.enableCount id consumer = 1 then do
      if pmic.useCount id = 1 then do
        regulatorDisableRegmap id
        countUse id fun _ => 0
      else if 1 < pmic.useCount id then countUse id (· - 1) else pure ()
    else pure ()
    countEnable id (· - 1) consumer

/-! ### Runs -/

inductive Call where
  | enable (id : Id) (consumer : ℕ)
  | disable (id : Id) (consumer : ℕ)
  deriving DecidableEq

def Call.prog : Call → PmicM Unit
  | .enable id consumer => regulatorEnable id consumer
  | .disable id consumer => regulatorDisable id consumer

def callStep (pmic : Pmic) (c : Call) : Pmic := finalState c.prog pmic

def Enabled (regs : ℕ → BitVec 16) (id : Id) : Prop :=
  regs (regulators id).enableReg &&& (regulators id).enableMask ≠ 0

/-- What the consumer of a rail relies on besides that it is on. -/
def SetupHolds (regs : ℕ → BitVec 16) : Id → Prop
  | .vcn28 => regs ldoVcn28Con0 &&& ldoOnCtrl = ldoOnCtrl
  | .vmch => regs vmchAnaCon0 &&& vmchVoselMask = vmchVosel3V0
  | .vmc => regs vmcAnaCon0 &&& vmcVoselMask = vmcVosel3V0
  | .vcn18 | .vcn33Bt | .vcn33Wifi => True

/-- A rail that a consumer has enabled, and has not disabled since, is on and set up. -/
def Relied (pmic : Pmic) : Prop :=
  ∀ id consumer, 0 < pmic.enableCount id consumer →
    Enabled pmic.map.regs id ∧ SetupHolds pmic.map.regs id

/-- The PMIC as the bootloader has left it, and nobody has enabled anything yet. -/
structure Booted (pmic : Pmic) : Prop where
  cache : pmic.map.cache = fun _ => none
  useCount : ∀ id, pmic.useCount id = 0
  enableCount : ∀ id consumer, pmic.enableCount id consumer = 0

/-- What the core does before it calls `ops.enable`. -/
def askStatus (id : Id) (consumer : ℕ) : PmicM Bool := do
  countEnable id (· + 1) consumer
  regulatorIsEnabledRegmap id

/-- If the write of the setup fails, so does the enable, with its error, and EN stays as it is. -/
def FailsCleanly (pmic : Pmic) : Call → Prop
  | .enable id consumer => ∀ e, pmic.useCount id = 0 → outcome (askStatus id consumer) pmic = .ok false →
      outcome (ldoSetup id) (finalState (askStatus id consumer) pmic) = .error e →
        outcome (regulatorEnable id consumer) pmic = .error e ∧
          (Enabled (finalState (regulatorEnable id consumer) pmic).map.regs id ↔ Enabled pmic.map.regs id)
  | .disable _ _ => True

/-- The first user of a rail that is found to be on finds it set up as well. -/
def FoundSetUp (pmic : Pmic) : Call → Prop
  | .enable id _ => pmic.useCount id = 0 → pmic.map.xfers.head = .ok () → Enabled pmic.map.regs id →
      SetupHolds pmic.map.regs id
  | .disable _ _ => True

/-! ### Counting users -/

/-- `n` consumers have a count that is not zero. -/
def Users (count : ℕ → ℕ) (n : ℕ) : Prop := ∃ users :
    Finset ℕ, (∀ c, c ∈ users ↔ 0 < count c) ∧ users.card = n

section Users

variable {count : ℕ → ℕ} {n c : ℕ}

theorem Users.pos (h : Users count n) (hc : 0 < count c) : 0 < n := by
  obtain ⟨users, husers, rfl⟩ := h
  exact Finset.card_pos.mpr ⟨c, (husers c).mpr hc⟩

theorem Users.first (h : Users count n) (hc : count c = 0) :
    Users (Function.update count c (count c + 1)) (n + 1) := by
  obtain ⟨users, husers, rfl⟩ := h
  have hnew : c ∉ users := fun hmem => absurd ((husers c).mp hmem) (by omega)
  refine ⟨insert c users, ?_, Finset.card_insert_of_notMem hnew⟩
  intro c'
  rw [Finset.mem_insert, husers]
  by_cases hcc : c' = c
  · simp [hcc]
  · simp [hcc]

/-- A count that was not zero and is not zero afterwards leaves the users as they are. -/
theorem Users.again (h : Users count n) (hc : 0 < count c) {k : ℕ} (hk : 0 < k) :
    Users (Function.update count c k) n := by
  obtain ⟨users, husers, rfl⟩ := h
  refine ⟨users, ?_, rfl⟩
  intro c'
  rw [husers]
  by_cases hcc : c' = c
  · simp [hcc, hc, hk]
  · simp [hcc]

theorem Users.last (h : Users count n) (hc : 0 < count c) : Users (Function.update count c 0) (n - 1) := by
  obtain ⟨users, husers, rfl⟩ := h
  refine ⟨users.erase c, ?_, Finset.card_erase_of_mem ((husers c).mpr hc)⟩
  intro c'
  rw [Finset.mem_erase, husers]
  by_cases hcc : c' = c
  · simp [hcc]
  · simp [hcc]

end Users

/-! ### Registers of the rails -/

/-- The registers that the operations on a rail change. -/
def railRegs : Id → List ℕ
  | .vmch => [ldoVmchCon0, vmchAnaCon0]
  | .vmc => [ldoVmcCon0, vmcAnaCon0]
  | id => [(regulators id).enableReg]

theorem railRegs_disjoint {id id' : Id} (h : id' ≠ id) : (railRegs id').Disjoint (railRegs id) := by
  revert h
  cases id <;> cases id' <;> simp [railRegs, regulators, ldoFixed, List.Disjoint] <;> decide

/-- The registers of all rails but one are as they were. -/
def OnlyRail (id : Id) (regs regs' : ℕ → BitVec 16) : Prop := ∀ reg ∉ railRegs id, regs' reg = regs reg

section Regs

variable {regs regs' : ℕ → BitVec 16} {id id' : Id}

theorem OnlyRail.refl : OnlyRail id regs regs := fun _ _ => rfl

theorem OnlyRail.updated (h : OnlyRail id regs regs') {reg : ℕ} (hreg : reg ∈ railRegs id)
    (mask val : BitVec 16) : OnlyRail id regs (updated regs' reg mask val) := by
  intro reg' hreg'
  have hne : reg' ≠ reg := fun heq => hreg' (heq ▸ hreg)
  rw [Regmap.updated, Function.update_of_ne hne, h reg' hreg']

theorem enableReg_mem (id : Id) : (regulators id).enableReg ∈ railRegs id := by cases id <;> decide

/-- Whether a rail is on and set up is in its own registers. -/
theorem onAndSetUp_congr (h : ∀ reg ∈ railRegs id, regs' reg = regs reg) :
    (Enabled regs' id ↔ Enabled regs id) ∧ (SetupHolds regs' id ↔ SetupHolds regs id) := by
  refine ⟨by rw [Enabled, Enabled, h _ (enableReg_mem id)], ?_⟩
  cases id with
  | vcn28 => rw [SetupHolds, SetupHolds, h ldoVcn28Con0 (by decide)]
  | vmch => rw [SetupHolds, SetupHolds, h vmchAnaCon0 (by decide)]
  | vmc => rw [SetupHolds, SetupHolds, h vmcAnaCon0 (by decide)]
  | vcn18 | vcn33Bt | vcn33Wifi => exact Iff.rfl

theorem OnlyRail.others (h : OnlyRail id regs regs') (hne : id' ≠ id) :
    (Enabled regs' id' ↔ Enabled regs id') ∧ (SetupHolds regs' id' ↔ SetupHolds regs id') :=
  onAndSetUp_congr fun reg hreg => h reg fun hmem => railRegs_disjoint hne hreg hmem

/-- The registers after the setup of a rail. -/
def setupRegs (regs : ℕ → BitVec 16) : Id → ℕ → BitVec 16
  | .vcn28 => updated regs ldoVcn28Con0 ldoOnCtrl ldoOnCtrl
  | .vmch => updated regs vmchAnaCon0 vmchVoselMask vmchVosel3V0
  | .vmc => updated regs vmcAnaCon0 vmcVoselMask vmcVosel3V0
  | .vcn18 | .vcn33Bt | .vcn33Wifi => regs

/-- The registers with a rail switched on or off. -/
def switchRegs (regs : ℕ → BitVec 16) (id : Id) (val : BitVec 16) : ℕ → BitVec 16 :=
  updated regs (regulators id).enableReg (regulators id).enableMask val

theorem onlyRail_setupRegs (regs : ℕ → BitVec 16) (id : Id) : OnlyRail id regs (setupRegs regs id) := by
  cases id with
  | vcn28 => exact OnlyRail.refl.updated (by decide) _ _
  | vmch => exact OnlyRail.refl.updated (by decide) _ _
  | vmc => exact OnlyRail.refl.updated (by decide) _ _
  | vcn18 | vcn33Bt | vcn33Wifi => exact OnlyRail.refl

theorem OnlyRail.switch (h : OnlyRail id regs regs') (val : BitVec 16) :
    OnlyRail id regs (switchRegs regs' id val) := h.updated (enableReg_mem id) _ _

theorem setupHolds_setupRegs (regs : ℕ → BitVec 16) (id : Id) : SetupHolds (setupRegs regs id) id := by
  cases id with
  | vcn28 | vmch | vmc =>
    unfold SetupHolds setupRegs updated
    simp only [Function.update_self, updateBits_and_self]
    decide
  | vcn18 | vcn33Bt | vcn33Wifi => trivial

/-- The setup does not touch EN, which for VCN28 is in the same register. -/
theorem enabled_setupRegs (regs : ℕ → BitVec 16) (id : Id) :
    Enabled (setupRegs regs id) id ↔ Enabled regs id := by
  cases id with
  | vcn28 =>
    unfold Enabled setupRegs updated
    simp only [regulators, ldoFixed, Function.update_self]
    rw [updateBits_and_of_disjoint (by decide)]
  | vmch | vmc =>
    rw [Enabled, setupRegs, updated, Function.update_of_ne (by decide), Enabled]
  | vcn18 | vcn33Bt | vcn33Wifi => exact Iff.rfl

theorem enabled_switch_on (regs : ℕ → BitVec 16) (id : Id) :
    Enabled (switchRegs regs id (regulators id).enableMask) id := by
  unfold Enabled switchRegs updated
  rw [Function.update_self, updateBits_and_self, BitVec.and_self]
  cases id <;> decide

/-- Nor does EN touch the setup. -/
theorem setupHolds_switch (regs : ℕ → BitVec 16) (id : Id) (val : BitVec 16) :
    SetupHolds (switchRegs regs id val) id ↔ SetupHolds regs id := by
  cases id with
  | vcn28 =>
    unfold SetupHolds switchRegs updated
    simp only [regulators, ldoFixed, Function.update_self]
    rw [updateBits_and_of_disjoint (by decide)]
  | vmch | vmc =>
    rw [SetupHolds, switchRegs, updated, Function.update_of_ne (by decide), SetupHolds]
  | vcn18 | vcn33Bt | vcn33Wifi => exact Iff.rfl

end Regs

/-! ### What the operations do -/

theorem cached_eq (reg : ℕ) : cached reg = false := rfl

/-- The registers hold `regs`, and the counts are `use` and `counts`. -/
structure At (regs : ℕ → BitVec 16) (use : Id → ℕ) (counts : Id → ℕ → ℕ) (pmic : Pmic) : Prop where
  map : Bare regs pmic.map
  useCount : pmic.useCount = use
  enableCount : pmic.enableCount = counts

/-- The counts with one consumer's count of a rail changed. -/
def counted (counts : Id → ℕ → ℕ) (id : Id) (consumer n : ℕ) : Id → ℕ → ℕ :=
  Function.update counts id (Function.update (counts id) consumer n)

section Ops

variable {regs : ℕ → BitVec 16} {use : Id → ℕ} {counts : Id → ℕ → ℕ} {id : Id} {consumer : ℕ}

theorem counted_self (n : ℕ) : counted counts id consumer n id consumer = n := by
  rw [counted, Function.update_self, Function.update_self]

theorem counted_counted (n n' : ℕ) :
    counted (counted counts id consumer n) id consumer n' = counted counts id consumer n' := by
  rw [counted, counted, Function.update_self, Function.update_idem, Function.update_idem, counted]

theorem counted_eq : counted counts id consumer (counts id consumer) = counts := by
  rw [counted, Function.update_eq_self, Function.update_eq_self]

theorem countEnable_at (f : ℕ → ℕ) : Ends (At regs use counts) (countEnable id f consumer)
    (fun _ => At regs use (counted counts id consumer (f (counts id consumer)))) fun _ _ => False :=
  .modify fun pmic h => ⟨h.map, h.useCount, by rw [h.enableCount, counted]⟩

theorem countUse_at (f : ℕ → ℕ) : Ends (At regs use counts) (countUse id f)
    (fun _ => At regs (Function.update use id (f (use id))) counts) fun _ _ => False :=
  .modify fun pmic h => ⟨h.map, by rw [h.useCount], h.enableCount⟩

theorem updateBits_at (reg : ℕ) (mask val : BitVec 16) :
    Ends (At regs use counts) (onMap (regmapUpdateBits cached reg mask val))
      (fun _ => At (updated regs reg mask val) use counts) fun _ => At regs use counts :=
  .zoom (regmapUpdateBits_bare cached_eq reg mask val) (fun _ h => h.map)
    (fun _ _ _ h hmap => ⟨hmap, h.useCount, h.enableCount⟩) fun _ _ _ h hmap =>
      ⟨hmap, h.useCount, h.enableCount⟩

theorem ldoSetup_at (id : Id) : Ends (At regs use counts) (ldoSetup id)
    (fun _ => At (setupRegs regs id) use counts) fun _ => At regs use counts := by
  cases id with
  | vcn28 | vmch | vmc => exact updateBits_at _ _ _
  | vcn18 | vcn33Bt | vcn33Wifi => exact .pure fun _ h => h

theorem ldoEnable_at (id : Id) : Ends (At regs use counts) (ldoEnable id)
    (fun _ => At (switchRegs (setupRegs regs id) id (regulators id).enableMask) use counts)
    fun _ pmic => At regs use counts pmic ∨ At (setupRegs regs id) use counts pmic := by
  refine .bind ((ldoSetup_at id).failing fun _ _ h => .inl h) fun _ => ?_
  exact (updateBits_at _ _ _).failing fun _ _ h => .inr h

/-- The status is read with one transfer. -/
theorem isEnabled_at (r : Except Errno Unit) :
    Ends (fun pmic => At regs use counts pmic ∧ pmic.map.xfers.head = r) (regulatorIsEnabledRegmap id)
      (fun on pmic => (on = true ↔ Enabled regs id) ∧ r = .ok () ∧ At regs use counts pmic)
      fun e pmic => r = .error e ∧ At regs use counts pmic := by
  refine .bind (I := fun val pmic => val = regs (regulators id).enableReg ∧ r = .ok () ∧
    At regs use counts pmic)
    ?_ fun val => .pure fun pmic h => ?_
  · intro pmic ⟨h, hr⟩
    unfold onMap zoom
    rw [regmapRead_apply cached_eq h.map.cache, hr]
    rcases r with e | ⟨⟩
    · exact ⟨rfl, ⟨h.map.cache, h.map.regs⟩, h.useCount, h.enableCount⟩
    · exact ⟨congrFun h.map.regs _, rfl, ⟨h.map.cache, h.map.regs⟩, h.useCount, h.enableCount⟩
  · rw [h.1]
    exact ⟨decide_eq_true_iff, h.2⟩

/-- The core with the first user of a rail that is on. -/
theorem whenOn_at (hon : Enabled regs id) (r : Except Errno Unit) :
    Ends (fun pmic => At regs use counts pmic ∧ pmic.map.xfers.head = r)
      (do if ← regulatorIsEnabledRegmap id then pure () else ldoEnable id)
      (fun _ pmic => r = .ok () ∧ At regs use counts pmic) fun e pmic => r = .error e ∧
        At regs use counts pmic := by
  refine .bind (isEnabled_at r) fun on => .of_and fun hstatus =>
    .cases (fun _ => .pure fun _ h => h) fun hoff => ?_
  exact absurd (hstatus.mpr hon) hoff

/-- And with that of one that is off. -/
theorem whenOff_at (hoff : ¬ Enabled regs id) :
    Ends (At regs use counts) (do if ← regulatorIsEnabledRegmap id then pure () else ldoEnable id)
      (fun _ => At (switchRegs (setupRegs regs id) id (regulators id).enableMask) use counts)
      fun _ pmic => At regs use counts pmic ∨ At (setupRegs regs id) use counts pmic := by
  intro pmic h
  refine Ends.bind (P := fun pmic' => At regs use counts pmic' ∧ pmic'.map.xfers.head = pmic.map.xfers.head)
    ((isEnabled_at pmic.map.xfers.head).failing fun _ _ h => .inl h.2)
    (fun on => .of_and fun hstatus => .of_and fun _ => .cases (fun hon => ?_) fun _ =>
      ldoEnable_at id) pmic ⟨h, rfl⟩
  exact absurd (hstatus.mp hon) hoff

/-- The users of a rail after one more enable of a consumer. -/
def usersAfter (use : Id → ℕ) (counts : Id → ℕ → ℕ) (id : Id) (consumer : ℕ) : Id → ℕ :=
  if counts id consumer = 0 then Function.update use id (use id + 1) else use

theorem countFirst_at : Ends (At regs use (counted counts id consumer (counts id consumer + 1)))
    (do if (← get).enableCount id consumer = 1 then countUse id (· + 1) else pure ())
    (fun _ => At regs (usersAfter use counts id consumer)
      (counted counts id consumer (counts id consumer + 1)))
    fun _ _ => False := by
  refine .read fun pmic h => ?_
  rw [h.enableCount, counted_self]
  refine .cases (fun hone => ?_) fun hmore => ?_
  · rw [usersAfter, if_pos (by omega)]
    exact (countUse_at _).starting h
  · rw [usersAfter, if_neg (by omega)]
    exact .pure fun _ heq => heq ▸ h

/-- What the core does with the first user, given what its inner part does. -/
theorem regulatorEnable_first {H : Map 16 → Prop} {C : Prop} {regs' : ℕ → BitVec 16}
    {F : Errno → (ℕ → BitVec 16) → Prop} (huse : use id = 0)
    (hbody : ∀ counts, Ends (fun pmic => At regs use counts pmic ∧ H pmic.map)
      (do if ← regulatorIsEnabledRegmap id then pure () else ldoEnable id)
      (fun _ pmic => C ∧ At regs' use counts pmic) fun e pmic => ∃ regs'', F e regs'' ∧
        At regs'' use counts pmic) :
    Ends (fun pmic => At regs use counts pmic ∧ H pmic.map) (regulatorEnable id consumer)
      (fun _ pmic => C ∧ At regs' (usersAfter use counts id consumer)
        (counted counts id consumer (counts id consumer + 1)) pmic)
      fun e pmic => ∃ regs'', F e regs'' ∧ At regs'' use counts pmic := by
  refine .bind (I := fun _ pmic => At regs use (counted counts id consumer (counts id consumer + 1)) pmic ∧
    H pmic.map) (.modify fun pmic h => ⟨⟨h.1.map, h.1.useCount, by rw [h.1.enableCount, counted]⟩, h.2⟩)
    fun _ => .read fun pmic h => ?_
  rw [h.1.useCount, if_pos huse]
  refine .bind (I := fun _ pmic => C ∧ At regs' use
    (counted counts id consumer (counts id consumer + 1)) pmic)
    (((hbody _).onError fun e => ?_).starting h)
    fun _ => .of_and fun hc => countFirst_at.post (fun _ _ h => ⟨hc, h⟩) fun _ _ h => h.elim
  refine .of_exists fun regs'' => .of_and fun hf => (countEnable_at _).post (fun _ pmic h => ?_)
    fun _ _ h => h.elim
  rw [counted_self, counted_counted, Nat.add_sub_cancel, counted_eq] at h
  exact ⟨regs'', hf, h⟩

/-- What it does with any other user. -/
theorem regulatorEnable_used (huse : use id ≠ 0) : Ends (At regs use counts) (regulatorEnable id consumer)
    (fun _ => At regs (usersAfter use counts id consumer)
      (counted counts id consumer (counts id consumer + 1)))
    fun _ _ => False := by
  refine .bind (countEnable_at _) fun _ => .read fun pmic h => ?_
  rw [h.useCount, if_neg huse]
  exact countFirst_at.starting h

theorem regulatorEnable_on (huse : use id = 0) (hon : Enabled regs id) (r : Except Errno Unit) :
    Ends (fun pmic => At regs use counts pmic ∧ pmic.map.xfers.head = r) (regulatorEnable id consumer)
      (fun _ pmic => r = .ok () ∧ At regs (usersAfter use counts id consumer)
        (counted counts id consumer (counts id consumer + 1)) pmic)
      fun e pmic => ∃ regs', (r = .error e ∧ regs' = regs) ∧ At regs' use counts pmic :=
  regulatorEnable_first (H := fun m => m.xfers.head = r) (F := fun e regs' => r = .error e ∧ regs' = regs)
    huse fun _ => (whenOn_at hon r).failing fun _ _ h => ⟨regs, ⟨h.1, rfl⟩, h.2⟩

theorem regulatorEnable_off (huse : use id = 0) (hoff : ¬ Enabled regs id) :
    Ends (At regs use counts) (regulatorEnable id consumer)
      (fun _ => At (switchRegs (setupRegs regs id) id (regulators id).enableMask)
        (usersAfter use counts id consumer) (counted counts id consumer (counts id consumer + 1)))
      fun _ pmic => ∃ regs', (regs' = regs ∨ regs' = setupRegs regs id) ∧ At regs' use counts pmic := by
  refine (regulatorEnable_first (H := fun _ => True) (C := True) huse fun counts => (whenOff_at hoff).mono
    (fun _ h => h.1) (fun _ _ h => ⟨trivial, h⟩) fun _ _ h => ?_).mono (fun _ h => ⟨h, trivial⟩)
    (fun _ _ h => h.2) fun _ _ h => h
  rcases h with h | h
  · exact ⟨regs, .inl rfl, h⟩
  · exact ⟨setupRegs regs id, .inr rfl, h⟩

theorem regulatorDisable_none (hcount : counts id consumer = 0) : Ends (At regs use counts)
    (regulatorDisable id consumer) (fun _ _ => False) fun _ => At regs use counts := by
  refine .read fun pmic h => ?_
  rw [h.enableCount, if_pos hcount]
  exact .throw fun _ heq => heq ▸ h

theorem regulatorDisable_again (hcount : 1 < counts id consumer) : Ends (At regs use counts)
    (regulatorDisable id consumer)
    (fun _ => At regs use (counted counts id consumer (counts id consumer - 1))) fun _ _ => False := by
  refine .read fun pmic h => ?_
  rw [h.enableCount, if_neg (by omega), if_neg (by omega)]
  exact (countEnable_at _).starting h

theorem regulatorDisable_user (hcount : counts id consumer = 1) (huse : 1 < use id) :
    Ends (At regs use counts)
    (regulatorDisable id consumer)
    (fun _ => At regs (Function.update use id (use id - 1)) (counted counts id consumer 0))
    fun _ _ => False := by
  refine .read fun pmic h => ?_
  rw [h.enableCount, hcount, if_neg (by decide), if_pos rfl, h.useCount, if_neg (by omega), if_pos huse]
  refine .bind ((countUse_at _).starting h) fun _ => ?_
  refine (countEnable_at _).returning fun _ _ h => ?_
  rwa [hcount] at h

theorem regulatorDisable_last (hcount : counts id consumer = 1) (huse : use id = 1) :
    Ends (At regs use counts)
    (regulatorDisable id consumer)
    (fun _ => At (switchRegs regs id 0) (Function.update use id 0) (counted counts id consumer 0))
    fun _ => At regs use counts := by
  refine .read fun pmic h => ?_
  rw [h.enableCount, hcount, if_neg (by decide), if_pos rfl, h.useCount, if_pos huse]
  refine .bind ((updateBits_at _ _ _).starting h) fun _ => ?_
  refine .bind ((countUse_at _).noError) fun _ => ?_
  refine (countEnable_at _).post (fun _ _ h => ?_) fun _ _ h => h.elim
  rwa [hcount] at h

end Ops

/-! ### The invariant -/

/-- The core's counts agree, and every rail that has a user is on and set up. -/
structure Inv (pmic : Pmic) : Prop where
  cache : pmic.map.cache = fun _ => none
  users : ∀ id, Users (pmic.enableCount id) (pmic.useCount id)
  on : ∀ id, 0 < pmic.useCount id → Enabled pmic.map.regs id ∧ SetupHolds pmic.map.regs id

theorem Inv.at {pmic : Pmic} (h : Inv pmic) : At pmic.map.regs pmic.useCount pmic.enableCount pmic :=
  ⟨⟨h.cache, rfl⟩, rfl, rfl⟩

theorem Inv.relied {pmic : Pmic} (h : Inv pmic) : Relied pmic := fun id _ hcount =>
  h.on id ((h.users id).pos hcount)

theorem Booted.inv {pmic : Pmic} (h : Booted pmic) : Inv pmic where
  cache := h.cache
  users id := ⟨∅, fun c => by simp [h.enableCount], by simp [h.useCount]⟩
  on id huse := by
    rw [h.useCount] at huse
    exact absurd huse (Nat.lt_irrefl 0)

section Change

variable {pmic pmic' : Pmic} {regs' : ℕ → BitVec 16} {id : Id} {consumer n m : ℕ} {use' : Id → ℕ}

/-- A change of one rail keeps the invariant if that rail's own part of it holds afterwards. -/
theorem Inv.change (h : Inv pmic)
    (hat : At regs' use' (counted pmic.enableCount id consumer n) pmic')
    (hregs : OnlyRail id pmic.map.regs regs') (huse : ∀ id' ≠ id, use' id' = pmic.useCount id')
    (husers : Users (Function.update (pmic.enableCount id) consumer n) (use' id))
    (hon : 0 < use' id → Enabled regs' id ∧ SetupHolds regs' id) : Inv pmic' := by
  refine ⟨hat.map.cache, ?_, ?_⟩
  · intro id'
    rw [hat.enableCount, hat.useCount, counted]
    by_cases hid : id' = id
    · rw [hid, Function.update_self]
      exact husers
    · rw [Function.update_of_ne hid, huse id' hid]
      exact h.users id'
  · intro id' hpos
    rw [hat.useCount] at hpos
    rw [hat.map.regs]
    by_cases hid : id' = id
    · rw [hid] at hpos ⊢
      exact hon hpos
    · rw [huse id' hid] at hpos
      have hothers := hregs.others hid
      exact ⟨hothers.1.mpr (h.on id' hpos).1, hothers.2.mpr (h.on id' hpos).2⟩

theorem usersAfter_other {use : Id → ℕ} {counts : Id → ℕ → ℕ} {id' : Id} (hid : id' ≠ id) :
    usersAfter use counts id consumer id' = use id' := by
  unfold usersAfter
  split_ifs
  · exact Function.update_of_ne hid _ _
  · rfl

theorem users_usersAfter (h : Inv pmic) :
    Users (Function.update (pmic.enableCount id) consumer (pmic.enableCount id consumer + 1))
      (usersAfter pmic.useCount pmic.enableCount id consumer id) := by
  unfold usersAfter
  split_ifs with hcount
  · rw [Function.update_self]
    exact (h.users id).first hcount
  · exact (h.users id).again (Nat.pos_of_ne_zero hcount) (Nat.succ_pos _)

/-- One more enable of a rail that is on and set up afterwards. -/
theorem Inv.enabled (h : Inv pmic)
    (hat : At regs' (usersAfter pmic.useCount pmic.enableCount id consumer)
      (counted pmic.enableCount id consumer (pmic.enableCount id consumer + 1)) pmic')
    (hregs : OnlyRail id pmic.map.regs regs') (hon : Enabled regs' id ∧ SetupHolds regs' id) : Inv pmic' :=
  h.change hat hregs (fun _ hid => usersAfter_other hid) (users_usersAfter h) fun _ => hon

/-- A rail that has no user may be changed in any way. -/
theorem Inv.unused (h : Inv pmic) (huse : pmic.useCount id = 0)
    (hat : At regs' pmic.useCount pmic.enableCount pmic') (hregs : OnlyRail id pmic.map.regs regs') :
    Inv pmic' := by
  have hsame : counted pmic.enableCount id 0 (pmic.enableCount id 0) = pmic.enableCount := counted_eq
  rw [← hsame] at hat
  refine h.change hat hregs (fun _ _ => rfl) ?_ fun hpos => absurd hpos (by omega)
  rw [Function.update_eq_self]
  exact h.users id

end Change

section Calls

variable {pmic : Pmic} {id : Id} {consumer : ℕ}

theorem Inv.enable (h : Inv pmic) (hfound : FoundSetUp pmic (.enable id consumer)) :
    Inv (finalState (regulatorEnable id consumer) pmic) := by
  by_cases huse : pmic.useCount id = 0
  · by_cases hon : Enabled pmic.map.regs id
    · refine ((regulatorEnable_on huse hon pmic.map.xfers.head).post (fun _ pmic' h' => ?_)
        fun _ pmic' h' => ?_).final ⟨h.at, rfl⟩
      · exact h.enabled h'.2 .refl ⟨hon, hfound huse h'.1 hon⟩
      · obtain ⟨regs', ⟨-, rfl⟩, hat⟩ := h'
        exact h.unused huse hat .refl
    · refine ((regulatorEnable_off huse hon).post (fun _ pmic' hat => ?_)
        fun _ pmic' h' => ?_).final h.at
      · refine h.enabled hat ((onlyRail_setupRegs _ id).switch _) ⟨enabled_switch_on _ id, ?_⟩
        exact (setupHolds_switch _ id _).mpr (setupHolds_setupRegs _ id)
      · obtain ⟨regs', rfl | rfl, hat⟩ := h'
        · exact h.unused huse hat .refl
        · exact h.unused huse hat (onlyRail_setupRegs _ id)
  · refine ((regulatorEnable_used huse).post (fun _ pmic' hat => ?_)
      fun _ _ h' => h'.elim).final h.at
    exact h.enabled hat .refl (h.on id (Nat.pos_of_ne_zero huse))

theorem Inv.disable (h : Inv pmic) : Inv (finalState (regulatorDisable id consumer) pmic) := by
  have hsame : ∀ pmic', At pmic.map.regs pmic.useCount pmic.enableCount pmic' → Inv pmic' := by
    intro pmic' hat
    refine ⟨hat.map.cache, ?_, ?_⟩
    · intro id'
      rw [hat.enableCount, hat.useCount]
      exact h.users id'
    · intro id' hpos
      rw [hat.useCount] at hpos
      rw [hat.map.regs]
      exact h.on id' hpos
  rcases Nat.lt_trichotomy (pmic.enableCount id consumer) 1 with hcount | hcount | hcount
  · exact ((regulatorDisable_none (by omega)).post (fun _ _ h' => h'.elim)
      fun _ pmic' hat => hsame pmic' hat).final h.at
  · have hpos : 0 < pmic.useCount id := (h.users id).pos (c := consumer) (by omega)
    have hlast := (h.users id).last (c := consumer) (by omega)
    rcases Nat.eq_or_lt_of_le hpos with huse | huse
    · refine ((regulatorDisable_last hcount huse.symm).post (fun _ pmic' hat => ?_)
        fun _ pmic' hat => hsame pmic' hat).final h.at
      refine h.change hat (OnlyRail.refl.switch 0) (fun id' hid => Function.update_of_ne hid _ _) ?_ ?_
      · rw [Function.update_self]
        rwa [← huse] at hlast
      · rw [Function.update_self]
        exact fun hlt => absurd hlt (Nat.lt_irrefl 0)
    · refine ((regulatorDisable_user hcount huse).post (fun _ pmic' hat => ?_)
        fun _ _ h' => h'.elim).final h.at
      refine h.change hat .refl (fun id' hid => Function.update_of_ne hid _ _) ?_ fun _ => h.on id hpos
      rwa [Function.update_self]
  · have hpos : 0 < pmic.useCount id := (h.users id).pos (c := consumer) (by omega)
    refine ((regulatorDisable_again hcount).post (fun _ pmic' hat => ?_)
      fun _ _ h' => h'.elim).final h.at
    exact h.change hat .refl (fun _ _ => rfl) ((h.users id).again (by omega) (by omega)) fun _ =>
      h.on id hpos

theorem Inv.call (h : Inv pmic) {c : Call} (hfound : FoundSetUp pmic c) : Inv (callStep pmic c) := by
  cases c with
  | enable id consumer => exact h.enable hfound
  | disable id consumer => exact h.disable

/-- An enable that finds its rail on, but not set up, returns all the same. -/
theorem Inv.lost (h : Inv pmic) {c : Call} (hfound : ¬ FoundSetUp pmic c) : ¬ Relied (callStep pmic c) := by
  cases c with
  | disable id consumer => exact absurd trivial hfound
  | enable id consumer =>
    simp only [FoundSetUp, not_forall] at hfound
    obtain ⟨huse, hhead, hon, hsetup⟩ := hfound
    have hends := @regulatorEnable_on _ _ pmic.enableCount id consumer huse hon (.ok ())
    rcases hout : outcome (regulatorEnable id consumer) pmic with e | ⟨⟩
    · obtain ⟨_, ⟨hr, _⟩, _⟩ := hends.final_error ⟨h.at, hhead⟩ hout
      cases hr
    · have hat := (hends.final_ok ⟨h.at, hhead⟩ hout).2
      have hcount : 0 < (finalState (regulatorEnable id consumer) pmic).enableCount id consumer := by
        rw [hat.enableCount, counted_self]
        exact Nat.succ_pos _
      intro hrelied
      have hholds := (hrelied id consumer hcount).2
      change SetupHolds (finalState (regulatorEnable id consumer) pmic).map.regs id at hholds
      rw [hat.map.regs] at hholds
      exact hsetup hholds

/-- A failed enable leaves EN as it is. -/
theorem Inv.enabled_of_error (h : Inv pmic) {e : Errno}
    (he : outcome (regulatorEnable id consumer) pmic = .error e) :
    Enabled (finalState (regulatorEnable id consumer) pmic).map.regs id ↔ Enabled pmic.map.regs id := by
  by_cases huse : pmic.useCount id = 0
  · by_cases hon : Enabled pmic.map.regs id
    · obtain ⟨regs', ⟨-, rfl⟩, hat⟩ :=
        (regulatorEnable_on huse hon pmic.map.xfers.head).final_error ⟨h.at, rfl⟩ he
      rw [hat.map.regs]
    · obtain ⟨regs', rfl | rfl, hat⟩ := (regulatorEnable_off huse hon).final_error h.at he
      · rw [hat.map.regs]
      · rw [hat.map.regs, enabled_setupRegs]
  · exact ((regulatorEnable_used huse).final_error h.at he).elim

theorem Inv.failsCleanly (h : Inv pmic) (c : Call) : FailsCleanly pmic c := by
  cases c with
  | disable id consumer => trivial
  | enable id consumer =>
    intro e huse hoff hsetup
    have hcount : outcome (countEnable id (· + 1) consumer) pmic = .ok ⟨⟩ := rfl
    have hask : finalState (askStatus id consumer) pmic =
        finalState (regulatorIsEnabledRegmap id) (finalState (countEnable id (· + 1) consumer) pmic) :=
      finalState_bind_ok _ hcount
    have hstatus : outcome (regulatorIsEnabledRegmap id)
      (finalState (countEnable id (· + 1) consumer) pmic) =
        .ok false := by
      rw [← hoff, askStatus, outcome_bind_ok _ hcount]
    rw [hask] at hsetup
    have herror : outcome (regulatorEnable id consumer) pmic = .error e := by
      rw [regulatorEnable, outcome_bind_ok _ hcount, outcome_bind_ok _ (outcome_get _), finalState_get]
      rw [if_pos (show (finalState (countEnable id (· + 1) consumer) pmic).useCount id = 0 from huse)]
      refine outcome_bind_error _ ?_
      rw [outcome_onError fun _ _ => rfl, outcome_bind_ok _ hstatus]
      exact outcome_bind_error _ hsetup
    exact ⟨herror, h.enabled_of_error herror⟩

end Calls

/-- In every run of enables and disables the rails can be relied on, and failed setups are clean, exactly if
    no first user of a rail finds it switched on and not set up. -/
theorem relied_iff {pmic : Pmic} (hboot : Booted pmic) (calls : List Call) :
    Always callStep Relied pmic calls ∧ Steps callStep FailsCleanly pmic calls ↔
      Steps callStep FoundSetUp pmic calls := by
  have hrelied : Always callStep Relied pmic calls ↔ Steps callStep FoundSetUp pmic calls :=
    always_iff_steps (fun _ h => h.relied) (fun _ _ _ h hfound => h.call hfound)
      (fun _ _ _ h hfound => h.lost hfound) hboot.inv fun _ _ => trivial
  refine ⟨fun h => hrelied.mp h.1, fun h => ⟨hrelied.mpr h, ?_⟩⟩
  exact steps_of_steps (fun _ _ h hfound => h.call hfound) (fun _ c h _ => h.failsCleanly c) hboot.inv h

/-- The bootloader has left VMCH on at 3.3 V. -/
def leftOn : Pmic where
  map := {
    regs := fun reg => if reg = ldoVmchCon0 then ldoEn else if reg = vmchAnaCon0 then 0x0100 else 0
    cache := fun _ => none
    xfers := Stream'.const (.ok ())
    seen := [] }
  useCount := fun _ => 0
  enableCount := fun _ _ => 0

theorem leftOn_booted : Booted leftOn := ⟨rfl, fun _ => rfl, fun _ _ => rfl⟩

theorem relied_iff_vmch : Always callStep Relied leftOn [.enable .vmc 0, .disable .vmc 0] ∧
    Steps callStep FailsCleanly leftOn [.enable .vmc 0, .disable .vmc 0] ↔
      Steps callStep FoundSetUp leftOn [.enable .vmc 0, .disable .vmc 0] :=
  relied_iff leftOn_booted [.enable .vmc 0, .disable .vmc 0]

/-- The SD slot is told that VMCH is on at 3.0 V, and it is still at 3.3 V. -/
theorem vmch_not_set_up : Booted leftOn ∧ ¬ (Always callStep Relied leftOn [.enable .vmch 0] ∧
    Steps callStep FailsCleanly leftOn [.enable .vmch 0]) := by
  refine ⟨leftOn_booted, ?_⟩
  intro h
  have hsetup : SetupHolds (callStep leftOn (.enable .vmch 0)).map.regs .vmch :=
    (h.1.last .vmch 0 (by decide)).2
  revert hsetup
  unfold SetupHolds
  decide

end GeminiLinux.Mt6351
