import GeminiLinux.Lib.Prog
import GeminiLinux.Kernel.Errno

/-! The power domains of scpsys. The table of a SoC is as long as its highest index; the slots that no
    initializer names are zero. Three loops go over it:

        init_scp                      1. supplies            skips a slot whose `data->name` is NULL
                                      2. domains, clocks     skips a slot whose `data->name` is NULL
        mtk_register_power_domains    3. power on, register  skips a slot whose `scpd->data` is NULL

    The loops are here as the patches have them; what they call is given from outside: the regulators and
    the clocks that are found, and what `scpsys_power_on` does to the hardware. Everything called is
    logged, with the slot it was called for. -/

namespace GeminiLinux.Scpsys
open Prog

/-- `MTK_SCPD_KEEP_DEFAULT_OFF`. -/
def mtkScpdKeepDefaultOff : BitVec 8 := BitVec.twoPow 8 2

/-- `struct scp_domain_data`; a name that is NULL is `none`. -/
structure ScpDomainData where
  name : Option String
  staMask : BitVec 32
  ctlOffs : ℕ
  sramPdnBits : BitVec 32
  sramPdnAckBits : BitVec 32
  clkId : List ℕ
  busProtMask : BitVec 32
  caps : BitVec 8
  deriving DecidableEq

/-- `struct scp_domain`. -/
structure ScpDomain where
  supply : Option ℕ
  data : Option ScpDomainData
  scp : Bool
  clk : List ℕ
  deriving DecidableEq

/-- What `devm_kcalloc` allocates. -/
def zeroDomain : ScpDomain := { supply := none, data := none, scp := false, clk := [] }

inductive Ev where
  | regulatorGet (slot : ℕ) (id : Option String)
  | clkGet (slot : ℕ)
  | powerOn (slot : ℕ) (ret : ℤ)
  | genpdInit (slot : ℕ) (isOff : Bool)
  deriving DecidableEq

def Ev.slot : Ev → ℕ
  | .regulatorGet slot _ | .clkGet slot | .powerOn slot _ | .genpdInit slot _ => slot

/-- `struct scp`, the hardware, and the log. `pdDomains` is `pd_data->domains`, a pointer into `domains`. -/
structure Scp (Hw : Type) where
  domains : ℕ → ScpDomain
  pdDomains : ℕ → Option ℕ
  hw : Hw
  log : List Ev

abbrev ScpM (Hw : Type) := EStateM Errno (Scp Hw)

section Loops

variable {Hw : Type} (regulatorGet : Option String → Except Errno ℕ)
  (clkGet : ScpDomainData → Except Errno (List ℕ)) (powerOn : ScpDomain → Hw → ℤ × Hw)
  (scpDomainData : ℕ → ScpDomainData) (num : ℕ)

def record (e : Ev) : ScpM Hw Unit := modify fun scp => { scp with log := scp.log ++ [e] }

def setDomain (i : ℕ) (f : ScpDomain → ScpDomain) : ScpM Hw Unit :=
  modify fun scp => { scp with domains := Function.update scp.domains i (f (scp.domains i)) }

/-- `devm_regulator_get_optional`; a supply that the board does not have is NULL. -/
def getSupply (i : ℕ) (id : Option String) : ScpM Hw (Option ℕ) := do
  record (.regulatorGet i id)
  match regulatorGet id with
  | .ok supply => pure (some supply)
  | .error e => if e = .ENODEV then pure none else throw e

def getClks (i : ℕ) (data : ScpDomainData) : ScpM Hw (List ℕ) := do
  record (.clkGet i)
  MonadExcept.ofExcept (clkGet data)

/-- The body of the first loop of `init_scp`. -/
def initSupply (i : ℕ) : ScpM Hw Unit :=
  if (scpDomainData i).name = none then pure ()
  else do
    let supply ← getSupply regulatorGet i (scpDomainData i).name
    setDomain i fun scpd => { scpd with supply }

/-- The body of the second loop of `init_scp`. -/
def initDomain (i : ℕ) : ScpM Hw Unit :=
  if (scpDomainData i).name = none then pure ()
  else do
    modify fun scp => { scp with pdDomains := Function.update scp.pdDomains i (some i) }
    setDomain i fun scpd => { scpd with scp := true, data := some (scpDomainData i) }
    let clk ← getClks clkGet i (scpDomainData i)
    setDomain i fun scpd => { scpd with clk }

def initScp : ScpM Hw Unit := do
  (List.range num).forM (initSupply regulatorGet scpDomainData)
  (List.range num).forM (initDomain clkGet scpDomainData)

/-- `genpd->power_on(genpd)`. -/
def callPowerOn (i : ℕ) : ScpM Hw ℤ := do
  let scpd := (← get).domains i
  let ret ← modifyGet fun scp => ((powerOn scpd scp.hw).1, { scp with hw := (powerOn scpd scp.hw).2 })
  record (.powerOn i ret)
  pure ret

/-- The body of the loop of `mtk_register_power_domains`. -/
def registerDomain (i : ℕ) : ScpM Hw Unit := do
  match ((← get).domains i).data with
  | none => pure ()
  | some data =>
    if data.caps &&& mtkScpdKeepDefaultOff ≠ 0 then record (.genpdInit i true)
    else do
      let ret ← callPowerOn powerOn i
      record (.genpdInit i (decide (ret < 0)))

def mtkRegisterPowerDomains : ScpM Hw Unit := (List.range num).forM (registerDomain powerOn)

/-- `init_scp` and then `mtk_register_power_domains`, as every probe of the driver calls them. -/
def scpsysProbe : ScpM Hw Unit := do
  initScp regulatorGet clkGet scpDomainData num
  mtkRegisterPowerDomains powerOn num

end Loops

/-! ### Slots -/

section Probe

variable {Hw : Type} {regulatorGet : Option String → Except Errno ℕ}
  {clkGet : ScpDomainData → Except Errno (List ℕ)} {powerOn : ScpDomain → Hw → ℤ × Hw}
  {scpDomainData : ℕ → ScpDomainData} {num : ℕ} {hw : Hw}

/-- A slot that an initializer names. -/
def Populated (scpDomainData : ℕ → ScpDomainData) (i : ℕ) : Prop := (scpDomainData i).name ≠ none

instance : DecidablePred (Populated scpDomainData) := fun i =>
  inferInstanceAs (Decidable ((scpDomainData i).name ≠ none))

/-- The populated slots below `k`, in index order. -/
def slots (scpDomainData : ℕ → ScpDomainData) (k : ℕ) : List ℕ :=
  (List.range k).filter fun i => Populated scpDomainData i

theorem mem_slots {i k : ℕ} : i ∈ slots scpDomainData k ↔ i < k ∧ Populated scpDomainData i := by
  simp [slots]

theorem slots_succ (k : ℕ) : slots scpDomainData (k + 1) =
    slots scpDomainData k ++ if Populated scpDomainData k then [k] else [] := by
  rw [slots, List.range_succ, List.filter_append, slots]
  by_cases hk : Populated scpDomainData k
  · simp [hk]
  · simp [hk]

/-- A loop over all slots that does nothing for the holes, by an invariant of the slots gone through. -/
theorem forSlots {I : List ℕ → Scp Hw → Prop} {body : ℕ → ScpM Hw Unit} {E : Errno → Scp Hw → Prop}
    (hhole : ∀ i < num, ¬ Populated scpDomainData i →
      Ends (I (slots scpDomainData i)) (body i) (fun _ => I (slots scpDomainData i)) E)
    (hslot : ∀ i < num, Populated scpDomainData i →
      Ends (I (slots scpDomainData i)) (body i) (fun _ => I (slots scpDomainData i ++ [i])) E) :
    Ends (I []) ((List.range num).forM body) (fun _ => I (slots scpDomainData num)) E := by
  refine Ends.forRange (I := fun k => I (slots scpDomainData k)) fun i hi => ?_
  rw [slots_succ]
  by_cases hpop : Populated scpDomainData i
  · rw [if_pos hpop]
    exact hslot i hi hpop
  · rw [if_neg hpop, List.append_nil]
    exact hhole i hi hpop

/-- One more slot of which something is known. -/
theorem update_of_done {α : Type} (f g : ℕ → α) (done : List ℕ) (i : ℕ) :
    Function.update (fun j => if j ∈ done then f j else g j) i (f i) =
      fun j => if j ∈ done ++ [i] then f j else g j := by
  funext j
  by_cases hj : j = i
  · simp [hj]
  · simp [hj]

/-- The allocated `struct scp`, before the first loop. -/
def allocated (hw : Hw) : Scp Hw where
  domains _ := zeroDomain
  pdDomains _ := none
  hw := hw
  log := []

/-! ### The lookups -/

/-- All lookups succeed; a board may lack a supply. -/
structure LookupsSucceed (regulatorGet : Option String → Except Errno ℕ)
    (clkGet : ScpDomainData → Except Errno (List ℕ)) (scpDomainData : ℕ → ScpDomainData) (num : ℕ) : Prop where
  supply : ∀ i < num, Populated scpDomainData i → ∀ e, regulatorGet (scpDomainData i).name = .error e →
    e = .ENODEV
  clk : ∀ i < num, Populated scpDomainData i → ∃ clk, clkGet (scpDomainData i) = .ok clk

variable (regulatorGet) (clkGet) (scpDomainData) (hw)

/-- A domain after the first loop. -/
def withSupply (i : ℕ) : ScpDomain :=
  { zeroDomain with supply := (regulatorGet (scpDomainData i).name).toOption }

/-- A domain after the second loop. -/
def withData (i : ℕ) : ScpDomain :=
  { withSupply regulatorGet scpDomainData i with
    scp := true, data := some (scpDomainData i), clk := (clkGet (scpDomainData i)).toOption.getD [] }

/-- The first loop, after the slots `done`. -/
def supplied (done : List ℕ) : Scp Hw where
  domains j := if j ∈ done then withSupply regulatorGet scpDomainData j else zeroDomain
  pdDomains _ := none
  hw := hw
  log := done.map fun i => .regulatorGet i (scpDomainData i).name

/-- The second loop, after the slots `done` of `all`. -/
def setUp (all done : List ℕ) : Scp Hw where
  domains j := if j ∈ done then withData regulatorGet clkGet scpDomainData j
    else if j ∈ all then withSupply regulatorGet scpDomainData j else zeroDomain
  pdDomains j := if j ∈ done then some j else none
  hw := hw
  log := (supplied regulatorGet scpDomainData hw all).log ++ done.map .clkGet

variable {regulatorGet} {clkGet} {scpDomainData} {hw}

theorem initSupply_supplied {i : ℕ} (hi : Populated scpDomainData i)
    (h : ∀ e, regulatorGet (scpDomainData i).name = .error e → e = .ENODEV) {done : List ℕ} (hdone : i ∉ done) :
    initSupply regulatorGet scpDomainData i (supplied regulatorGet scpDomainData hw done) =
      .ok ⟨⟩ (supplied regulatorGet scpDomainData hw (done ++ [i])) := by
  have hstate : supplied regulatorGet scpDomainData hw (done ++ [i]) =
      { supplied regulatorGet scpDomainData hw done with
        domains := Function.update (supplied regulatorGet scpDomainData hw done).domains i
          (withSupply regulatorGet scpDomainData i)
        log := (supplied regulatorGet scpDomainData hw done).log ++
          [.regulatorGet i (scpDomainData i).name] } := by
    rw [supplied, supplied, update_of_done, List.map_append]
    rfl
  have hzero : (supplied regulatorGet scpDomainData hw done).domains i = zeroDomain := if_neg hdone
  rw [hstate, initSupply, if_neg hi, getSupply, withSupply, ← hzero]
  rcases hget : regulatorGet (scpDomainData i).name with e | supply
  · rw [h e hget]
    rfl
  · rfl

theorem initDomain_setUp {i : ℕ} (hi : Populated scpDomainData i)
    (h : ∃ clk, clkGet (scpDomainData i) = .ok clk) {all done : List ℕ} (hall : i ∈ all) (hdone : i ∉ done) :
    initDomain clkGet scpDomainData i (setUp regulatorGet clkGet scpDomainData hw all done) =
      .ok ⟨⟩ (setUp regulatorGet clkGet scpDomainData hw all (done ++ [i])) := by
  obtain ⟨clk, hclk⟩ := h
  have hstate : setUp regulatorGet clkGet scpDomainData hw all (done ++ [i]) =
      { setUp regulatorGet clkGet scpDomainData hw all done with
        domains := Function.update (setUp regulatorGet clkGet scpDomainData hw all done).domains i
          (withData regulatorGet clkGet scpDomainData i)
        pdDomains := Function.update (setUp regulatorGet clkGet scpDomainData hw all done).pdDomains i (some i)
        log := (setUp regulatorGet clkGet scpDomainData hw all done).log ++ [.clkGet i] } := by
    rw [setUp, setUp, update_of_done, update_of_done some, List.map_append, List.append_assoc]
    rfl
  have hold : (setUp regulatorGet clkGet scpDomainData hw all done).domains i =
      withSupply regulatorGet scpDomainData i := (if_neg hdone).trans (if_pos hall)
  rw [hstate, initDomain, if_neg hi, withData, ← hold, getClks, hclk]
  simp only [setDomain, record, bind_apply, modify_apply, ofExcept_ok_apply, Function.update_self,
    Function.update_idem]
  rfl

theorem supplied_eq_setUp (clkGet : ScpDomainData → Except Errno (List ℕ)) (all : List ℕ) : supplied regulatorGet scpDomainData hw all =
    setUp regulatorGet clkGet scpDomainData hw all [] := by
  simp [supplied, setUp]

theorem notMem_slots (i : ℕ) : i ∉ slots scpDomainData i := fun hmem => lt_irrefl i (mem_slots.mp hmem).1

/-- `init_scp` sets up the populated slots and leaves all others as they were allocated. -/
theorem initScp_setUp (h : LookupsSucceed regulatorGet clkGet scpDomainData num) :
    Ends (· = allocated hw) (initScp regulatorGet clkGet scpDomainData num)
      (fun _ s => s = setUp regulatorGet clkGet scpDomainData hw (slots scpDomainData num)
        (slots scpDomainData num)) fun _ _ => False := by
  have hsupplies : Ends (· = supplied regulatorGet scpDomainData hw [])
      ((List.range num).forM (initSupply regulatorGet scpDomainData))
      (fun _ s => s = supplied regulatorGet scpDomainData hw (slots scpDomainData num)) fun _ _ => False := by
    refine forSlots (I := fun done s => s = supplied regulatorGet scpDomainData hw done) ?_ ?_
    · rintro i - hhole s rfl
      rw [initSupply, if_pos (not_not.mp hhole)]
      rfl
    · rintro i hi hpop s rfl
      rw [initSupply_supplied hpop (h.supply i hi hpop) (notMem_slots i)]
  refine .bind hsupplies fun _ => ?_
  rw [supplied_eq_setUp clkGet]
  refine forSlots (I := fun done s => s = setUp regulatorGet clkGet scpDomainData hw _ done) ?_ ?_
  · rintro i - hhole s rfl
    rw [initDomain, if_pos (not_not.mp hhole)]
    rfl
  · rintro i hi hpop s rfl
    rw [initDomain_setUp hpop (h.clk i hi hpop) (mem_slots.mpr ⟨hi, hpop⟩) (notMem_slots i)]

/-! ### Registering -/

/-- The slot is registered as off, and not powered. -/
def KeepsOff (scpDomainData : ℕ → ScpDomainData) (i : ℕ) : Prop :=
  (scpDomainData i).caps &&& mtkScpdKeepDefaultOff ≠ 0

instance : DecidablePred (KeepsOff scpDomainData) := fun i =>
  inferInstanceAs (Decidable ((scpDomainData i).caps &&& mtkScpdKeepDefaultOff ≠ 0))

variable (powerOn) (domain : ℕ → ScpDomain)

/-- The hardware after powering on some slots. -/
def powered (hw : Hw) (is : List ℕ) : Hw := is.foldl (fun hw i => (powerOn (domain i) hw).2) hw

/-- What is called for one slot. -/
def registerLog (scpDomainData : ℕ → ScpDomainData) (hw : Hw) (i : ℕ) : List Ev :=
  if KeepsOff scpDomainData i then [.genpdInit i true]
  else [.powerOn i (powerOn (domain i) hw).1, .genpdInit i (decide ((powerOn (domain i) hw).1 < 0))]

/-- The third loop, after the slots `done`, from a state in which all are set up. -/
def registered (scpDomainData : ℕ → ScpDomainData) (s : Scp Hw) (done : List ℕ) : Scp Hw :=
  done.foldl (fun s i => { s with
    hw := if KeepsOff scpDomainData i then s.hw else (powerOn (s.domains i) s.hw).2
    log := s.log ++ registerLog powerOn s.domains scpDomainData s.hw i }) s

variable {powerOn} {domain}

theorem registered_concat (s : Scp Hw) (done : List ℕ) (i : ℕ) :
    registered powerOn scpDomainData s (done ++ [i]) =
      { registered powerOn scpDomainData s done with
        hw := if KeepsOff scpDomainData i then (registered powerOn scpDomainData s done).hw
          else (powerOn ((registered powerOn scpDomainData s done).domains i)
            (registered powerOn scpDomainData s done).hw).2
        log := (registered powerOn scpDomainData s done).log ++
          registerLog powerOn (registered powerOn scpDomainData s done).domains scpDomainData
            (registered powerOn scpDomainData s done).hw i } := List.foldl_concat ..

/-- Registering changes nothing of the domains. -/
theorem domains_registered (s : Scp Hw) (done : List ℕ) :
    (registered powerOn scpDomainData s done).domains = s.domains ∧
      (registered powerOn scpDomainData s done).pdDomains = s.pdDomains := by
  induction done using List.reverseRecOn with
  | nil => exact ⟨rfl, rfl⟩
  | append_singleton done i ih =>
    rw [registered_concat]
    exact ih

theorem registerDomain_slot {i : ℕ} {s : Scp Hw} (h : (s.domains i).data = some (scpDomainData i)) :
    registerDomain powerOn i s = .ok ⟨⟩ { s with
      hw := if KeepsOff scpDomainData i then s.hw else (powerOn (s.domains i) s.hw).2
      log := s.log ++ registerLog powerOn s.domains scpDomainData s.hw i } := by
  rw [registerDomain, bind_apply, get_apply]
  simp only [h, registerLog]
  by_cases hkeep : KeepsOff scpDomainData i
  · have hcaps : (scpDomainData i).caps &&& mtkScpdKeepDefaultOff ≠ 0 := hkeep
    rw [if_pos hkeep, if_pos hkeep, if_pos hcaps]
    rfl
  · have hcaps : ¬ (scpDomainData i).caps &&& mtkScpdKeepDefaultOff ≠ 0 := hkeep
    rw [if_neg hkeep, if_neg hkeep, if_neg hcaps, callPowerOn]
    simp only [bind_apply, get_apply, modifyGet_apply, record, modify_apply, pure_apply, List.append_assoc]
    rfl

theorem registerDomain_hole {i : ℕ} {s : Scp Hw} (h : (s.domains i).data = none) :
    registerDomain powerOn i s = .ok ⟨⟩ s := by
  rw [registerDomain, bind_apply, get_apply]
  simp only [h]
  rfl

/-- `mtk_register_power_domains` registers the populated slots, if `scpd->data` is set for these only. -/
theorem mtkRegisterPowerDomains_registered {s₀ : Scp Hw}
    (hdata : ∀ i < num, Populated scpDomainData i → (s₀.domains i).data = some (scpDomainData i))
    (hnull : ∀ i < num, ¬ Populated scpDomainData i → (s₀.domains i).data = none) :
    Ends (· = s₀) (mtkRegisterPowerDomains powerOn num)
      (fun _ s => s = registered powerOn scpDomainData s₀ (slots scpDomainData num)) fun _ _ => False := by
  refine forSlots (I := fun done s => s = registered powerOn scpDomainData s₀ done) ?_ ?_
  · rintro i hi hhole s rfl
    rw [registerDomain_hole (by rw [(domains_registered s₀ _).1, hnull i hi hhole])]
  · rintro i hi hpop s rfl
    rw [registerDomain_slot (by rw [(domains_registered s₀ _).1, hdata i hi hpop]), ← registered_concat]

variable (regulatorGet) (clkGet) (powerOn) (scpDomainData) (num) (hw)

/-- What a probe leaves. -/
def probed : Scp Hw :=
  registered powerOn scpDomainData
    (setUp regulatorGet clkGet scpDomainData hw (slots scpDomainData num) (slots scpDomainData num))
    (slots scpDomainData num)

variable {regulatorGet} {clkGet} {powerOn} {scpDomainData} {num} {hw}

theorem domains_setUp (all : List ℕ) (i : ℕ) :
    (setUp regulatorGet clkGet scpDomainData hw all all).domains i =
      if i ∈ all then withData regulatorGet clkGet scpDomainData i else zeroDomain := by
  by_cases hi : i ∈ all
  · simp [setUp, hi]
  · simp [setUp, hi]

theorem scpsysProbe_probed (h : LookupsSucceed regulatorGet clkGet scpDomainData num) :
    Ends (· = allocated hw) (scpsysProbe regulatorGet clkGet powerOn scpDomainData num)
      (fun _ s => s = probed regulatorGet clkGet powerOn scpDomainData num hw) fun _ _ => False := by
  refine .bind (initScp_setUp h) fun _ => mtkRegisterPowerDomains_registered ?_ ?_
  · intro i hi hpop
    rw [domains_setUp, if_pos (mem_slots.mpr ⟨hi, hpop⟩)]
    rfl
  · intro i _ hhole
    rw [domains_setUp, if_neg fun hmem => hhole (mem_slots.mp hmem).2]
    rfl

/-! ### What a probe has called -/

/-- The slot that a call registers. -/
def Ev.registers : Ev → Option ℕ
  | .genpdInit slot _ => some slot
  | _ => none

section RegisterLog

variable (domain : ℕ → ScpDomain) (i : ℕ)

theorem registers_registerLog :
    (registerLog powerOn domain scpDomainData hw i).filterMap Ev.registers = [i] := by
  rw [registerLog]
  split_ifs <;> rfl

theorem slot_registerLog : ∀ e ∈ registerLog powerOn domain scpDomainData hw i, e.slot = i := by
  rw [registerLog]
  split_ifs <;> simp [Ev.slot]

theorem not_keepsOff_of_powerOn {j : ℕ} {ret : ℤ}
    (h : .powerOn j ret ∈ registerLog powerOn domain scpDomainData hw i) : ¬ KeepsOff scpDomainData j := by
  have hslot := slot_registerLog domain i _ h
  rw [registerLog] at h
  split_ifs at h with hkeep
  · simp at h
  · rw [← hslot] at hkeep
    exact hkeep

end RegisterLog

/-- What registering the slots `done` does to the hardware and the log. -/
structure Registers (powerOn : ScpDomain → Hw → ℤ × Hw) (scpDomainData : ℕ → ScpDomainData) (s s' : Scp Hw)
    (done : List ℕ) : Prop where
  registers : s'.log.filterMap Ev.registers = s.log.filterMap Ev.registers ++ done
  slot : ∀ e ∈ s'.log, e ∈ s.log ∨ e.slot ∈ done
  hw : s'.hw = powered powerOn s.domains s.hw (done.filter fun i => ¬ KeepsOff scpDomainData i)
  off : ∀ i ∈ done, KeepsOff scpDomainData i → .genpdInit i true ∈ s'.log
  powerOn : ∀ i ret, .powerOn i ret ∈ s'.log → .powerOn i ret ∈ s.log ∨ ¬ KeepsOff scpDomainData i
  on : ∀ i ∈ done, ¬ KeepsOff scpDomainData i → ∃ before ret after,
    s'.log = before ++ .powerOn i ret :: .genpdInit i (decide (ret < 0)) :: after

theorem registers_registered (powerOn : ScpDomain → Hw → ℤ × Hw) (scpDomainData : ℕ → ScpDomainData)
    (s : Scp Hw) (done : List ℕ) :
    Registers powerOn scpDomainData s (registered powerOn scpDomainData s done) done := by
  induction done using List.reverseRecOn with
  | nil => exact ⟨by simp [registered], fun e he => .inl he, rfl, by simp, fun _ _ h => .inl h, by simp⟩
  | append_singleton done i ih =>
    rw [registered_concat, (domains_registered s done).1]
    generalize registered powerOn scpDomainData s done = s' at ih
    refine ⟨?_, ?_, ?_, ?_, ?_, ?_⟩
    · rw [List.filterMap_append, ih.registers, registers_registerLog, List.append_assoc]
    · intro e he
      rcases List.mem_append.mp he with he | he
      · exact (ih.slot e he).imp_right fun hmem => List.mem_append_left _ hmem
      · exact .inr (by simp [slot_registerLog _ _ e he])
    · rw [List.filter_append]
      by_cases hkeep : KeepsOff scpDomainData i
      · simp [hkeep, ih.hw]
      · simp [hkeep, ih.hw, powered]
    · intro j hj hkeep
      rcases List.mem_append.mp hj with hj | hj
      · exact List.mem_append_left _ (ih.off j hj hkeep)
      · rw [List.mem_singleton.mp hj] at hkeep ⊢
        simp [registerLog, hkeep]
    · intro j ret hmem
      rcases List.mem_append.mp hmem with hmem | hmem
      · exact ih.powerOn j ret hmem
      · exact .inr (not_keepsOff_of_powerOn _ _ hmem)
    · intro j hj hkeep
      rcases List.mem_append.mp hj with hj | hj
      · obtain ⟨before, ret, after, hlog⟩ := ih.on j hj hkeep
        exact ⟨before, ret, after ++ _, by rw [hlog, List.append_assoc]; rfl⟩
      · rw [List.mem_singleton.mp hj] at hkeep ⊢
        exact ⟨s'.log, (powerOn (s.domains i) s'.hw).1, [], by simp [registerLog, hkeep]⟩

/-- A domain table that is probed slot by slot, holes and all. -/
structure ProbedSparsely (regulatorGet : Option String → Except Errno ℕ)
    (clkGet : ScpDomainData → Except Errno (List ℕ)) (powerOn : ScpDomain → Hw → ℤ × Hw)
    (scpDomainData : ℕ → ScpDomainData) (num : ℕ) (hw : Hw) (s : Scp Hw) : Prop where
  agree : ∀ i < num, (s.domains i).data ≠ none ↔ (scpDomainData i).name ≠ none
  slot : ∀ i < num, Populated scpDomainData i →
    s.domains i = withData regulatorGet clkGet scpDomainData i ∧ s.pdDomains i = some i
  hole : ∀ i < num, ¬ Populated scpDomainData i →
    s.domains i = zeroDomain ∧ s.pdDomains i = none ∧ ∀ e ∈ s.log, e.slot ≠ i
  registers : s.log.filterMap Ev.registers = slots scpDomainData num
  hw : s.hw = powered powerOn s.domains hw
    ((slots scpDomainData num).filter fun i => ¬ KeepsOff scpDomainData i)
  off : ∀ i < num, Populated scpDomainData i → KeepsOff scpDomainData i →
    .genpdInit i true ∈ s.log ∧ ∀ ret, .powerOn i ret ∉ s.log
  on : ∀ i < num, Populated scpDomainData i → ¬ KeepsOff scpDomainData i → ∃ before ret after,
    s.log = before ++ .powerOn i ret :: .genpdInit i (decide (ret < 0)) :: after

/-- The loops of `init_scp` only look up, and only for the slots they are about. -/
theorem log_setUp (all : List ℕ) :
    ∀ e ∈ (setUp regulatorGet clkGet scpDomainData hw all all).log,
      e.slot ∈ all ∧ e.registers = none ∧ ∀ i ret, e ≠ .powerOn i ret := by
  intro e he
  rcases List.mem_append.mp he with he | he
  · obtain ⟨i, hi, rfl⟩ := List.mem_map.mp he
    exact ⟨hi, rfl, fun _ _ h => by cases h⟩
  · obtain ⟨i, hi, rfl⟩ := List.mem_map.mp he
    exact ⟨hi, rfl, fun _ _ h => by cases h⟩

theorem probedSparsely_probed : ProbedSparsely regulatorGet clkGet powerOn scpDomainData num hw
    (probed regulatorGet clkGet powerOn scpDomainData num hw) := by
  have hdomains (i : ℕ) : (probed regulatorGet clkGet powerOn scpDomainData num hw).domains i =
      if i ∈ slots scpDomainData num then withData regulatorGet clkGet scpDomainData i else zeroDomain := by
    rw [probed, (domains_registered _ _).1, domains_setUp]
  have hpd (i : ℕ) : (probed regulatorGet clkGet powerOn scpDomainData num hw).pdDomains i =
      if i ∈ slots scpDomainData num then some i else none := by
    rw [probed, (domains_registered _ _).2, setUp]
  have hlog : ∀ e ∈ (setUp regulatorGet clkGet scpDomainData hw (slots scpDomainData num)
      (slots scpDomainData num)).log, e.slot ∈ slots scpDomainData num ∧ e.registers = none ∧
        ∀ i ret, e ≠ .powerOn i ret := log_setUp _
  have hregs := registers_registered powerOn scpDomainData
    (setUp regulatorGet clkGet scpDomainData hw (slots scpDomainData num) (slots scpDomainData num))
    (slots scpDomainData num)
  rw [← probed] at hregs
  refine ⟨?_, ?_, ?_, ?_, ?_, ?_, ?_⟩
  · intro i hi
    rw [hdomains]
    by_cases hpop : Populated scpDomainData i
    · rw [if_pos (mem_slots.mpr ⟨hi, hpop⟩)]
      exact ⟨fun _ => hpop, fun _ h => by cases h⟩
    · rw [if_neg fun hmem => hpop (mem_slots.mp hmem).2]
      exact ⟨fun h => absurd rfl h, fun h => absurd h hpop⟩
  · intro i hi hpop
    have hmem := mem_slots.mpr ⟨hi, hpop⟩
    rw [hdomains, hpd, if_pos hmem, if_pos hmem]
    exact ⟨rfl, rfl⟩
  · intro i hi hhole
    have hmem : i ∉ slots scpDomainData num := fun hmem => hhole (mem_slots.mp hmem).2
    rw [hdomains, hpd, if_neg hmem, if_neg hmem]
    refine ⟨rfl, rfl, ?_⟩
    intro e he heq
    refine hmem ?_
    rw [← heq]
    exact (hregs.slot e he).elim (fun hold => (hlog e hold).1) id
  · have hnone : (setUp regulatorGet clkGet scpDomainData hw (slots scpDomainData num)
        (slots scpDomainData num)).log.filterMap Ev.registers = [] :=
      List.filterMap_eq_nil_iff.mpr fun e he => (hlog e he).2.1
    rw [hregs.registers, hnone, List.nil_append]
  · rw [hregs.hw, probed, (domains_registered _ _).1]
    rfl
  · intro i hi hpop hkeep
    refine ⟨hregs.off i (mem_slots.mpr ⟨hi, hpop⟩) hkeep, ?_⟩
    intro ret hmem
    rcases hregs.powerOn i ret hmem with hold | hnot
    · exact (hlog _ hold).2.2 i ret rfl
    · exact hnot hkeep
  · intro i hi hpop hkeep
    exact hregs.on i (mem_slots.mpr ⟨hi, hpop⟩) hkeep

/-- However the holes and the flags are spread over a table, every populated slot is set up and registered
    once, powered on first unless it is to stay off, and no hole is touched. -/
theorem scpsys_probes_sparse_tables (regulatorGet : Option String → Except Errno ℕ)
    (clkGet : ScpDomainData → Except Errno (List ℕ)) (powerOn : ScpDomain → Hw → ℤ × Hw)
    (scpDomainData : ℕ → ScpDomainData) (num : ℕ) (hw : Hw)
    (h : LookupsSucceed regulatorGet clkGet scpDomainData num) :
    ∃ s, scpsysProbe regulatorGet clkGet powerOn scpDomainData num (allocated hw) = .ok ⟨⟩ s ∧
      ProbedSparsely regulatorGet clkGet powerOn scpDomainData num hw s := by
  have hends : Ends (· = allocated hw) (scpsysProbe regulatorGet clkGet powerOn scpDomainData num)
      (fun _ s => s = probed regulatorGet clkGet powerOn scpDomainData num hw) fun _ _ => False :=
    scpsysProbe_probed h
  have hends := hends (allocated hw) rfl
  rcases hrun : scpsysProbe regulatorGet clkGet powerOn scpDomainData num (allocated hw) with ⟨⟨⟩, s⟩ | ⟨e, s⟩
  · rw [hrun] at hends
    exact ⟨s, rfl, hends ▸ probedSparsely_probed⟩
  · rw [hrun] at hends
    exact hends.elim

end Probe

/-- A slot that no initializer names. -/
def zeroData : ScpDomainData :=
  { name := none, staMask := 0, ctlOffs := 0, sramPdnBits := 0, sramPdnAckBits := 0, clkId := [],
    busProtMask := 0, caps := 0 }

/-- `[MT6797_POWER_DOMAIN_CONN]`. -/
def connData : ScpDomainData :=
  { name := some "conn", staMask := BitVec.twoPow 32 1, ctlOffs := 0x32C, sramPdnBits := 0, sramPdnAckBits := 0,
    clkId := [0], busProtMask := BitVec.twoPow 32 17 ||| BitVec.twoPow 32 18, caps := mtkScpdKeepDefaultOff }

/-- A table with a hole between a domain that is powered on and CONN. -/
def holeTable (i : ℕ) : ScpDomainData :=
  if i = 0 then { zeroData with name := some "mjc", ctlOffs := 0x310 } else if i = 2 then connData else zeroData

/-- A board without supplies; the hardware is the list of offsets written to. -/
theorem scpsys_probes_holeTable :
    ∃ s, scpsysProbe (fun id => .error (if id = none then .EINVAL else .ENODEV)) (fun _ => .ok [])
        (fun scpd hw => (0, (scpd.data.getD zeroData).ctlOffs :: hw)) holeTable 3 (allocated ([] : List ℕ)) =
          .ok ⟨⟩ s ∧
      ProbedSparsely (fun id => .error (if id = none then .EINVAL else .ENODEV)) (fun _ => .ok [])
        (fun scpd hw => (0, (scpd.data.getD zeroData).ctlOffs :: hw)) holeTable 3 [] s :=
  scpsys_probes_sparse_tables _ _ _ _ _ _
    ⟨fun i _ hpop e he => by
      rw [if_neg hpop] at he
      exact (Except.error.inj he).symm, fun _ _ _ => ⟨[], rfl⟩⟩

end GeminiLinux.Scpsys
