import GeminiLinux.Phy.MipiTx

/-! The order in which the PLL is powered, released, loaded and enabled. A call is followed write by write:

        prepare     bias ─▶ filter ─▶ power ─▶ release ─▶ PCW ─▶ CHG ↑↓ ─▶ POSDIV ─▶ FRA ─▶ EN
        unprepare   EN off ─▶ isolate ─▶ power off ─▶ bias and filter off

    The state of the PLL between the writes is read off its registers; each write then does one thing to
    it, and a call passes through the states of a list of such steps, whatever the registers hold
    besides. -/

namespace GeminiLinux.MipiTx
open Prog Regmap Runs

/-! ### Fields of registers -/

section Fields

variable {orig mask val : BitVec 32} {start len : ℕ}

theorem extractLsb'_updateBits_of_disjoint (h : mask.extractLsb' start len = BitVec.ofNat len 0) :
    (updateBits orig mask val).extractLsb' start len = orig.extractLsb' start len := by
  apply BitVec.eq_of_getLsbD_eq
  intro i hi
  have hmask : mask.getLsbD (start + i) = false := by
    have hbit := congrArg (BitVec.getLsbD · i) h
    simpa [hi] using hbit
  simp only [BitVec.getLsbD_extractLsb', getLsbD_updateBits, hmask]
  simp

/-- A field holds what `FIELD_PREP` has put into it. -/
theorem extractLsb'_updateBits_fieldPrep {val : UInt64} (hctz : mask.ctz = BitVec.ofNat 32 start)
    (hmask : mask.extractLsb' start len = BitVec.allOnes len) :
    (updateBits orig mask (fieldPrep mask val)).extractLsb' start len = val.toBitVec.setWidth len := by
  apply BitVec.eq_of_getLsbD_eq
  intro i hi
  have hbit : mask.getLsbD (start + i) = true := by
    have hbits := congrArg (BitVec.getLsbD · i) hmask
    simpa [hi] using hbits
  have hlt : start + i < 32 := BitVec.lt_of_getLsbD hbit
  have hstart : (BitVec.ofNat 32 start).toNat = start := Nat.mod_eq_of_lt (by omega)
  rw [BitVec.getLsbD_extractLsb', getLsbD_updateBits, if_pos hbit, fieldPrep, hctz, BitVec.getLsbD_and,
    hbit, BitVec.shiftLeft_eq', hstart, BitVec.getLsbD_shiftLeft]
  simp [hi, hlt]
  omega

end Fields

theorem or_eq_updateBits (orig bits : BitVec 32) : orig ||| bits = updateBits orig bits bits := by
  apply BitVec.eq_of_getLsbD_eq
  intro i _
  rw [getLsbD_updateBits, BitVec.getLsbD_or]
  cases bits.getLsbD i <;> simp

theorem and_not_eq_updateBits (orig bits : BitVec 32) : orig &&& ~~~bits = updateBits orig bits 0 := by
  rw [updateBits]
  simp

/-! ### What one write does to the PLL -/

section Registers

variable (regs : Regs) (mask val : BitVec 32)

theorem pll_updated_bgCon : pll (updated regs mipitxBgCon mask val) = { pll regs with
    coreEn := if mask.getLsbD 1 then val.getLsbD 1 else (pll regs).coreEn
    lpfEn := if mask.getLsbD 2 then val.getLsbD 2 else (pll regs).lpfEn } := by
  simp only [pll, updated, Function.update_self, getLsbD_updateBits]
  rfl

theorem pll_updated_pllPwr : pll (updated regs mipitxPllPwr mask val) = { pll regs with
    pwrOn := if mask.getLsbD 0 then val.getLsbD 0 else (pll regs).pwrOn
    isoEn := if mask.getLsbD 1 then val.getLsbD 1 else (pll regs).isoEn } := by
  simp only [pll, updated, Function.update_self, getLsbD_updateBits]
  rfl

theorem pll_updated_pllChg : pll (updated regs mipitxPllChg mask val) = { pll regs with
    pcwChg := if mask.getLsbD 0 then val.getLsbD 0 else (pll regs).pcwChg } := by
  simp only [pll, updated, Function.update_self, getLsbD_updateBits]
  rfl

theorem pll_updated_pllCon1 : pll (updated regs mipitxPllCon1 mask val) = { pll regs with
    fraEn := if mask.getLsbD 0 then val.getLsbD 0 else (pll regs).fraEn } := by
  simp only [pll, updated, Function.update_self, getLsbD_updateBits]
  rfl

theorem pll_updated_pllCon2 : pll (updated regs mipitxPllCon2 mask val) = { pll regs with
    pcw := (updateBits (regs mipitxPllCon2) mask val).extractLsb' 0 31 } := by
  simp only [pll, updated, Function.update_self]
  rfl

theorem pll_updated_pllCon0 : pll (updated regs mipitxPllCon0 mask val) = { pll regs with
    posdiv := (updateBits (regs mipitxPllCon0) mask val).extractLsb' 4 3
    en := if mask.getLsbD 0 then val.getLsbD 0 else (pll regs).en } := by
  simp only [pll, updated, Function.update_self, getLsbD_updateBits]
  rfl

/-- A write outside the PLL. -/
theorem pll_updated_of_ne {reg : ℕ} (h : reg = mipitxSwCtrl ∨ reg = mipitxTopCon) :
    pll (updated regs reg mask val) = pll regs := by
  rcases h with rfl | rfl <;> rfl

end Registers

abbrev Step := Pll → Pll

/-- Whatever the registers hold, this update of one of them is `f` for the PLL. -/
def Does (reg : ℕ) (mask val : BitVec 32) (f : Step) : Prop :=
  ∀ regs, pll (updated regs reg mask val) = f (pll regs)

theorem does_bg (mask val : BitVec 32) : Does mipitxBgCon mask val fun p => { p with
    coreEn := if mask.getLsbD 1 then val.getLsbD 1 else p.coreEn
    lpfEn := if mask.getLsbD 2 then val.getLsbD 2 else p.lpfEn } := fun regs => pll_updated_bgCon regs mask val

theorem does_pwr (mask val : BitVec 32) : Does mipitxPllPwr mask val fun p => { p with
    pwrOn := if mask.getLsbD 0 then val.getLsbD 0 else p.pwrOn
    isoEn := if mask.getLsbD 1 then val.getLsbD 1 else p.isoEn } := fun regs => pll_updated_pllPwr regs mask val

theorem does_pcw (pcw : UInt64) : Does mipitxPllCon2 rgDsiPllPcw (fieldPrep rgDsiPllPcw pcw)
    fun p => { p with pcw := pcw.toBitVec.setWidth 31 } := by
  intro regs
  rw [pll_updated_pllCon2, extractLsb'_updateBits_fieldPrep (by decide +kernel) (by decide +kernel)]

theorem does_posdiv (posdiv : UInt64) : Does mipitxPllCon0 rgDsiPllPosdiv (fieldPrep rgDsiPllPosdiv posdiv)
    fun p => { p with posdiv := posdiv.toBitVec.setWidth 3 } := by
  intro regs
  rw [pll_updated_pllCon0, extractLsb'_updateBits_fieldPrep (by decide +kernel) (by decide +kernel)]
  rfl

theorem does_en (val : BitVec 32) : Does mipitxPllCon0 rgDsiPllEn val
    fun p => { p with en := val.getLsbD 0 } := by
  intro regs
  rw [pll_updated_pllCon0, extractLsb'_updateBits_of_disjoint (by decide)]
  rfl

theorem does_chg (val : BitVec 32) : Does mipitxPllChg rgDsiPllPcwChg val
    fun p => { p with pcwChg := val.getLsbD 0 } := fun regs => pll_updated_pllChg regs _ val

theorem does_fra (val : BitVec 32) : Does mipitxPllCon1 rgDsiPllFraEn val
    fun p => { p with fraEn := val.getLsbD 0 } := fun regs => pll_updated_pllCon1 regs _ val

/-! ### Calls, write by write -/

/-- The states that a list of steps leads through, the first one included. -/
def passes : Pll → List Step → List Pll
  | p, [] => [p]
  | p, f :: steps => p :: passes (f p) steps

/-- The state that a list of steps leads to. -/
def reached (p : Pll) (steps : List Step) : Pll := steps.foldl (fun p f => f p) p

theorem reached_mem : ∀ (steps : List Step) (p : Pll), reached p steps ∈ passes p steps
  | [], _ => List.mem_cons_self
  | f :: steps, p => List.mem_cons_of_mem p (reached_mem steps (f p))

theorem passes_append (f : Step) (later : List Step) : ∀ (steps : List Step) (p : Pll),
    passes p (steps ++ f :: later) = passes p steps ++ passes (f (reached p steps)) later
  | [], _ => rfl
  | g :: steps, p => congrArg (p :: ·) (passes_append f later steps (g p))

theorem passes_concat (f : Step) (steps : List Step) (p : Pll) :
    passes p (steps ++ [f]) = passes p steps ++ [f (reached p steps)] := passes_append f [] steps p

theorem reached_concat (p : Pll) (steps : List Step) (f : Step) :
    reached p (steps ++ [f]) = f (reached p steps) := List.foldl_append

/-- `tx'` is what `tx` has become by some writes, and for the PLL these were `steps`. -/
structure Goes (tx : Tx) (steps : List Step) (tx' : Tx) : Prop where
  seen : ∃ new, tx'.seen = tx.seen ++ new ∧ (tx.regs :: new).map pll = passes (pll tx.regs) steps
  reaches : pll tx'.regs = reached (pll tx.regs) steps

section Goes

variable {tx tx' : Tx} {steps : List Step} {reg : ℕ} {mask val bits : BitVec 32} {f : Step}
  {E : Errno → Tx → Prop}

theorem Goes.refl : Goes tx [] tx := ⟨⟨[], (List.append_nil _).symm, rfl⟩, rfl⟩

theorem Goes.write (h : Goes tx steps tx') (hf : Does reg mask val f) :
    Goes tx (steps ++ [f]) (tx'.write (updated tx'.regs reg mask val)) := by
  obtain ⟨new, hseen, hnew⟩ := h.seen
  have hlast : pll (updated tx'.regs reg mask val) = f (reached (pll tx.regs) steps) := by
    rw [hf, h.reaches]
  refine ⟨⟨new ++ [updated tx'.regs reg mask val], ?_, ?_⟩, ?_⟩
  · rw [Tx.write, hseen, List.append_assoc]
  · rw [← List.cons_append, List.map_append, hnew, passes_concat, List.map_singleton, hlast]
  · rw [reached_concat]
    exact hlast

theorem mtkPhySetBits_goes (hf : Does reg bits bits f) :
    Ends (Goes tx steps) (mtkPhySetBits reg bits) (fun _ => Goes tx (steps ++ [f])) E := by
  intro tx' h
  have hgoes := h.write hf
  rwa [updated, ← or_eq_updateBits] at hgoes

theorem mtkPhyClearBits_goes (hf : Does reg bits 0 f) :
    Ends (Goes tx steps) (mtkPhyClearBits reg bits) (fun _ => Goes tx (steps ++ [f])) E := by
  intro tx' h
  have hgoes := h.write hf
  rwa [updated, ← and_not_eq_updateBits] at hgoes

theorem mtkPhyUpdateField_goes {val : UInt64} (hf : Does reg mask (fieldPrep mask val) f) :
    Ends (Goes tx steps) (mtkPhyUpdateField reg mask val) (fun _ => Goes tx (steps ++ [f])) E :=
  fun _ h => h.write hf

end Goes

/-- The writes that set the PLL up for a rate. -/
def loadSteps (pcw : BitVec 31) (posdiv : BitVec 3) : List Step := [
  fun p => { p with coreEn := true },
  fun p => { p with coreEn := true, lpfEn := true },
  fun p => { p with pwrOn := true },
  fun p => { p with isoEn := false },
  fun p => { p with pcw := pcw },
  fun p => { p with pcwChg := true },
  fun p => { p with pcwChg := false },
  fun p => { p with posdiv := posdiv },
  fun p => { p with fraEn := true }]

def enableStep : Step := fun p => { p with en := true }

def unprepareSteps : List Step := [
  fun p => { p with en := false },
  fun p => { p with isoEn := true },
  fun p => { p with pwrOn := false },
  fun p => { p with coreEn := false, lpfEn := false }]

section Calls

variable {tx : Tx} {E : Errno → Tx → Prop}

theorem pllEnable_goes (pcw : UInt64) (txdiv0 : UInt32) : Ends (Goes tx []) (pllEnable pcw txdiv0)
    (fun _ => Goes tx (loadSteps (pcw.toBitVec.setWidth 31) (txdiv0.toUInt64.toBitVec.setWidth 3) ++
      [enableStep])) E := by
  refine .bind (mtkPhySetBits_goes (does_bg _ _)) fun _ => ?_
  refine .bind (mtkPhySetBits_goes (does_bg _ _)) fun _ => ?_
  refine .bind (mtkPhySetBits_goes (does_pwr _ _)) fun _ => ?_
  refine .bind (mtkPhyClearBits_goes (does_pwr _ _)) fun _ => ?_
  refine .bind (mtkPhyUpdateField_goes (does_pcw pcw)) fun _ => ?_
  refine .bind (mtkPhySetBits_goes (does_chg _)) fun _ => ?_
  refine .bind (mtkPhyClearBits_goes (does_chg _)) fun _ => ?_
  refine .bind (mtkPhyUpdateField_goes (does_posdiv _)) fun _ => ?_
  refine .bind (mtkPhySetBits_goes (does_fra _)) fun _ => ?_
  exact mtkPhySetBits_goes (does_en _)

theorem pllUnprepare_goes : Ends (Goes tx []) pllUnprepare (fun _ => Goes tx unprepareSteps) E := by
  refine .bind (mtkPhyClearBits_goes (does_en _)) fun _ => ?_
  refine .bind (mtkPhySetBits_goes (does_pwr _ _)) fun _ => ?_
  refine .bind (mtkPhyClearBits_goes (does_pwr _ _)) fun _ => ?_
  exact mtkPhyClearBits_goes (does_bg _ _)

theorem powerOnSignal_goes : Ends (Goes tx []) powerOnSignal (fun _ => Goes tx [id, id]) E :=
  .bind (mtkPhyClearBits_goes fun regs => pll_updated_of_ne regs _ _ (.inl rfl)) fun _ =>
    mtkPhySetBits_goes fun regs => pll_updated_of_ne regs _ _ (.inr rfl)

theorem powerOffSignal_goes : Ends (Goes tx []) powerOffSignal (fun _ => Goes tx [id, id]) E :=
  .bind (mtkPhySetBits_goes fun regs => pll_updated_of_ne regs _ _ (.inl rfl)) fun _ =>
    mtkPhyClearBits_goes fun regs => pll_updated_of_ne regs _ _ (.inr rfl)

/-- A rate outside the table changes nothing but the log. -/
theorem pllPrepare_error {fmt : String} (h : pllDividers tx.dataRate = .error fmt) :
    pllPrepare tx = .error .EINVAL { tx with log := tx.log ++ [(fmt, tx.dataRate.toNat)] } := by
  unfold pllPrepare
  rw [bind_apply, get_apply]
  simp only [h]
  rfl

theorem outcome_of_goes {p : TxM Unit} {steps : List Step}
    (hp : Ends (Goes tx []) p (fun _ => Goes tx steps) fun _ _ => False) : outcome p tx = .ok () := by
  obtain ⟨_, hout, -⟩ := hp.returns Goes.refl
  exact hout

theorem pllPrepare_ok {d : Dividers} (h : pllDividers tx.dataRate = .ok d) :
    pllPrepare tx = pllEnable (pllPcw tx.dataRate d.txdiv) d.txdiv0 tx := by
  unfold pllPrepare
  rw [bind_apply, get_apply]
  simp only [h]

theorem outcome_pllPrepare_ok {d : Dividers} (h : pllDividers tx.dataRate = .ok d) :
    outcome pllPrepare tx = .ok () := by
  have hout : outcome (pllEnable (pllPcw tx.dataRate d.txdiv) d.txdiv0) tx = .ok () :=
    outcome_of_goes (pllEnable_goes _ _)
  rwa [outcome, pllPrepare_ok h]

end Calls

inductive Call where
  | prepare | unprepare
  | setRate (rate : UInt64)
  | powerOnSignal | powerOffSignal
  deriving DecidableEq

def Call.prog : Call → TxM Unit
  | .prepare => pllPrepare
  | .unprepare => pllUnprepare
  | .setRate rate => pllSetRate rate
  | .powerOnSignal => MipiTx.powerOnSignal
  | .powerOffSignal => MipiTx.powerOffSignal

def callStep (tx : Tx) (c : Call) : Tx := finalState c.prog tx

/-- The PLL before the first write of a call, between two of them and after the last. -/
def passed (tx : Tx) (c : Call) : List Pll :=
  (tx.regs :: (callStep tx c).seen.drop tx.seen.length).map pll

/-- What a call does to the PLL. -/
def callSteps (dataRate : UInt32) : Call → List Step
  | .prepare => match pllDividers dataRate with
    | .error _ => []
    | .ok d => loadSteps ((pllPcw dataRate d.txdiv).toBitVec.setWidth 31)
        (d.txdiv0.toUInt64.toBitVec.setWidth 3) ++ [enableStep]
  | .unprepare => unprepareSteps
  | .setRate _ => []
  | .powerOnSignal | .powerOffSignal => [id, id]

theorem callStep_goes (tx : Tx) (c : Call) : Goes tx (callSteps tx.dataRate c) (callStep tx c) := by
  cases c with
  | prepare =>
    rcases hd : pllDividers tx.dataRate with fmt | d
    · rw [callStep, Call.prog, finalState, pllPrepare_error hd, callSteps, hd]
      exact ⟨⟨[], (List.append_nil _).symm, rfl⟩, rfl⟩
    · rw [callStep, Call.prog, finalState, pllPrepare_ok hd, callSteps, hd]
      exact (pllEnable_goes _ _).final Goes.refl
  | unprepare => exact pllUnprepare_goes.final Goes.refl
  | setRate rate => exact ⟨⟨[], (List.append_nil _).symm, rfl⟩, rfl⟩
  | powerOnSignal => exact powerOnSignal_goes.final Goes.refl
  | powerOffSignal => exact powerOffSignal_goes.final Goes.refl

theorem passed_eq (tx : Tx) (c : Call) : passed tx c = passes (pll tx.regs) (callSteps tx.dataRate c) := by
  obtain ⟨new, hseen, hnew⟩ := (callStep_goes tx c).seen
  rw [passed, hseen, List.drop_left, hnew]

/-! ### The order -/

/-- An enabled PLL has bias and power, and is not isolated. -/
def Pll.Powered (p : Pll) : Prop :=
  p.en = true → p.pwrOn = true ∧ p.isoEn = false ∧ p.coreEn = true ∧ p.lpfEn = true

def Pll.Off (p : Pll) : Prop :=
  p.en = false ∧ p.pwrOn = false ∧ p.isoEn = true ∧ p.coreEn = false ∧ p.lpfEn = false

/-- The fields of `q` are those for the rate, and before it PCW was loaded by a pulse of PCW_CHG. -/
def Loaded (dataRate : UInt32) (before : List Pll) (q : Pll) : Prop :=
  ∃ d, pllDividers dataRate = .ok d ∧ q.pcw.toNat = (pllPcw dataRate d.txdiv).toNat ∧
    q.posdiv.toNat = d.txdiv0.toNat ∧ q.pcwChg = false ∧
      ∃ earlier p later, before = earlier ++ p :: later ∧ p.pcwChg = true ∧
        ∀ r ∈ p :: later, r.pcw = q.pcw

structure Ordered (dataRate : UInt32) (ps : List Pll) : Prop where
  powered : ∀ p ∈ ps, p.Powered
  released : ps.IsChain fun p q => p.isoEn = true → q.isoEn = false → p.pwrOn = true ∧ q.pwrOn = true
  loaded : ∀ before p q after, ps = before ++ p :: q :: after → p.en = false → q.en = true →
    Loaded dataRate (before ++ [p]) q

theorem mem_tail_of_split {α : Type} {l before after : List α} {a b : α}
    (h : l = before ++ a :: b :: after) : b ∈ l.tail := by
  subst h
  cases before <;> simp

theorem ordered_unprepare {dataRate : UInt32} {p : Pll} (hp : p.Powered) :
    Ordered dataRate (passes p unprepareSteps) := by
  refine ⟨?_, ?_, ?_⟩
  · simp [passes, unprepareSteps, Pll.Powered]
    exact hp
  · simp +contextual [passes, unprepareSteps]
  · intro before p' q after h _ hq
    have hmem := mem_tail_of_split h
    have hoff : ∀ r ∈ (passes p unprepareSteps).tail, r.en = false := by simp [passes, unprepareSteps]
    rw [hoff q hmem] at hq
    cases hq

/-- If only the last state is enabled, that is where EN rises. -/
theorem split_at_last {ps before after : List Pll} {p q last : Pll} (hoff : ∀ r ∈ ps, r.en = false)
    (h : ps ++ [last] = before ++ p :: q :: after) (hq : q.en = true) : before ++ [p] = ps ∧ q = last := by
  rcases after.eq_nil_or_concat with rfl | ⟨after, r, rfl⟩
  · rw [List.append_cons before] at h
    obtain ⟨hps, hlast⟩ := List.append_inj' h rfl
    exact ⟨hps.symm, (List.cons.inj hlast).1.symm⟩
  · rw [List.concat_eq_append, ← List.cons_append, ← List.cons_append, ← List.append_assoc] at h
    have hps : ps = before ++ p :: q :: after := (List.append_inj' h rfl).1
    have hmem : q ∈ ps := by simp [hps]
    rw [hoff q hmem] at hq
    cases hq

/-- On the way PCW is set, PCW_CHG is raised, and PCW stays. -/
theorem pulse_of_loadSteps (p : Pll) (pcw : BitVec 31) (posdiv : BitVec 3) :
    ∃ earlier q later, passes p (loadSteps pcw posdiv) = earlier ++ q :: later ∧ q.pcwChg = true ∧
      ∀ r ∈ q :: later, r.pcw = pcw := by
  refine ⟨passes p ((loadSteps pcw posdiv).take 5), _, _, rfl, rfl, ?_⟩
  simp [passes]

theorem ordered_enable {dataRate : UInt32} {d : Dividers} (hd : pllDividers dataRate = .ok d)
    {pcw : BitVec 31} (hpcw : pcw.toNat = (pllPcw dataRate d.txdiv).toNat) {posdiv : BitVec 3}
    (hposdiv : posdiv.toNat = d.txdiv0.toNat) {p : Pll} (hp : p.Powered) :
    Ordered dataRate (passes p (loadSteps pcw posdiv ++ [enableStep])) := by
  refine ⟨?_, ?_, ?_⟩
  · simp [passes, enableStep, loadSteps, Pll.Powered] at hp ⊢
    grind
  · simp +contextual [passes, enableStep, loadSteps]
  · intro before p' q after h hp' hq
    rw [passes_concat] at h
    have hkept : ∀ r ∈ passes p (loadSteps pcw posdiv), r.en = p.en := by simp [passes, loadSteps]
    rcases hen : p.en with _ | _
    · obtain ⟨hbefore, rfl⟩ := split_at_last (fun r hr => (hkept r hr).trans hen) h hq
      rw [hbefore]
      exact ⟨d, hd, hpcw, hposdiv, rfl, pulse_of_loadSteps p pcw posdiv⟩
    · have hmem : p' ∈ passes p (loadSteps pcw posdiv) ++ [enableStep (reached p (loadSteps pcw posdiv))] := by
        simp [h]
      rcases List.mem_append.mp hmem with hmem | hmem
      · rw [hkept p' hmem, hen] at hp'
        cases hp'
      · rw [List.mem_singleton.mp hmem] at hp'
        cases hp'

/-- A call that leaves the PLL as it is. -/
theorem ordered_replicate (dataRate : UInt32) (n : ℕ) {p : Pll} (hp : p.Powered) :
    Ordered dataRate (List.replicate n p) := by
  refine ⟨?_, ?_, ?_⟩
  · intro q hq
    rwa [List.eq_of_mem_replicate hq]
  · refine List.isChain_replicate_of_rel n fun hon hoff => ?_
    rw [hon] at hoff
    cases hoff
  · intro before p' q after h hp' hq
    have hmem : ∀ r ∈ before ++ p' :: q :: after, r = p := by
      rw [← h]
      exact fun r hr => List.eq_of_mem_replicate hr
    rw [hmem p' (by simp)] at hp'
    rw [hmem q (by simp), hp'] at hq
    cases hq

theorem ordered_callSteps (dataRate : UInt32) {p : Pll} (hp : p.Powered) (c : Call) :
    Ordered dataRate (passes p (callSteps dataRate c)) := by
  cases c with
  | prepare =>
    rw [callSteps]
    rcases hd : pllDividers dataRate with fmt | d
    · exact ordered_replicate dataRate 1 hp
    · obtain ⟨k, hk, rfl⟩ := exists_row_of_ok hd
      refine ordered_enable hd ?_ ?_ hp
      · rw [BitVec.toNat_setWidth]
        exact Nat.mod_eq_of_lt (pllPcw_lt hk)
      · have hk5 := lt_five_of_mem_rowRates hk
        interval_cases k <;> rfl
  | unprepare => exact ordered_unprepare hp
  | setRate rate => exact ordered_replicate dataRate 1 hp
  | powerOnSignal => exact ordered_replicate dataRate 3 hp
  | powerOffSignal => exact ordered_replicate dataRate 3 hp

/-! ### Runs -/

/-- A call goes through the PLL's states in order, and one that fails writes no register. -/
def Sequenced (tx : Tx) (c : Call) : Prop :=
  Ordered tx.dataRate (passed tx c) ∧
    ∀ e, outcome c.prog tx = .error e →
      e = .EINVAL ∧ (callStep tx c).seen = tx.seen ∧ (callStep tx c).regs = tx.regs

theorem powered_callStep {tx : Tx} (h : (pll tx.regs).Powered) (c : Call) :
    (pll (callStep tx c).regs).Powered := by
  rw [(callStep_goes tx c).reaches]
  exact (ordered_callSteps tx.dataRate h c).powered _ (reached_mem ..)

theorem failed_callStep {tx : Tx} {c : Call} {e : Errno} (h : outcome c.prog tx = .error e) :
    e = .EINVAL ∧ (callStep tx c).seen = tx.seen ∧ (callStep tx c).regs = tx.regs := by
  cases c with
  | prepare =>
    rw [Call.prog] at h
    rw [callStep, Call.prog]
    rcases hd : pllDividers tx.dataRate with fmt | d
    · rw [outcome, pllPrepare_error hd] at h
      rw [finalState, pllPrepare_error hd]
      cases h
      exact ⟨rfl, rfl, rfl⟩
    · rw [outcome_pllPrepare_ok hd] at h
      cases h
  | unprepare =>
    rw [Call.prog, outcome_of_goes pllUnprepare_goes] at h
    cases h
  | setRate rate => cases h
  | powerOnSignal =>
    rw [Call.prog, outcome_of_goes powerOnSignal_goes] at h
    cases h
  | powerOffSignal =>
    rw [Call.prog, outcome_of_goes powerOffSignal_goes] at h
    cases h

/-- The PLL is switched off by an unprepare, whatever it finds. -/
theorem off_of_unprepare (tx : Tx) : (pll (callStep tx .unprepare).regs).Off := by
  rw [(callStep_goes tx .unprepare).reaches]
  exact ⟨rfl, rfl, rfl, rfl, rfl⟩

theorem sequenced_callStep {tx : Tx} (h : (pll tx.regs).Powered) (c : Call) : Sequenced tx c := by
  refine ⟨?_, fun e he => failed_callStep he⟩
  rw [passed_eq]
  exact ordered_callSteps tx.dataRate h c

/-- Throughout a run of calls the PLL is powered up, loaded and enabled in order; and whatever the
    registers held before, after a prepare and an unprepare it is off. -/
theorem pll_sequenced {tx : Tx} (htx : (pll tx.regs).Powered) (calls : List Call) :
    Steps callStep Sequenced tx calls ∧
      ∀ tx' : Tx, (pll (run callStep tx' [.prepare, .unprepare]).regs).Off := by
  have hpowered : ∀ (tx : Tx) c, (pll tx.regs).Powered → (pll (callStep tx c).regs).Powered :=
    fun _ c h => powered_callStep h c
  have hsequenced : ∀ (tx : Tx) c, (pll tx.regs).Powered → Sequenced tx c :=
    fun _ c h => sequenced_callStep h c
  exact ⟨steps_of_inv hpowered hsequenced htx calls, fun _ => off_of_unprepare _⟩

/-- The PLL as a bootloader leaves it that has used the panel. -/
def leftOn : Tx where
  regs := fun reg => if reg = mipitxBgCon then 0x6 else if reg = mipitxPllPwr ∨ reg = mipitxPllCon0 then 1 else 0
  dataRate := 0
  seen := []
  log := []

theorem pll_sequenced_leftOn :
    Steps callStep Sequenced leftOn [.setRate 936000000, .unprepare, .prepare] ∧
      ∀ tx' : Tx, (pll (run callStep tx' [.prepare, .unprepare]).regs).Off :=
  pll_sequenced (fun _ => ⟨rfl, rfl, rfl, rfl⟩) _

end GeminiLinux.MipiTx
