import GeminiLinux.Gpio.Aw9523b
import GeminiLinux.Lib.Runs

/-! The register driver as sixteen independent lines. A line has a direction and an output latch; a call of
    the driver changes its own line and no other.

        calls:      direction_input o, direction_output o v, set o v, ...
        lines       l ──────▶ l'          one line changes
                    │         │
        CFG, OUT   regs ───▶ regs'        one bit of a byte, or one of each of two bytes -/

namespace GeminiLinux.Aw9523b
open Prog Regmap Runs

/-! ### Lines and calls -/

structure Line where
  input : Bool
  out : Bool
  deriving DecidableEq

abbrev Lines := Fin 16 → Line

/-- The calls of the `gpio_chip` operations; between two calls the levels at the pins may change. -/
inductive Call where
  | directionInput (offset : Fin 16)
  | directionOutput (offset : Fin 16) (value : ℤ)
  | set (offset : Fin 16) (value : ℤ)
  | get (offset : Fin 16)
  | getDirection (offset : Fin 16)
  | pins (levels : BitVec 16)

def Call.prog : Call → AwM Unit
  | .directionInput offset => Aw9523b.directionInput offset
  | .directionOutput offset value => Aw9523b.directionOutput offset value
  | .set offset value => Aw9523b.set offset value
  | .get offset => do let _ ← Aw9523b.get offset
  | .getDirection offset => do let _ ← Aw9523b.getDirection offset
  | .pins levels => modify fun aw => { aw with pins := levels }

/-- What a call is meant to do. -/
def callLines (l : Lines) : Call → Lines
  | .directionInput o => Function.update l o { l o with input := true }
  | .directionOutput o value => Function.update l o { input := false, out := value ≠ 0 }
  | .set o value => Function.update l o { l o with out := value ≠ 0 }
  | .get _ | .getDirection _ | .pins _ => l

/-- The line a call sets something of. -/
def Call.sets : Call → Option (Fin 16)
  | .directionInput o | .directionOutput o _ | .set o _ => some o
  | .get _ | .getDirection _ | .pins _ => none

/-- The bit of a line in a register of its port. -/
def bitAt (regs : ℕ → BitVec 8) (p0Reg offset : ℕ) : Bool :=
  (regs (portReg offset p0Reg)).getLsbD (portBit offset)

/-- CFG and OUT say of every line what the lines say. -/
def Encodes (l : Lines) (regs : ℕ → BitVec 8) : Prop :=
  ∀ o : Fin 16, bitAt regs regP0Cfg o = (l o).input ∧ bitAt regs regP0Out o = (l o).out

/-- The pin is driven to the level. -/
def Drives (regs : ℕ → BitVec 8) (o : ℕ) (level : Bool) : Prop :=
  bitAt regs regP0Cfg o = false ∧ bitAt regs regP0Out o = level

/-! ### One bit of one byte -/

theorem portBit_lt (o : Fin 16) : portBit o < 8 := by
  unfold portBit portSize
  have := o.isLt
  split_ifs <;> omega

theorem getLsbD_lineBit (o : Fin 16) (i : ℕ) : (lineBit o).getLsbD i = decide (portBit o = i) := by
  rw [lineBit, BitVec.getLsbD_twoPow, decide_eq_true (portBit_lt o), Bool.true_and]

theorem and_lineBit_ne_zero (o : Fin 16) (val : BitVec 8) :
    val &&& lineBit o ≠ 0 ↔ val.getLsbD (portBit o) = true := by
  rw [lineBit, BitVec.and_twoPow]
  cases hbit : val.getLsbD (portBit o) with
  | false => simp
  | true =>
    refine ⟨fun _ => rfl, ?_⟩
    intro _ hzero
    have hbit := congrArg (·.getLsbD (portBit o)) hzero
    simp [portBit_lt o] at hbit

/-- A line has its own bit in its own register. -/
theorem portReg_portBit_inj {o o' : Fin 16} {reg : ℕ} (hreg : portReg o reg = portReg o' reg)
    (hbit : portBit o = portBit o') : o = o' := by
  unfold portReg portBit portSize at *
  ext
  split_ifs at * <;> omega

/-- An update of a line's bit is one of that line alone. -/
theorem bitAt_updated (regs : ℕ → BitVec 8) (reg : ℕ) (o o' : Fin 16) (val : BitVec 8) :
    bitAt (updated regs (portReg o reg) (lineBit o) val) reg o' =
      if o' = o then val.getLsbD (portBit o) else bitAt regs reg o' := by
  unfold bitAt updated
  by_cases hreg : portReg o' reg = portReg o reg
  · rw [hreg, Function.update_self, getLsbD_updateBits, getLsbD_lineBit]
    by_cases ho : o' = o
    · subst ho
      simp
    · have hbit : portBit o ≠ portBit o' := fun h => ho (portReg_portBit_inj hreg h.symm)
      simp [hbit, ho]
  · have ho : o' ≠ o := fun h => hreg (h ▸ rfl)
    rw [Function.update_of_ne hreg, if_neg ho]

/-- The registers that hold something of a line. -/
def LineReg (reg : ℕ) : Prop := reg = regP0Out ∨ reg = regP0Cfg

/-- OUT and CFG do not share a register. -/
theorem portReg_ne {reg reg' : ℕ} (hreg : LineReg reg) (hreg' : LineReg reg') (hne : reg ≠ reg')
    (o o' : ℕ) : portReg o reg ≠ portReg o' reg' := by
  unfold LineReg regP0Out regP0Cfg at *
  unfold portReg
  split_ifs <;> omega

theorem bitAt_updated_other {reg reg' : ℕ} (hreg : LineReg reg) (hreg' : LineReg reg') (hne : reg' ≠ reg)
    (regs : ℕ → BitVec 8) (o o' : ℕ) (mask val : BitVec 8) :
    bitAt (updated regs (portReg o reg) mask val) reg' o' = bitAt regs reg' o' := by
  unfold bitAt updated
  rw [Function.update_of_ne (portReg_ne hreg' hreg hne o' o)]

/-- Updates of the bits of two lines may change places. -/
theorem updated_comm_lines {o o' : Fin 16} (ho : o ≠ o') {reg reg' : ℕ} (hreg : LineReg reg)
    (hreg' : LineReg reg') (regs : ℕ → BitVec 8) (val val' : BitVec 8) :
    updated (updated regs (portReg o reg) (lineBit o) val) (portReg o' reg') (lineBit o') val' =
      updated (updated regs (portReg o' reg') (lineBit o') val') (portReg o reg) (lineBit o) val := by
  refine updated_comm (fun hport => ?_) val val'
  have hsame : reg = reg' := not_not.mp fun hne => portReg_ne hreg hreg' hne o o' hport
  subst hsame
  have hbit : portBit o ≠ portBit o' := fun hbit => ho (portReg_portBit_inj hport hbit)
  apply BitVec.eq_of_getLsbD_eq
  intro i _
  rw [BitVec.getLsbD_and, getLsbD_lineBit, getLsbD_lineBit, BitVec.getLsbD_zero]
  by_cases hi : portBit o = i
  · subst hi
    simp [Ne.symm hbit]
  · simp [hi]

/-! ### What a call does to the registers -/

/-- `value ? BIT(...) : 0`. -/
def valueBit (o : Fin 16) (value : ℤ) : BitVec 8 := if value ≠ 0 then lineBit o else 0

/-- The output latch set to a value. -/
def latchRegs (o : Fin 16) (value : ℤ) (regs : ℕ → BitVec 8) : ℕ → BitVec 8 :=
  updated regs (portReg o regP0Out) (lineBit o) (valueBit o value)

def callRegs (regs : ℕ → BitVec 8) : Call → ℕ → BitVec 8
  | .directionInput o => updated regs (portReg o regP0Cfg) (lineBit o) (lineBit o)
  | .directionOutput o value => updated (latchRegs o value regs) (portReg o regP0Cfg) (lineBit o) 0
  | .set o value => latchRegs o value regs
  | .get _ | .getDirection _ | .pins _ => regs

theorem getLsbD_valueBit (o : Fin 16) (value : ℤ) :
    (valueBit o value).getLsbD (portBit o) = decide (value ≠ 0) := by
  unfold valueBit
  split_ifs with h
  · rw [getLsbD_lineBit, decide_eq_true rfl, decide_eq_true h]
  · rw [decide_eq_false h]
    exact BitVec.getLsbD_zero

theorem bitAt_latchRegs_out (regs : ℕ → BitVec 8) (o o' : Fin 16) (value : ℤ) :
    bitAt (latchRegs o value regs) regP0Out o' = 
      if o' = o then decide (value ≠ 0) else bitAt regs regP0Out o' := by
  rw [latchRegs, bitAt_updated, getLsbD_valueBit]

theorem bitAt_latchRegs_cfg (regs : ℕ → BitVec 8) (o : Fin 16) (o' : ℕ) (value : ℤ) :
    bitAt (latchRegs o value regs) regP0Cfg o' = bitAt regs regP0Cfg o' :=
  bitAt_updated_other (.inl rfl) (.inr rfl) (by decide) ..

/-- A call does to the registers what it does to the lines. -/
theorem encodes_call {l : Lines} {regs : ℕ → BitVec 8} (h : Encodes l regs) (c : Call) :
    Encodes (callLines l c) (callRegs regs c) := by
  intro o'
  obtain ⟨hcfg, hout⟩ := h o'
  cases c with
  | directionInput o =>
    rw [callRegs, callLines, bitAt_updated, bitAt_updated_other (.inr rfl) (.inl rfl) (by decide),
      getLsbD_lineBit, decide_eq_true rfl]
    by_cases ho : o' = o
    · subst ho
      rw [if_pos rfl, Function.update_self]
      exact ⟨rfl, hout⟩
    · rw [if_neg ho, Function.update_of_ne ho]
      exact ⟨hcfg, hout⟩
  | directionOutput o value =>
    rw [callRegs, callLines, bitAt_updated, bitAt_updated_other (.inr rfl) (.inl rfl) (by decide),
      bitAt_latchRegs_out, bitAt_latchRegs_cfg]
    by_cases ho : o' = o
    · subst ho
      rw [if_pos rfl, if_pos rfl, Function.update_self]
      exact ⟨BitVec.getLsbD_zero, rfl⟩
    · rw [if_neg ho, if_neg ho, Function.update_of_ne ho]
      exact ⟨hcfg, hout⟩
  | set o value =>
    rw [callRegs, callLines, bitAt_latchRegs_out, bitAt_latchRegs_cfg]
    by_cases ho : o' = o
    · subst ho
      rw [if_pos rfl, Function.update_self]
      exact ⟨hcfg, rfl⟩
    · rw [if_neg ho, Function.update_of_ne ho]
      exact ⟨hcfg, hout⟩
  | get o => exact ⟨hcfg, hout⟩
  | getDirection o => exact ⟨hcfg, hout⟩
  | pins levels => exact ⟨hcfg, hout⟩

/-- Calls that set something of different lines may change places. -/
theorem callRegs_comm {c c' : Call} {o o' : Fin 16} (hc : c.sets = some o) (hc' : c'.sets = some o')
    (ho : o ≠ o') (regs : ℕ → BitVec 8) : callRegs (callRegs regs c) c' =
      callRegs (callRegs regs c') c := by
  have hswap := @updated_comm_lines o o' ho
  cases c <;> cases c' <;> cases hc <;> cases hc' <;>
    simp only [callRegs, latchRegs, hswap (.inl rfl) (.inl rfl), hswap (.inl rfl) (.inr rfl),
      hswap (.inr rfl) (.inl rfl), hswap (.inr rfl) (.inr rfl)]

/-! ### What the driver does -/

section Holding

variable {regs : ℕ → BitVec 8} {seen : List (ℕ → BitVec 8)} {levels : BitVec 16}

/-- The registers hold `regs` and have gone through `seen`; no transfer fails. -/
def Holding (regs : ℕ → BitVec 8) (seen : List (ℕ → BitVec 8)) (levels : BitVec 16) (aw : Aw) : Prop :=
  Holds cached regs seen aw.map ∧ aw.pins = levels

theorem onMap_holding {α : Type} {p : MapM 8 α} {Q : α → Map 8 → Prop}
    (h : Ends (Holds cached regs seen) p Q fun _ _ => False) :
    Ends (Holding regs seen levels) (onMap p) (fun a aw => Q a aw.map ∧ aw.pins = levels)
      fun _ _ => False :=
  h.zoom (fun _ hs => hs.1) (fun _ _ _ hs hq => ⟨hq, hs.2⟩) fun _ _ _ _ he => he

theorem updateBits_holding (reg : ℕ) (mask val : BitVec 8) :
    Ends (Holding regs seen levels) (regmapUpdateBits reg mask val)
      (fun _ aw => ∃ writes, (∀ r ∈ writes, r = updated regs reg mask val) ∧
        Holding (updated regs reg mask val) (seen ++ writes) levels aw) fun _ _ => False :=
  (onMap_holding (regmapUpdateBits_holds reg mask val)).returning fun _ _ ⟨⟨writes, hwrites, h⟩, hpins⟩ =>
    ⟨writes, hwrites, h, hpins⟩

/-- The latch is written before the direction. -/
theorem directionOutput_holding (o : Fin 16) (value : ℤ) :
    Ends (Holding regs seen levels) (directionOutput o value)
      (fun _ aw => ∃ writes, (∀ r ∈ writes, r = latchRegs o value regs ∨
          r = callRegs regs (.directionOutput o value)) ∧
        Holding (callRegs regs (.directionOutput o value)) (seen ++ writes) levels aw)
          fun _ _ => False := by
  refine .bind (updateBits_holding _ _ _) fun _ => .of_exists fun latch => .of_and fun hlatch => ?_
  refine (updateBits_holding _ _ _).returning fun _ aw h => ?_
  obtain ⟨cfg, hcfg, h⟩ := h
  refine ⟨latch ++ cfg, ?_, by rw [← List.append_assoc]; exact h⟩
  intro r hr
  rcases List.mem_append.mp hr with hr | hr
  · exact .inl (hlatch r hr)
  · exact .inr (hcfg r hr)

theorem getDirection_holding (o : Fin 16) :
    Ends (Holding regs seen levels) (getDirection o)
      (fun v aw => v = (if bitAt regs regP0Cfg o then gpioLineDirectionIn else gpioLineDirectionOut) ∧
        Holding regs seen levels aw) fun _ _ => False := by
  have hcached : cached (portReg o regP0Cfg) = true := by
    unfold portReg
    split_ifs <;> rfl
  unfold getDirection regmapRead
  rw [if_pos hcached]
  refine .bind (onMap_holding (regmapRead_holds _)) fun val => .pure fun aw h => ?_
  obtain ⟨⟨hval, hmap⟩, hpins⟩ := h
  refine ⟨?_, hmap, hpins⟩
  rw [hval]
  exact if_congr (and_lineBit_ne_zero o _) rfl rfl

/-- The byte of a line's port has the line's level at its bit. -/
theorem getLsbD_portLevels (o : Fin 16) :
    (portLevels levels (portReg o regP0In)).getLsbD (portBit o) = levels.getLsbD o := by
  have hline : portReg o regP0In * portSize + portBit o = o := by
    have := o.isLt
    unfold portReg portBit portSize regP0In
    split_ifs <;> omega
  rw [portLevels, BitVec.getLsbD_extractLsb', hline, decide_eq_true (portBit_lt o), Bool.true_and]

theorem get_holding (o : Fin 16) :
    Ends (Holding regs seen levels) (get o)
      (fun v aw => v = (if levels.getLsbD o then 1 else 0) ∧ Holding regs seen levels aw)
      fun _ _ => False := by
  have hvolatile : ¬ cached (portReg o regP0In) = true := by
    unfold portReg
    split_ifs <;> decide
  unfold get regmapRead
  rw [if_neg hvolatile]
  refine .bind (I := fun val aw => val = portLevels levels (portReg o regP0In) ∧
    Holding regs seen levels aw)
    (.bind (onMap_holding transfer_holds) fun _ => .modifyGet fun aw h => ⟨by rw [h.2], h.1, h.2⟩)
    fun val => .of_and fun hval => .pure fun aw h => ⟨?_, h⟩
  rw [hval]
  exact if_congr ((and_lineBit_ne_zero o _).trans (by rw [getLsbD_portLevels])) rfl rfl

theorem set_holding (o : Fin 16) (value : ℤ) :
    Ends (Holding regs seen levels) (set o value)
      (fun _ aw => ∃ writes, Holding (latchRegs o value regs) (seen ++ writes) levels aw)
        fun _ _ => False :=
  .bind (I := fun _ aw => ∃ writes, Holding (latchRegs o value regs) (seen ++ writes) levels aw)
    (.attempt ((updateBits_holding _ _ (valueBit o value)).post (fun _ _ ⟨writes, _, h⟩ => ⟨writes, h⟩)
      fun _ _ h => h.elim)) fun _ => .pure fun _ h => h

theorem call_holding (c : Call) : Ends (Holding regs seen levels) c.prog
    (fun _ aw => ∃ writes levels', Holding (callRegs regs c) (seen ++ writes) levels' aw)
      fun _ _ => False := by
  cases c with
  | directionInput o =>
    exact (updateBits_holding _ _ _).returning fun _ _ ⟨writes, _, h⟩ => ⟨writes, levels, h⟩
  | directionOutput o value =>
    exact (directionOutput_holding o value).returning fun _ _ ⟨writes, _, h⟩ => ⟨writes, levels, h⟩
  | set o value =>
    exact (set_holding o value).returning fun _ _ ⟨writes, h⟩ => ⟨writes, levels, h⟩
  | get o =>
    exact .bind (get_holding o) fun _ => .pure fun _ h => ⟨[], levels, by rw [List.append_nil]; exact h.2⟩
  | getDirection o =>
    exact .bind (getDirection_holding o) fun _ => .pure fun _ h =>
      ⟨[], levels, by rw [List.append_nil]; exact h.2⟩
  | pins levels' =>
    exact .modify fun aw h => ⟨[], levels', by rw [List.append_nil]; exact ⟨h.1, rfl⟩⟩

end Holding

/-! ### Runs of calls -/

/-- The register map is sound and its registers encode the lines. -/
structure Tracks (l : Lines) (aw : Aw) : Prop where
  sound : Sound cached aw.map
  encodes : Encodes l aw.map.regs

theorem Tracks.holding {l : Lines} {aw : Aw} (h : Tracks l aw) :
    Holding aw.map.regs aw.map.seen aw.pins aw := ⟨h.sound, rfl⟩

/-- The driver takes a call. -/
def callStep (aw : Aw) (c : Call) : Aw := finalState c.prog aw

theorem callStep_regs {l : Lines} {aw : Aw} (h : Tracks l aw) (c : Call) :
    Sound cached (callStep aw c).map ∧ (callStep aw c).map.regs = callRegs aw.map.regs c := by
  obtain ⟨_, -, writes, levels, hmap, -⟩ := (call_holding c).returns h.holding
  exact ⟨⟨hmap.coherent, hmap.xfers, rfl, rfl⟩, hmap.regs⟩

theorem tracks_call {l : Lines} {aw : Aw} (h : Tracks l aw) (c : Call) :
    Tracks (callLines l c) (callStep aw c) := by
  obtain ⟨hsound, hregs⟩ := callStep_regs h c
  exact ⟨hsound, hregs ▸ encodes_call h.encodes c⟩

/-- The driver and the lines take a call together. -/
def bothStep (p : Lines × Aw) (c : Call) : Lines × Aw := (callLines p.1 c, callStep p.2 c)

/-- What the driver is to its callers while it tracks the lines `l`. -/
structure Independent (l : Lines) (aw : Aw) : Prop where
  /-- CFG and OUT are the lines. -/
  encodes : Encodes l aw.map.regs
  direction : ∀ o : Fin 16, outcome (getDirection o) aw =
    .ok (if (l o).input then gpioLineDirectionIn else gpioLineDirectionOut)
  level : ∀ o : Fin 16, outcome (get o) aw = .ok (if aw.pins.getLsbD o then 1 else 0)
  commute : ∀ c c' : Call, ∀ o o', c.sets = some o → c'.sets = some o' → o ≠ o' →
    (run callStep aw [c, c']).map.regs = (run callStep aw [c', c]).map.regs
  /-- No contents that the registers go through while an input becomes an output drive the other level. -/
  glitchFree : ∀ (o : Fin 16) (value : ℤ), (l o).input = true →
    ∃ writes, (callStep aw (.directionOutput o value)).map.seen = aw.map.seen ++ writes ∧
      ∀ r ∈ writes, ¬ Drives r o (!decide (value ≠ 0))

theorem Tracks.independent {l : Lines} {aw : Aw} (h : Tracks l aw) : Independent l aw where
  encodes := h.encodes
  direction o := by
    obtain ⟨v, hout, hv, -⟩ := (getDirection_holding o).returns h.holding
    rw [hout, hv, (h.encodes o).1]
  level o := by
    obtain ⟨v, hout, hv, -⟩ := (get_holding o).returns h.holding
    rw [hout, hv]
  commute c c' o o' hc hc' ho := by
    simp only [run_cons, run_nil]
    rw [(callStep_regs (tracks_call h c) c').2, (callStep_regs (tracks_call h c') c).2,
      (callStep_regs h c).2, (callStep_regs h c').2, callRegs_comm hc hc' ho]
  glitchFree o value hinput := by
    obtain ⟨_, -, writes, hwrites, hmap, -⟩ := (directionOutput_holding o value).returns h.holding
    refine ⟨writes, hmap.seen, ?_⟩
    intro r hr hdrives
    obtain ⟨hcfg, hout⟩ := hdrives
    rcases hwrites r hr with rfl | rfl
    · rw [bitAt_latchRegs_cfg, (h.encodes o).1, hinput] at hcfg
      cases hcfg
    · have hnew := (encodes_call h.encodes (.directionOutput o value) o).2
      rw [hout, callLines, Function.update_self] at hnew
      cases hd : decide (value ≠ 0) <;> rw [hd] at hnew <;> cases hnew

/-! ### After probe -/

/-- No transfer fails. -/
def NoFailure (aw : Aw) : Prop := ∀ k, aw.map.xfers.get k = .ok ()

/-- The registers hold `regs`, whatever they have gone through. -/
def Now (regs : ℕ → BitVec 8) (aw : Aw) : Prop := ∃ seen, Holds cached regs seen aw.map

/-- The register map is sound and all lines are inputs. -/
def Ready (aw : Aw) : Prop := ∃ regs, (regs regP0Cfg = 0xff ∧ regs regP1Cfg = 0xff) ∧ Now regs aw

theorem orErrProbe_ends {α : Type} {P : Aw → Prop} {p : AwM α} {Q : α → Aw → Prop}
    (h : Ends P p Q fun _ _ => True) (fmt : String) : Ends P (orErrProbe p fmt) Q fun _ _ => True :=
  .onError h fun _ => .cases (fun _ => .pure fun _ _ => trivial) fun _ => .modify fun _ _ => trivial

theorem writeReg_ends (regs : ℕ → BitVec 8) (reg : ℕ) (val : BitVec 8) :
    Ends (Now regs) (writeReg reg val) (fun _ => Now (Function.update regs reg val)) fun _ _ => True :=
  .of_exists fun _ => .onError (F := fun _ _ => False)
    ((regmapWrite_holds reg val).zoom (fun _ h => h) (fun _ _ _ _ h => ⟨_, h⟩) fun _ _ _ _ h => h)
    fun _ _ h => h.elim

theorem regmapRead_ends (regs : ℕ → BitVec 8) (reg : ℕ) :
    Ends (Now regs) (regmapRead reg) (fun _ => Now regs) fun _ _ => False := by
  refine .of_exists fun seen => .cases (fun _ => ?_) fun _ => .bind ?_ fun _ => .modifyGet fun _ h => h
  · exact (regmapRead_holds reg).zoom (fun _ h => h) (fun _ _ _ _ h => ⟨seen, h.2⟩) fun _ _ _ _ h => h
  · exact transfer_holds.zoom (fun _ h => h) (fun _ _ _ _ h => ⟨seen, h⟩) fun _ _ _ _ h => h

/-- Nothing is cached yet when the chip is told to reset. -/
def Fresh (aw : Aw) : Prop := NoFailure aw ∧ aw.map.cache = fun _ => none

/-- The reset goes to the bus, and the cache knows of nothing else. -/
def ResetSent (aw : Aw) : Prop := NoFailure aw ∧ aw.map.regs regReset = 0x00 ∧
  aw.map.cache = Function.update (fun _ => none) regReset (some 0x00)

theorem reset_ends : Ends Fresh (writeReg regReset 0x00) (fun _ => ResetSent) fun _ _ => True := by
  have hwrite : Ends (fun m : Map 8 => (∀ k, m.xfers.get k = .ok ()) ∧ m.cache = fun _ => none)
      (Regmap.regmapWrite cached regReset 0x00) (fun _ m => (∀ k, m.xfers.get k = .ok ()) ∧
        m.regs regReset = 0x00 ∧ m.cache = Function.update (fun _ => none) regReset (some 0x00))
      fun _ _ => False := by
    intro m h
    rw [regmapWrite_apply (h.1 0)]
    exact ⟨fun k => h.1 (k + 1), Function.update_self regReset 0x00 m.regs, by rw [h.2]; rfl⟩
  exact .onError (F := fun _ _ => False)
    (hwrite.zoom (fun _ h => h) (fun _ _ _ _ h => h) fun _ _ _ _ h => h) fun _ _ h => h.elim

theorem softReset_ends : Ends ResetSent softReset (fun _ aw => ∃ regs, Now regs aw) fun _ _ => True := by
  refine .modify fun aw h => ⟨_, aw.map.seen, fun reg val hval => ?_, h.1, rfl, rfl⟩
  change aw.map.cache reg = some val at hval
  rw [h.2.2] at hval
  by_cases hreg : reg = regReset
  · subst hreg
    rw [Function.update_self, Option.some.injEq] at hval
    exact ⟨rfl, hval.symm.trans h.2.1.symm⟩
  · rw [Function.update_of_ne hreg] at hval
    cases hval

theorem initChip_ends : Ends Fresh initChip (fun _ => Ready) fun _ _ => True := by
  refine .bind reset_ends fun _ => .bind softReset_ends fun _ => .of_exists fun regs =>
    .bind (orErrProbe_ends ((regmapRead_ends regs regId).failing fun _ _ _ => trivial) _)
      fun id => .cases (fun _ => ?_) fun _ => ?_
  · exact .bind (I := fun _ _ => True) (.modify fun _ _ => trivial) fun _ => .throw fun _ _ => trivial
  · refine .bind (writeReg_ends _ _ _) fun _ => .bind (writeReg_ends _ _ _) fun _ =>
      .bind (writeReg_ends _ _ _) fun _ => .bind (writeReg_ends _ _ _) fun _ =>
      .bind (writeReg_ends _ _ _) fun _ => .bind (writeReg_ends _ _ _) fun _ =>
      (writeReg_ends _ _ _).returning fun _ aw h => ⟨_, ⟨?_, ?_⟩, h⟩
    · simp [regP0Cfg, regP1Cfg, regP0Int, regP1Int, regCtl]
    · simp [regP1Cfg, regP0Int, regP1Int, regCtl]

theorem seedPrevState_ends : Ends Ready seedPrevState (fun _ => Ready) fun _ _ => True := by
  have hread : ∀ reg, Ends Ready (regmapRead reg) (fun _ => Ready) fun _ => Ready := fun reg =>
    .of_exists fun regs => .of_and fun hregs =>
      (regmapRead_ends regs reg).post (fun _ _ h => ⟨regs, hregs, h⟩) fun _ _ h => h.elim
  refine .bind (I := fun _ => Ready) (.attempt
    (.bind (hread regP0In) fun _ => .bind (hread regP1In) fun _ =>
    .pure fun _ h => h)) fun r => ?_
  rcases r with e | state
  · exact .pure fun _ h => h
  · exact .modify fun _ h => h

theorem probe_ends (env : ProbeEnv) : Ends NoFailure (probe env) (fun _ => Ready) fun _ _ => True := by
  have hgiven : ∀ (P : Aw → Prop) (r : Except Errno Unit) (fmt : String),
      Ends P (orErrProbe (MonadExcept.ofExcept r) fmt) (fun _ => P) fun _ _ => True :=
    fun P r fmt => orErrProbe_ends (.ofExcept (fun _ _ _ h => h) fun _ _ _ _ => trivial) fmt
  refine .cases (fun _ => .throw fun _ _ => trivial) fun _ => .bind (.modify fun _ h => h) fun _ =>
    .bind (hgiven NoFailure _ _) fun _ => .bind (I := fun _ => Fresh) (.modify fun _ h => ⟨h, rfl⟩) fun _ =>
    .bind (hgiven Fresh _ _) fun _ => .bind initChip_ends fun _ => .bind (I := fun _ => Ready)
      (.modify fun _ h => h) fun _ => .bind (hgiven Ready _ _) fun _ => .cases (fun _ => ?_) fun _ =>
        .pure fun _ h => h
  exact .bind seedPrevState_ends fun _ => hgiven Ready _ _

/-- The lines of a chip all of whose lines are inputs. -/
def inputLines (regs : ℕ → BitVec 8) : Lines := fun o => { input := true, out := bitAt regs regP0Out o }

theorem Ready.tracks {aw : Aw} (h : Ready aw) : Tracks (inputLines aw.map.regs) aw := by
  obtain ⟨regs, ⟨hp0, hp1⟩, seen, hmap⟩ := h
  have hones : ∀ i < 8, (0xff : BitVec 8).getLsbD i = true := by decide
  refine ⟨⟨hmap.coherent, hmap.xfers, rfl, rfl⟩, fun o => ⟨?_, rfl⟩⟩
  have hport : regs (portReg o regP0Cfg) = 0xff := by
    unfold portReg
    split_ifs
    · exact hp0
    · exact hp1
  rw [bitAt, hmap.regs, hport]
  exact hones _ (portBit_lt o)

/-- After a successful probe and for as long as no transfer fails, the driver is sixteen independent
    lines, over any calls and whatever the output latches held. -/
theorem lines_independent (env : ProbeEnv) {aw : Aw} (hxfers : NoFailure aw)
    (hprobe : outcome (probe env) aw = .ok ()) (calls : List Call) :
    Always bothStep (fun p => Independent p.1 p.2)
      (inputLines (finalState (probe env) aw).map.regs, finalState (probe env) aw) calls := by
  have hready : Ready (finalState (probe env) aw) := (probe_ends env).final_ok hxfers hprobe
  have htracks : Always bothStep (fun p => Tracks p.1 p.2)
      (inputLines (finalState (probe env) aw).map.regs, finalState (probe env) aw) calls := by
    refine always_of_inv (fun p c h => ?_) ?_ calls
    · exact tracks_call h c
    · exact hready.tracks
  exact htracks.mono fun _ h => h.independent

/-- A chip that answers, with output latches that are all set. -/
def answering : Aw where
  map := { regs := fun _ => 0, cache := fun _ => none, xfers := Stream'.const (.ok ()), seen := [] }
  defaults := fun reg => if reg = regId then idValue else 0xff
  pins := 0x00a5
  latched := 0
  irqMask := 0
  prevState := 0
  nested := []
  log := []

def wiredEnv : ProbeEnv where
  kzalloc := true
  regmapInit := .ok ()
  resetGpio := .ok ()
  gpiochipAdd := .ok ()
  irq := true
  requestIrq := .ok ()

theorem lines_independent_ports : Always bothStep (fun p => Independent p.1 p.2)
    (inputLines (finalState (probe wiredEnv) answering).map.regs, finalState (probe wiredEnv) answering)
    [.directionOutput 8 0, .set 7 1, .directionOutput 7 0, .get 3] :=
  lines_independent wiredEnv (fun _ => rfl) rfl
    [.directionOutput 8 0, .set 7 1, .directionOutput 7 0, .get 3]

end GeminiLinux.Aw9523b
