import GeminiLinux.Kernel.Regmap
import GeminiLinux.Lib.Runs

/-! The MIPI DSI PHY of the MT6797 (MIPITX): its registers, the PLL's `clk_ops` and the two signal
    operations. The lane rate comes out of three dividers:

        26 MHz ──▶ VCO = 26 MHz · PCW / 2²⁴ ──▶ S2Q: / 2 ──▶ POSDIV: / 2ᵏ ──▶ lane

    `pllPrepare` picks POSDIV by the rate asked for, and sets PCW so that the VCO makes up for both. All
    registers are memory: what was written last is read back. -/

namespace GeminiLinux.MipiTx
open Prog Regmap

/-! ### Registers -/

def mipitxTopCon : ℕ := 0x0040
def rgDsiLntHsBiasEn : BitVec 32 := BitVec.twoPow 32 1

def mipitxBgCon : ℕ := 0x0044
def rgDsiBgCoreEn : BitVec 32 := BitVec.twoPow 32 1
def rgDsiBgLpfEn : BitVec 32 := BitVec.twoPow 32 2

/-- `GENMASK`. -/
def genmask (high low : ℕ) : BitVec 32 := (BitVec.allOnes 32 <<< low) &&& (BitVec.allOnes 32 >>> (31 - high))

def mipitxPllCon0 : ℕ := 0x0050
def rgDsiPllEn : BitVec 32 := BitVec.twoPow 32 0
def rgDsiPllPosdiv : BitVec 32 := genmask 6 4

def mipitxPllCon1 : ℕ := 0x0054
def rgDsiPllFraEn : BitVec 32 := BitVec.twoPow 32 0

def mipitxPllCon2 : ℕ := 0x0058
def rgDsiPllPcw : BitVec 32 := genmask 30 0

def mipitxPllChg : ℕ := 0x0060
def rgDsiPllPcwChg : BitVec 32 := BitVec.twoPow 32 0

def mipitxPllPwr : ℕ := 0x0068
def adDsiPllPwrOn : BitVec 32 := BitVec.twoPow 32 0
def adDsiPllIsoEn : BitVec 32 := BitVec.twoPow 32 1

def mipitxSwCtrl : ℕ := 0x0080

/-! ### Register access -/

abbrev Regs := ℕ → BitVec 32

/-- `struct mtk_mipi_tx`: the registers, the rate last set, what the registers have held after each
    write so far, and the log. -/
structure Tx where
  regs : Regs
  dataRate : UInt32
  seen : List Regs
  log : List (String × ℕ)

abbrev TxM := EStateM Errno Tx

def devErr (fmt : String) (arg : ℕ) : TxM Unit := modify fun tx => { tx with log := tx.log ++ [(fmt, arg)] }

def readl (reg : ℕ) : TxM (BitVec 32) := do pure ((← get).regs reg)

def Tx.write (tx : Tx) (regs : Regs) : Tx := { tx with regs, seen := tx.seen ++ [regs] }

def writel (val : BitVec 32) (reg : ℕ) : TxM Unit :=
  modify fun tx => tx.write (Function.update tx.regs reg val)

def mtkPhySetBits (reg : ℕ) (bits : BitVec 32) : TxM Unit := do
  let tmp ← readl reg
  writel (tmp ||| bits) reg

def mtkPhyClearBits (reg : ℕ) (bits : BitVec 32) : TxM Unit := do
  let tmp ← readl reg
  writel (tmp &&& ~~~bits) reg

def mtkPhyUpdateBits (reg : ℕ) (mask val : BitVec 32) : TxM Unit := do
  let tmp ← readl reg
  writel (tmp &&& ~~~mask ||| val &&& mask) reg

/-- `FIELD_PREP`. -/
def fieldPrep (mask : BitVec 32) (val : UInt64) : BitVec 32 := val.toBitVec.setWidth 32 <<< mask.ctz &&& mask

def mtkPhyUpdateField (reg : ℕ) (mask : BitVec 32) (val : UInt64) : TxM Unit :=
  mtkPhyUpdateBits reg mask (fieldPrep mask val)

/-! ### The PLL -/

def mt6797MipitxRefClkHz : UInt64 := 26000000

structure Dividers where
  txdiv : UInt32
  txdiv0 : UInt32
  deriving DecidableEq

/-- The table of dividers in `mt6797_mipi_tx_pll_prepare`, or the message for a rate outside it. -/
def pllDividers (dataRate : UInt32) : Except String Dividers :=
  if dataRate > 1250000000 then .error "data_rate %u too high"
  else if dataRate ≥ 500000000 then .ok { txdiv := 1, txdiv0 := 0 }
  else if dataRate ≥ 250000000 then .ok { txdiv := 2, txdiv0 := 1 }
  else if dataRate ≥ 125000000 then .ok { txdiv := 4, txdiv0 := 2 }
  else if dataRate > 62000000 then .ok { txdiv := 8, txdiv0 := 3 }
  else if dataRate ≥ 50000000 then .ok { txdiv := 16, txdiv0 := 4 }
  else .error "data_rate %u too low"

/-- `div_u64(((u64)data_rate * 2 * txdiv) << 24, MT6797_MIPITX_REF_CLK_HZ)`. -/
def pllPcw (dataRate txdiv : UInt32) : UInt64 :=
  ((dataRate.toUInt64 * 2 * txdiv.toUInt64) <<< 24) / mt6797MipitxRefClkHz

/-- The register writes of `mt6797_mipi_tx_pll_prepare`. -/
def pllEnable (pcw : UInt64) (txdiv0 : UInt32) : TxM Unit := do
  mtkPhySetBits mipitxBgCon rgDsiBgCoreEn
  mtkPhySetBits mipitxBgCon (rgDsiBgCoreEn ||| rgDsiBgLpfEn)
  mtkPhySetBits mipitxPllPwr adDsiPllPwrOn
  mtkPhyClearBits mipitxPllPwr adDsiPllIsoEn
  mtkPhyUpdateField mipitxPllCon2 rgDsiPllPcw pcw
  mtkPhySetBits mipitxPllChg rgDsiPllPcwChg
  mtkPhyClearBits mipitxPllChg rgDsiPllPcwChg
  mtkPhyUpdateField mipitxPllCon0 rgDsiPllPosdiv txdiv0.toUInt64
  mtkPhySetBits mipitxPllCon1 rgDsiPllFraEn
  mtkPhySetBits mipitxPllCon0 rgDsiPllEn

def pllPrepare : TxM Unit := do
  let dataRate := (← get).dataRate
  match pllDividers dataRate with
  | .error fmt => do
    devErr fmt dataRate.toNat
    throw .EINVAL
  | .ok d => pllEnable (pllPcw dataRate d.txdiv) d.txdiv0

def pllUnprepare : TxM Unit := do
  mtkPhyClearBits mipitxPllCon0 rgDsiPllEn
  mtkPhySetBits mipitxPllPwr adDsiPllIsoEn
  mtkPhyClearBits mipitxPllPwr adDsiPllPwrOn
  mtkPhyClearBits mipitxBgCon (rgDsiBgCoreEn ||| rgDsiBgLpfEn)

/-- `clamp_val(rate, 50000000, 2000000000)`. -/
def pllRoundRate (rate : UInt64) : UInt64 := min (max rate 50000000) 2000000000

/-- `mtk_mipi_tx_pll_set_rate` stores the rate in a `u32`. -/
def pllSetRate (rate : UInt64) : TxM Unit := modify fun tx => { tx with dataRate := rate.toUInt32 }

/-- `clk_set_rate` sets the rate that the clock rounds the request to. -/
def clkSetRate (rate : UInt64) : TxM Unit := pllSetRate (pllRoundRate rate)

/-! ### The table of dividers -/

/-- The rates, in bit/s, that the rows of the table are for. -/
def rowRates : ℕ → Set ℕ
  | 0 => Set.Icc 500000000 1250000000
  | 1 => Set.Ico 250000000 500000000
  | 2 => Set.Ico 125000000 250000000
  | 3 => Set.Ioo 62000000 125000000
  | 4 => Set.Icc 50000000 62000000
  | _ => ∅

/-- A row: the divider is the power of two that POSDIV encodes. -/
def row (k : ℕ) : Dividers := { txdiv := .ofNat (2 ^ k), txdiv0 := .ofNat k }

section Rows

variable {dataRate : UInt32} {rate k : ℕ}

theorem lt_five_of_mem_rowRates (h : rate ∈ rowRates k) : k < 5 := by
  by_contra hk
  obtain ⟨j, rfl⟩ := Nat.exists_eq_add_of_le (Nat.le_of_not_lt hk)
  rw [Nat.add_comm] at h
  exact h

theorem pllDividers_of_mem (h : dataRate.toNat ∈ rowRates k) : pllDividers dataRate = .ok (row k) := by
  have hk := lt_five_of_mem_rowRates h
  unfold pllDividers
  simp only [gt_iff_lt, ge_iff_le, UInt32.lt_iff_toNat_lt, UInt32.le_iff_toNat_le, UInt32.reduceToNat]
  interval_cases k <;> simp only [rowRates, Set.mem_Icc, Set.mem_Ico, Set.mem_Ioo] at h
  · rw [if_neg (by omega), if_pos (by omega)]
    rfl
  · rw [if_neg (by omega), if_neg (by omega), if_pos (by omega)]
    rfl
  · rw [if_neg (by omega), if_neg (by omega), if_neg (by omega), if_pos (by omega)]
    rfl
  · rw [if_neg (by omega), if_neg (by omega), if_neg (by omega), if_neg (by omega), if_pos (by omega)]
    rfl
  · rw [if_neg (by omega), if_neg (by omega), if_neg (by omega), if_neg (by omega), if_neg (by omega),
      if_pos (by omega)]
    rfl

theorem exists_row (h : rate ∈ Set.Icc 50000000 1250000000) : ∃ k, rate ∈ rowRates k := by
  obtain ⟨hlow, hhigh⟩ := h
  rcases Nat.lt_or_ge rate 500000000 with h0 | h0
  · rcases Nat.lt_or_ge rate 250000000 with h1 | h1
    · rcases Nat.lt_or_ge rate 125000000 with h2 | h2
      · rcases Nat.lt_or_ge 62000000 rate with h3 | h3
        · exact ⟨3, h3, h2⟩
        · exact ⟨4, hlow, h3⟩
      · exact ⟨2, h2, h1⟩
    · exact ⟨1, h1, h0⟩
  · exact ⟨0, h0, hhigh⟩

/-- No rate is in two rows. -/
theorem row_unique {j : ℕ} (hj : rate ∈ rowRates j) (hk : rate ∈ rowRates k) : j = k := by
  have hj5 := lt_five_of_mem_rowRates hj
  have hk5 := lt_five_of_mem_rowRates hk
  interval_cases j <;> interval_cases k <;>
    simp only [rowRates, Set.mem_Icc, Set.mem_Ico, Set.mem_Ioo] at hj hk <;> omega

theorem pllDividers_outside (h : dataRate.toNat ∉ Set.Icc 50000000 1250000000) :
    ∃ fmt, pllDividers dataRate = .error fmt := by
  rw [Set.mem_Icc] at h
  unfold pllDividers
  simp only [gt_iff_lt, ge_iff_le, UInt32.lt_iff_toNat_lt, UInt32.le_iff_toNat_le, UInt32.reduceToNat]
  rcases Nat.lt_or_ge 1250000000 dataRate.toNat with hhigh | hhigh
  · exact ⟨_, if_pos hhigh⟩
  · rw [if_neg (by omega), if_neg (by omega), if_neg (by omega), if_neg (by omega), if_neg (by omega),
      if_neg (by omega)]
    exact ⟨_, rfl⟩

theorem exists_row_of_ok {d : Dividers} (h : pllDividers dataRate = .ok d) :
    ∃ k, dataRate.toNat ∈ rowRates k ∧ d = row k := by
  by_cases hrate : dataRate.toNat ∈ Set.Icc 50000000 1250000000
  · obtain ⟨k, hk⟩ := exists_row hrate
    rw [pllDividers_of_mem hk] at h
    exact ⟨k, hk, (Except.ok.inj h).symm⟩
  · obtain ⟨fmt, hfmt⟩ := pllDividers_outside hrate
    rw [hfmt] at h
    cases h

/-- The VCO rates of the table. -/
theorem vco_of_mem (h : rate ∈ rowRates k) : 992000000 < rate * 2 * 2 ^ k ∧ rate * 2 * 2 ^ k ≤ 2500000000 := by
  have hk := lt_five_of_mem_rowRates h
  interval_cases k <;> simp only [rowRates, Set.mem_Icc, Set.mem_Ico, Set.mem_Ioo] at h <;> omega

theorem toNat_txdiv (hk : k < 5) : (row k).txdiv.toNat = 2 ^ k ∧ (row k).txdiv0.toNat = k := by
  interval_cases k <;> decide

/-- PCW is computed without overflow. -/
theorem toNat_pllPcw (h : dataRate.toNat ∈ rowRates k) : (pllPcw dataRate (row k).txdiv).toNat =
    dataRate.toNat * 2 * 2 ^ k * 2 ^ 24 / 26000000 := by
  have hvco := (vco_of_mem h).2
  have hdiv := (toNat_txdiv (lt_five_of_mem_rowRates h)).1
  have hrate : dataRate.toNat * 2 ≤ dataRate.toNat * 2 * 2 ^ k := Nat.le_mul_of_pos_right _ (by positivity)
  have hprod : (dataRate.toUInt64 * 2 * (row k).txdiv.toUInt64).toNat = dataRate.toNat * 2 * 2 ^ k := by
    rw [UInt64.toNat_mul, UInt64.toNat_mul, UInt32.toNat_toUInt64, UInt32.toNat_toUInt64, hdiv,
      show (2 : UInt64).toNat = 2 from rfl, Nat.mod_eq_of_lt (a := dataRate.toNat * 2) (by omega)]
    exact Nat.mod_eq_of_lt (by omega)
  rw [pllPcw, UInt64.toNat_div, UInt64.toNat_shiftLeft, hprod, show (24 : UInt64).toNat % 64 = 24 from rfl,
    Nat.shiftLeft_eq, Nat.mod_eq_of_lt (by omega)]
  rfl

theorem pllPcw_lt (h : dataRate.toNat ∈ rowRates k) : (pllPcw dataRate (row k).txdiv).toNat < 2 ^ 31 := by
  rw [toNat_pllPcw h]
  have hvco := (vco_of_mem h).2
  omega

end Rows

/-! ### The signal -/

def powerOnSignal : TxM Unit := do
  mtkPhyClearBits mipitxSwCtrl (BitVec.twoPow 32 0)
  mtkPhySetBits mipitxTopCon rgDsiLntHsBiasEn

def powerOffSignal : TxM Unit := do
  mtkPhySetBits mipitxSwCtrl (BitVec.twoPow 32 0)
  mtkPhyClearBits mipitxTopCon rgDsiLntHsBiasEn

/-! ### The fields of the PLL -/

/-- What the registers say of the PLL. -/
structure Pll where
  coreEn : Bool
  lpfEn : Bool
  pwrOn : Bool
  isoEn : Bool
  pcw : BitVec 31
  pcwChg : Bool
  posdiv : BitVec 3
  fraEn : Bool
  en : Bool
  deriving DecidableEq

def pll (regs : Regs) : Pll where
  coreEn := (regs mipitxBgCon).getLsbD 1
  lpfEn := (regs mipitxBgCon).getLsbD 2
  pwrOn := (regs mipitxPllPwr).getLsbD 0
  isoEn := (regs mipitxPllPwr).getLsbD 1
  pcw := (regs mipitxPllCon2).extractLsb' 0 31
  pcwChg := (regs mipitxPllChg).getLsbD 0
  posdiv := (regs mipitxPllCon0).extractLsb' 4 3
  fraEn := (regs mipitxPllCon1).getLsbD 0
  en := (regs mipitxPllCon0).getLsbD 0

/-- The rate at which the VCO runs, in Hz. -/
def Pll.vcoRate (p : Pll) : ℚ := 26000000 * p.pcw.toNat / 2 ^ 24

/-- The rate at which a lane sends, in bit/s. -/
def Pll.laneRate (p : Pll) : ℚ := p.vcoRate / (2 * 2 ^ p.posdiv.toNat)

end GeminiLinux.MipiTx
