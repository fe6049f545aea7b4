import GeminiLinux.Phy.PllSequence

/-! The rates of the PLL. `pllPrepare` rounds PCW down, so that a lane is never faster than asked for, and
    less than 1 bit/s slower:

        26 MHz · PCW / 2²⁴ / (2 · 2ᵏ) ≤ rate < 26 MHz · (PCW + 1) / 2²⁴ / (2 · 2ᵏ)

    Which rates there are is decided twice: by the table, and by the bounds that `pllRoundRate` clamps to. -/

namespace GeminiLinux.MipiTx
open Prog

/-! ### The rate that is realised -/

/-- What `pllPrepare` makes of a rate in row `k`. -/
structure Realises (tx : Tx) (k : ℕ) : Prop where
  divider : pllDividers tx.dataRate = .ok (row k)
  encoding : (row k).txdiv0.toNat = Nat.log 2 (row k).txdiv.toNat
  product : tx.dataRate.toNat * 2 * (row k).txdiv.toNat * 2 ^ 24 < 2 ^ 64
  pcw : (pllPcw tx.dataRate (row k).txdiv).toNat =
    tx.dataRate.toNat * 2 * (row k).txdiv.toNat * 2 ^ 24 / 26000000
  fits : (pllPcw tx.dataRate (row k).txdiv).toNat < 2 ^ 31
  vco : tx.dataRate.toNat * 2 * (row k).txdiv.toNat ∈ Set.Ioc 992000000 2500000000
  returns : outcome pllPrepare tx = .ok ()
  pcwField : (pll (finalState pllPrepare tx).regs).pcw.toNat = (pllPcw tx.dataRate (row k).txdiv).toNat
  posdivField : (pll (finalState pllPrepare tx).regs).posdiv.toNat = (row k).txdiv0.toNat
  laneRate : (pll (finalState pllPrepare tx).regs).laneRate ∈
    Set.Ioc ((tx.dataRate.toNat : ℚ) - 1) tx.dataRate.toNat

section Rate

variable {tx : Tx} {k : ℕ}

/-- The fields after a rate has been accepted. -/
theorem fields_of_mem (h : tx.dataRate.toNat ∈ rowRates k) :
    (pll (finalState pllPrepare tx).regs).pcw.toNat = (pllPcw tx.dataRate (row k).txdiv).toNat ∧
      (pll (finalState pllPrepare tx).regs).posdiv.toNat = (row k).txdiv0.toNat := by
  have hreached := (callStep_goes tx .prepare).reaches
  rw [callSteps, pllDividers_of_mem h, callStep, Call.prog] at hreached
  rw [hreached]
  constructor
  · show (BitVec.setWidth 31 _).toNat = _
    rw [BitVec.toNat_setWidth]
    exact Nat.mod_eq_of_lt (pllPcw_lt h)
  · have hk5 := lt_five_of_mem_rowRates h
    interval_cases k <;> rfl

/-- PCW is rounded down, and one step of it is less than 1 bit/s. -/
theorem laneRate_mem {rate pcw : ℕ} (hpcw : pcw = rate * 2 * 2 ^ k * 2 ^ 24 / 26000000) :
    26000000 * (pcw : ℚ) / 2 ^ 24 / (2 * 2 ^ k) ∈ Set.Ioc ((rate : ℚ) - 1) rate := by
  have hle : 26000000 * pcw ≤ rate * 2 * 2 ^ k * 2 ^ 24 := by
    rw [hpcw]
    exact Nat.mul_div_le _ _
  have hlt : rate * 2 * 2 ^ k * 2 ^ 24 < 26000000 * (pcw + 1) := by
    rw [hpcw]
    exact Nat.lt_mul_div_succ _ (by norm_num)
  have hleQ : 26000000 * (pcw : ℚ) ≤ rate * 2 * 2 ^ k * 2 ^ 24 := by exact_mod_cast hle
  have hltQ : (rate : ℚ) * 2 * 2 ^ k * 2 ^ 24 < 26000000 * (pcw + 1) := by exact_mod_cast hlt
  have hk : (1 : ℚ) ≤ 2 ^ k := one_le_pow₀ (by norm_num)
  rw [div_div]
  constructor
  · rw [lt_div_iff₀ (by positivity)]
    nlinarith
  · rw [div_le_iff₀ (by positivity)]
    linarith

theorem realises_of_mem (h : tx.dataRate.toNat ∈ rowRates k) : Realises tx k := by
  have hk5 := lt_five_of_mem_rowRates h
  obtain ⟨hdiv, hdiv0⟩ := toNat_txdiv hk5
  obtain ⟨hlow, hhigh⟩ := vco_of_mem h
  obtain ⟨hpcw, hposdiv⟩ := fields_of_mem h
  have hfloor := toNat_pllPcw h
  refine ⟨pllDividers_of_mem h, ?_, ?_, ?_, pllPcw_lt h, ?_, outcome_pllPrepare_ok (pllDividers_of_mem h), hpcw,
    hposdiv, ?_⟩
  · rw [hdiv, hdiv0, Nat.log_pow (by norm_num)]
  · rw [hdiv]
    omega
  · rw [hdiv, hfloor]
  · rw [hdiv]
    exact ⟨hlow, hhigh⟩
  · rw [Pll.laneRate, Pll.vcoRate, hpcw, hposdiv, hdiv0]
    exact laneRate_mem hfloor

theorem pllPrepare_outside (h : tx.dataRate.toNat ∉ Set.Icc 50000000 1250000000) :
    outcome pllPrepare tx = .error .EINVAL := by
  obtain ⟨fmt, hfmt⟩ := pllDividers_outside h
  rw [outcome, pllPrepare_error hfmt]

end Rate

/-- Every rate of the table is in one row, and is realised by it; all others are refused. -/
theorem pll_realises_rate (tx : Tx) :
    (tx.dataRate.toNat ∈ Set.Icc 50000000 1250000000 → ∃! k, tx.dataRate.toNat ∈ rowRates k) ∧
    (∀ k, tx.dataRate.toNat ∈ rowRates k → Realises tx k) ∧
    (tx.dataRate.toNat ∉ Set.Icc 50000000 1250000000 → outcome pllPrepare tx = .error .EINVAL) := by
  refine ⟨?_, fun k => realises_of_mem, pllPrepare_outside⟩
  intro h
  obtain ⟨k, hk⟩ := exists_row h
  exact ⟨k, hk, fun j hj => row_unique hj hk⟩

/-- The rate of the panel: VCO at 1872 MHz, POSDIV / 1. -/
theorem pll_realises_936000000 : Realises { leftOn with dataRate := 936000000 } 0 :=
  (pll_realises_rate _).2.1 0 ⟨by decide, by decide⟩

/-! ### The rates there are -/

theorem outcome_pllPrepare_iff (tx : Tx) :
    outcome pllPrepare tx = .ok () ↔ tx.dataRate.toNat ∈ Set.Icc 50000000 1250000000 := by
  constructor
  · intro h
    by_contra hrate
    rw [pllPrepare_outside hrate] at h
    cases h
  · intro h
    obtain ⟨k, hk⟩ := exists_row h
    exact (realises_of_mem hk).returns

theorem toNat_pllRoundRate (rate : UInt64) :
    (pllRoundRate rate).toNat = min (max rate.toNat 50000000) 2000000000 := by
  have hmax : (max rate 50000000).toNat = max rate.toNat 50000000 := by
    show (if rate ≤ 50000000 then 50000000 else rate).toNat = _
    rw [max_def, apply_ite UInt64.toNat]
    rfl
  show (if max rate 50000000 ≤ 2000000000 then max rate 50000000 else 2000000000).toNat = _
  rw [min_def, ← hmax, apply_ite UInt64.toNat]
  rfl

/-- `set_rate` stores a rounded rate as it is. -/
theorem dataRate_clkSetRate (rate : UInt64) (tx : Tx) :
    (finalState (clkSetRate rate) tx).dataRate.toNat = min (max rate.toNat 50000000) 2000000000 := by
  show (pllRoundRate rate).toUInt32.toNat = _
  rw [UInt64.toNat_toUInt32, toNat_pllRoundRate]
  omega

/-- `round_rate` and `prepare` agree about a requested rate. -/
structure Agrees (rate : UInt64) : Prop where
  accepted : ∀ tx, outcome pllPrepare (finalState (clkSetRate rate) tx) = .ok ()
  idempotent : pllRoundRate (pllRoundRate rate) = pllRoundRate rate
  monotone : ∀ rate', rate ≤ rate' → pllRoundRate rate ≤ pllRoundRate rate'
  kept : ∀ tx, tx.dataRate.toUInt64 = rate → outcome pllPrepare tx = .ok () → pllRoundRate rate = rate

/-- They agree about all rates up to the limit of the table; above it rounding stops too late. -/
theorem agrees_iff (rate : UInt64) : Agrees rate ↔ rate ≤ 1250000000 := by
  rw [UInt64.le_iff_toNat_le]
  show _ ↔ rate.toNat ≤ 1250000000
  constructor
  · intro h
    have haccepted := (outcome_pllPrepare_iff _).mp (h.accepted leftOn)
    rw [dataRate_clkSetRate, Set.mem_Icc] at haccepted
    omega
  · intro h
    refine ⟨?_, ?_, ?_, ?_⟩
    · intro tx
      rw [outcome_pllPrepare_iff, dataRate_clkSetRate, Set.mem_Icc]
      omega
    · rw [← UInt64.toNat_inj, toNat_pllRoundRate, toNat_pllRoundRate]
      omega
    · intro rate' hle
      rw [UInt64.le_iff_toNat_le] at hle ⊢
      rw [toNat_pllRoundRate, toNat_pllRoundRate]
      omega
    · intro tx hrate hok
      have hmem := (outcome_pllPrepare_iff tx).mp hok
      rw [Set.mem_Icc, ← UInt32.toNat_toUInt64, hrate] at hmem
      rw [← UInt64.toNat_inj, toNat_pllRoundRate]
      omega

/-- 1.5 Gbit/s is set without an error, and then the PLL cannot be enabled. -/
theorem not_agrees_1500000000 : ¬ Agrees 1500000000 := by
  intro h
  have hok := h.accepted leftOn
  rw [pllPrepare_outside (by decide)] at hok
  cases hok

end GeminiLinux.MipiTx
