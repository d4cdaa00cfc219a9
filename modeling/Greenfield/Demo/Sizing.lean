import Greenfield.Demo.Risk
import Mathlib.Algebra.Order.Floor.Ring
import Mathlib.Data.Rat.Floor
import Mathlib.Order.Bounds.Basic

/-!
# The size of a Demo trade

`size_autonomous_demo_trade` of `src/execution/demo_autonomous_risk.py` rounds the target quantity
down to the step of the instrument. The result is the largest multiple of the step that the target
notional pays for, so the tests of `AutonomousDemoSizing` never fail (`sizing_exact`).
-/

namespace Greenfield.Demo

open Py Paper

/-! ## Multiples of a step -/

/-- The multiples of `step` that cost at most `target` at `price`. -/
def affordable (step price target : ℚ) : Set ℚ := {q | (∃ n : ℤ, q = n * step) ∧ q * price ≤ target}

theorem isGreatest_affordable {step price : ℚ} (target : ℚ) (hstep : 0 < step) (hprice : 0 < price) :
    IsGreatest (affordable step price target) (⌊target / price / step⌋ * step) := by
  constructor
  · refine ⟨⟨_, rfl⟩, ?_⟩
    have hfloor : (⌊target / price / step⌋ : ℚ) ≤ target / price / step := Int.floor_le _
    rw [le_div_iff₀ hstep, le_div_iff₀ hprice] at hfloor
    exact hfloor
  · rintro q ⟨⟨n, rfl⟩, hpaid⟩
    have hn : (n : ℚ) ≤ target / price / step := by
      rw [le_div_iff₀ hstep, le_div_iff₀ hprice]
      exact hpaid
    have hle : (n : ℚ) ≤ (⌊target / price / step⌋ : ℚ) := by
      exact_mod_cast Int.le_floor.mpr hn
    exact mul_le_mul_of_nonneg_right hle hstep.le

theorem roundDown_of_nonneg {x : ℚ} (h : 0 ≤ x) : roundDown x = ⌊x⌋ := if_pos h

/-! ## The trade -/

section Sizing

variable (balance : DemoAccountBalance) (market : PublicLinearInstrumentSnapshot)
  (config : AutonomousDemoRiskConfig)

/-- The usable capital. -/
def usableCapital : ℚ := min balance.totalEquityUsd balance.totalAvailableBalanceUsd

/-- The target notional: one percent of the capital at the leverage. -/
def targetNotional : ℚ := usableCapital balance * config.marginFractionPerTrade * config.leverage

/-- The sizing of a quantity. -/
def sizingOf (quantity : ℚ) : AutonomousDemoSizing where
  accountEquityUsd := balance.totalEquityUsd
  sizingCapitalUsd := usableCapital balance
  targetMarginUsd := usableCapital balance * config.marginFractionPerTrade
  targetNotionalUsd := targetNotional balance config
  quantity
  estimatedNotionalUsd := quantity * market.lastPrice
  estimatedMarginUsd := quantity * market.lastPrice / config.leverage

variable {balance market config}

theorem targetNotional_nonneg : 0 ≤ targetNotional balance config := by
  obtain ⟨hleverage, hmargin, -⟩ := config.operatorSelected
  have hcapital : 0 ≤ usableCapital balance := le_min balance.valid.1 balance.valid.2.2
  unfold targetNotional
  rw [hleverage, hmargin]
  exact mul_nonneg (mul_nonneg hcapital (by norm_num)) (by norm_num)

/-- The tests of `AutonomousDemoSizing` pass. -/
theorem sizingOf_checked {quantity : ℚ} (hcapital : 0 < usableCapital balance)
    (hquantity : 0 < quantity) (hpaid : quantity * market.lastPrice ≤ targetNotional balance config) :
    (sizingOf balance market config quantity).checked =
      .ok (sizingOf balance market config quantity) ∧
    (sizingOf balance market config quantity).estimatedMarginUsd ≤ usableCapital balance / 100 := by
  obtain ⟨hleverage, hmargin, -⟩ := config.operatorSelected
  have hprice := market.valid.2.1
  have hequity : 0 < balance.totalEquityUsd := hcapital.trans_le (min_le_left _ _)
  have hnotional : 0 < quantity * market.lastPrice := mul_pos hquantity hprice
  have htarget : targetNotional balance config = usableCapital balance := by
    unfold targetNotional
    rw [hleverage, hmargin]
    push_cast
    ring
  have hestimate : quantity * market.lastPrice / 100 ≤ usableCapital balance / 100 :=
    div_le_div_of_nonneg_right (htarget ▸ hpaid) (by norm_num)
  have hfields : (sizingOf balance market config quantity) =
      ⟨balance.totalEquityUsd, usableCapital balance, usableCapital balance / 100,
        usableCapital balance, quantity, quantity * market.lastPrice,
        quantity * market.lastPrice / 100⟩ := by
    unfold sizingOf
    rw [htarget, hleverage, hmargin]
    push_cast
    rw [mul_one_div]
  rw [hfields]
  refine ⟨?_, hestimate⟩
  have hmarginPos : 0 < usableCapital balance / 100 := div_pos hcapital (by norm_num)
  have hestimatePos : 0 < quantity * market.lastPrice / 100 := div_pos hnotional (by norm_num)
  simp only [AutonomousDemoSizing.checked, require, List.all_cons, List.all_nil, hequity, hcapital,
    hmarginPos, hquantity, hnotional, hestimatePos, hestimate, decide_true, Bool.and_self, if_true]
  rfl

/-- **Sizes.** The trade is sized with the largest multiple of the step that the target notional
pays for; its margin is at most one percent of the capital. It is refused only if there is no
capital, or if this multiple is below the minimum of the venue. -/
theorem sizing_exact (balance : DemoAccountBalance) (market : PublicLinearInstrumentSnapshot)
    (config : AutonomousDemoRiskConfig) :
    ∃ quantity, IsGreatest
        (affordable market.quantityStep market.lastPrice (targetNotional balance config)) quantity ∧
      (usableCapital balance ≤ 0 ∧ sizeAutonomousDemoTrade balance market config =
          .error (.valueError "autonomous Demo deployable capital must be positive") ∨
        (0 < usableCapital balance ∧ quantity < market.minimumOrderQuantity) ∧
          sizeAutonomousDemoTrade balance market config =
            .error (.valueError "1% Demo margin is below the venue minimum order quantity") ∨
        (0 < usableCapital balance ∧ market.minimumOrderQuantity ≤ quantity) ∧
          sizeAutonomousDemoTrade balance market config =
            .ok (sizingOf balance market config quantity) ∧
          (sizingOf balance market config quantity).estimatedMarginUsd ≤
            usableCapital balance / 100) := by
  obtain ⟨-, hprice, hstep, hminimum⟩ := market.valid
  have hgreatest := isGreatest_affordable (targetNotional balance config) hstep hprice
  refine ⟨_, hgreatest, ?_⟩
  have hround : roundDown (targetNotional balance config / market.lastPrice / market.quantityStep) =
      ⌊targetNotional balance config / market.lastPrice / market.quantityStep⌋ :=
    roundDown_of_nonneg (div_nonneg (div_nonneg targetNotional_nonneg hprice.le) hstep.le)
  have hsize : sizeAutonomousDemoTrade balance market config = (do
      require (0 < usableCapital balance)
        (.valueError "autonomous Demo deployable capital must be positive")
      require (market.minimumOrderQuantity ≤
          roundDown (targetNotional balance config / market.lastPrice / market.quantityStep) *
            market.quantityStep)
        (.valueError "1% Demo margin is below the venue minimum order quantity")
      (sizingOf balance market config
        (roundDown (targetNotional balance config / market.lastPrice / market.quantityStep) *
          market.quantityStep)).checked) := rfl
  rw [hround] at hsize
  generalize (⌊targetNotional balance config / market.lastPrice / market.quantityStep⌋ : ℚ) *
    market.quantityStep = quantity at hgreatest hsize ⊢
  rw [hsize]
  by_cases hcapital : 0 < usableCapital balance
  · right
    by_cases hfits : market.minimumOrderQuantity ≤ quantity
    · obtain ⟨hchecked, hmargin⟩ :=
        sizingOf_checked hcapital (hminimum.trans_le hfits) hgreatest.1.2
      refine .inr ⟨⟨hcapital, hfits⟩, ?_, hmargin⟩
      simp only [require, hcapital, hfits, decide_true, if_true, hchecked]
      rfl
    · refine .inl ⟨⟨hcapital, not_le.mp hfits⟩, ?_⟩
      simp only [require, hcapital, hfits, decide_true, decide_false, if_true]
      rfl
  · refine .inl ⟨not_lt.mp hcapital, ?_⟩
    simp only [require, hcapital, decide_false]
    rfl

end Sizing

end Greenfield.Demo
