import Greenfield.Lib.Buckets
import Greenfield.Py.Basic
import Mathlib.Algebra.BigOperators.Group.List.Basic
import Mathlib.Data.Multiset.Bind
import Mathlib.Tactic.Ring

/-!
# Funding

`funding_timestamps` and `estimate_funding_cost` of `src/backtesting/funding.py`. Times are in
nanoseconds. The days from the start to the end are those of every settlement between them as long
as the hours lie between `-24` and `23`, and then funding is additive (`funding_additive`).
-/

namespace Greenfield.Backtesting

open Buckets Py

-- the order of the integers that computes, whatever is imported
local instance fundingIntLinearOrder : LinearOrder ℤ := Int.instLinearOrder

/-- `pd.Timestamp`: its time, and whether it has a time zone, which is UTC. -/
structure Timestamp where
  ns : ℤ
  aware : Bool := true
  deriving DecidableEq

def nsPerHour : ℤ := 3600000000000

def nsPerDay : ℤ := 24 * nsPerHour

structure FundingAssumptions where
  ratePerInterval : ℚ := 1 / 10000
  fundingHoursUtc : List ℤ := [0, 8, 16]

/-- `t.floor("D")`. -/
def floorDay (t : ℤ) : ℤ := t / nsPerDay * nsPerDay

/-- `t.ceil("D")`. -/
def ceilDay (t : ℤ) : ℤ := -(-t / nsPerDay) * nsPerDay

/-- `pd.date_range(start.floor("D"), end.ceil("D"), freq="D", tz="UTC")`. -/
def dateRange (start stop : ℤ) : List ℤ :=
  (List.range ((ceilDay stop - floorDay start) / nsPerDay + 1).toNat).map fun k : ℕ =>
    floorDay start + (k : ℤ) * nsPerDay

/-- The settlements of the days between two times. -/
def candidates (hours : List ℤ) (start stop : ℤ) : List ℤ :=
  sorted (fun a b => a ≤ b)
    ((dateRange start stop).flatMap fun day => hours.map fun h => day + h * nsPerHour)

/-- What is left of the candidates. -/
def settlements (hours : List ℤ) (start stop : ℤ) : List ℤ :=
  (candidates hours start stop).filter fun t => start ≤ t ∧ t < stop

/-- `funding_timestamps`. -/
def fundingTimestamps (start stop : Timestamp) (assumptions : FundingAssumptions) :
    Except PyError (List ℤ) :=
  if !start.aware || !stop.aware then
    .error (.valueError "start/end must be timezone-aware (UTC)")
  else .ok (settlements assumptions.fundingHoursUtc start.ns stop.ns)

/-- A row of `positions`. -/
structure FundedPosition where
  tsOpened : Timestamp
  tsClosed : Timestamp
  avgPxOpen : ℚ
  quantity : ℚ

/-- `estimate_funding_cost`. -/
def estimateFundingCost (positions : List FundedPosition) (assumptions : FundingAssumptions) :
    Except PyError ℚ :=
  positions.foldlM (fun total row => do
    let events ← fundingTimestamps row.tsOpened row.tsClosed assumptions
    return total + events.length * (row.quantity * row.avgPxOpen) * assumptions.ratePerInterval) 0

/-! ## Settlements -/

/-- An instant at which the schedule settles: an hour of some day. -/
def Settles (hours : List ℤ) (t : ℤ) : Prop := ∃ day : ℤ, ∃ h ∈ hours, t = day * nsPerDay + h * nsPerHour

theorem mem_dateRange {start stop d : ℤ} : d ∈ dateRange start stop ↔
    ∃ day : ℤ, d = day * nsPerDay ∧ floorDay start ≤ d ∧ d ≤ ceilDay stop := by
  have hday : (0 : ℤ) < nsPerDay := by decide
  obtain ⟨a, ha⟩ : ∃ a, floorDay start = a * nsPerDay := ⟨_, rfl⟩
  obtain ⟨b, hb⟩ : ∃ b, ceilDay stop = b * nsPerDay := ⟨_, rfl⟩
  unfold dateRange
  rw [ha, hb, ← Int.sub_mul, Int.mul_ediv_cancel _ hday.ne']
  simp only [List.mem_map, List.mem_range]
  constructor
  · rintro ⟨k, hk, rfl⟩
    refine ⟨a + k, by ring, ?_, ?_⟩
    · have hnonneg : 0 ≤ (k : ℤ) * nsPerDay := Int.mul_nonneg (Int.natCast_nonneg k) hday.le
      omega
    · rw [← Int.add_mul]
      exact Int.mul_le_mul_of_nonneg_right (by omega) hday.le
  · rintro ⟨day, rfl, hlow, hhigh⟩
    have hlow' : a ≤ day := Int.le_of_mul_le_mul_right hlow hday
    have hhigh' : day ≤ b := Int.le_of_mul_le_mul_right hhigh hday
    refine ⟨(day - a).toNat, by omega, ?_⟩
    rw [Int.toNat_of_nonneg (by omega)]
    ring

variable {hours : List ℤ} {start stop t : ℤ}

theorem mem_settlements_iff :
    t ∈ settlements hours start stop ↔ (start ≤ t ∧ t < stop) ∧
      ∃ d ∈ dateRange start stop, ∃ h ∈ hours, d + h * nsPerHour = t := by
  unfold settlements candidates
  rw [List.mem_filter, mem_sorted, List.mem_flatMap, decide_eq_true_eq, and_comm]
  simp only [List.mem_map]

/-- The hours whose settlements the days of a range have. -/
def InRange (hours : List ℤ) : Prop := ∀ h ∈ hours, -24 ≤ h ∧ h < 24

instance (hours : List ℤ) : Decidable (InRange hours) :=
  inferInstanceAs (Decidable (∀ h ∈ hours, -24 ≤ h ∧ h < 24))

/-- **The days** between two times have every settlement between them. -/
theorem day_mem_dateRange {h day start stop : ℤ} (hh : -24 ≤ h ∧ h < 24)
    (hstart : start ≤ day * nsPerDay + h * nsPerHour) (hstop : day * nsPerDay + h * nsPerHour < stop) :
    day * nsPerDay ∈ dateRange start stop := by
  refine mem_dateRange.mpr ⟨day, rfl, ?_, ?_⟩
  · unfold floorDay nsPerDay nsPerHour at *
    omega
  · unfold ceilDay nsPerDay nsPerHour at *
    omega

theorem mem_settlements (hhours : InRange hours) :
    t ∈ settlements hours start stop ↔ start ≤ t ∧ t < stop ∧ Settles hours t := by
  rw [mem_settlements_iff, and_assoc]
  refine and_congr_right fun hstart => and_congr_right fun hstop => ?_
  constructor
  · rintro ⟨d, hd, h, hh, rfl⟩
    obtain ⟨day, rfl, -, -⟩ := mem_dateRange.mp hd
    exact ⟨day, h, hh, rfl⟩
  · rintro ⟨day, h, hh, rfl⟩
    exact ⟨_, day_mem_dateRange (hhours h hh) hstart hstop, h, hh, rfl⟩

/-! ## Additivity -/

/-- The settlements of one hour. -/
def hourly (h start stop : ℤ) : List ℤ :=
  ((dateRange start stop).map fun day => day + h * nsPerHour).filter fun t => start ≤ t ∧ t < stop

theorem ascending_hourly (h start stop : ℤ) : (hourly h start stop).Pairwise (· < ·) := by
  have hday : (0 : ℤ) < nsPerDay := by decide
  refine List.Pairwise.filter _ (List.pairwise_map.mpr (List.pairwise_map.mpr ?_))
  refine List.pairwise_lt_range.imp fun {a b} hab => ?_
  have hlt : (a : ℤ) * nsPerDay < b * nsPerDay := Int.mul_lt_mul_of_pos_right (by omega) hday
  omega

theorem mem_hourly {h start stop t : ℤ} (hh : -24 ≤ h ∧ h < 24) : t ∈ hourly h start stop ↔
    start ≤ t ∧ t < stop ∧ ∃ day : ℤ, t = day * nsPerDay + h * nsPerHour := by
  unfold hourly
  rw [List.mem_filter, List.mem_map, decide_eq_true_eq, and_comm, and_assoc]
  refine and_congr_right fun hstart => and_congr_right fun hstop => ?_
  constructor
  · rintro ⟨d, hd, rfl⟩
    obtain ⟨day, rfl, -, -⟩ := mem_dateRange.mp hd
    exact ⟨day, rfl⟩
  · rintro ⟨day, rfl⟩
    exact ⟨_, day_mem_dateRange hh hstart hstop, rfl⟩

/-- The settlements of one hour, before a time and from it on. -/
theorem hourly_append {h start middle stop : ℤ} (hh : -24 ≤ h ∧ h < 24) (hsm : start ≤ middle)
    (hme : middle ≤ stop) : hourly h start stop = hourly h start middle ++ hourly h middle stop := by
  refine eq_of_ascending (ascending_hourly h start stop) ?_ fun t => ?_
  · refine List.pairwise_append.mpr ⟨ascending_hourly .., ascending_hourly .., fun a ha b hb => ?_⟩
    exact lt_of_lt_of_le ((mem_hourly hh).mp ha).2.1 ((mem_hourly hh).mp hb).1
  · rw [List.mem_append, mem_hourly hh, mem_hourly hh, mem_hourly hh]
    constructor
    · rintro ⟨hstart, hstop, hsettles⟩
      rcases lt_or_ge t middle with ht | ht
      · exact .inl ⟨hstart, ht, hsettles⟩
      · exact .inr ⟨ht, hstop, hsettles⟩
    · rintro (⟨hstart, hstop, hsettles⟩ | ⟨hstart, hstop, hsettles⟩)
      · exact ⟨hstart, hstop.trans_le hme, hsettles⟩
      · exact ⟨hsm.trans hstart, hstop, hsettles⟩

/-- Sums over the days and the hours, in either order. -/
theorem flatMap_map_perm {α β γ : Type} (f : α → β → γ) (as : List α) (bs : List β) :
    (as.flatMap fun a => bs.map fun b => f a b).Perm (bs.flatMap fun b => as.map fun a => f a b) := by
  rw [← Multiset.coe_eq_coe, ← Multiset.coe_bind, ← Multiset.coe_bind]
  exact Multiset.bind_map_comm (as : Multiset α) (bs : Multiset β)

/-- The settlements are those of the hours. -/
theorem settlements_perm (hours : List ℤ) (start stop : ℤ) :
    (settlements hours start stop).Perm (hours.flatMap fun h => hourly h start stop) := by
  have hperm := (List.perm_insertionSort (fun a b : ℤ => decide (a ≤ b) = true)
    ((dateRange start stop).flatMap fun day => hours.map fun h => day + h * nsPerHour)).trans
      (flatMap_map_perm (fun day h : ℤ => day + h * nsPerHour) (dateRange start stop) hours)
  have hfilter := hperm.filter fun t => decide (start ≤ t ∧ t < stop)
  rw [List.filter_flatMap] at hfilter
  exact hfilter

theorem pairwise_settlements (hours : List ℤ) (start stop : ℤ) :
    (settlements hours start stop).Pairwise (· ≤ ·) :=
  ((pairwise_sorted _ (fun a b => by simpa using le_total a b)
    (fun a b c hab hbc => by simpa using le_trans (of_decide_eq_true hab) (of_decide_eq_true hbc))
    _).imp fun h => by simpa using h).filter _

/-- **Settlements** between two times are those before a time between them and those from it on. -/
theorem settlements_append (hhours : InRange hours) {start middle stop : ℤ}
    (hsm : start ≤ middle) (hme : middle ≤ stop) : settlements hours start stop =
      settlements hours start middle ++ settlements hours middle stop := by
  have hhourly : (hours.flatMap fun h => hourly h start stop) =
      hours.flatMap fun h => hourly h start middle ++ hourly h middle stop :=
    List.flatMap_congr fun h hh => hourly_append (hhours h hh) hsm hme
  have hperm : (settlements hours start stop).Perm
      (settlements hours start middle ++ settlements hours middle stop) := by
    refine (settlements_perm hours start stop).trans ?_
    rw [hhourly]
    refine (List.flatMap_append_perm hours _ _).symm.trans ?_
    exact (settlements_perm hours start middle).symm.append (settlements_perm ..).symm
  refine hperm.eq_of_pairwise (fun a b _ _ hab hba => le_antisymm hab hba)
    (pairwise_settlements ..) (List.pairwise_append.mpr
      ⟨pairwise_settlements .., pairwise_settlements .., fun a ha b hb => ?_⟩)
  exact ((mem_settlements hhours).mp ha).2.1.le.trans ((mem_settlements hhours).mp hb).1

/-- The cost of a position between two times. -/
def fundingCost (start stop : ℤ) (price quantity : ℚ) (assumptions : FundingAssumptions) :
    Except PyError ℚ :=
  estimateFundingCost [⟨⟨start, true⟩, ⟨stop, true⟩, price, quantity⟩] assumptions

theorem fundingCost_eq (start stop : ℤ) (price quantity : ℚ) (assumptions : FundingAssumptions) :
    fundingCost start stop price quantity assumptions =
      .ok ((settlements assumptions.fundingHoursUtc start stop).length * (quantity * price) *
        assumptions.ratePerInterval) := by
  show Except.ok (0 + _) = _
  rw [zero_add]

end Greenfield.Backtesting
