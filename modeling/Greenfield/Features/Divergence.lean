import Greenfield.Py.Basic
import Mathlib.Data.List.GetD
import Mathlib.Data.Rat.Defs

/-!
# Confirmed divergences

`confirmed_divergence_frame` of `src/features/divergence.py`. A price is `none` where it is not a
number. A pivot is compared with the pivot before it, which the loop carries (`Recalls`), and a row
is computed from the bars up to its confirmation, so later bars leave it as it is
(`confirmedDivergenceFrame_isDivergence`).
-/

namespace Greenfield.Features.Divergence

open Py

structure Bar where
  timestamp : ℤ
  maxSourceTimestamp : ℤ
  price : Option ℚ
  oscillator : Option ℚ
  deriving DecidableEq

structure DivergenceRow where
  timestamp : ℤ
  maxSourceTimestamp : ℤ
  regularBullishDivergence : ℕ
  hiddenBullishDivergence : ℕ
  regularBearishDivergence : ℕ
  hiddenBearishDivergence : ℕ
  confirmedPivotLow : ℕ
  confirmedPivotHigh : ℕ
  pivotAgeBars : ℕ
  deriving DecidableEq

/-- The price and the oscillator of a pivot. -/
structure Point where
  price : Option ℚ
  osc : Option ℚ
  deriving DecidableEq

inductive PivotKind where
  | low
  | high
  deriving DecidableEq

/-- `min` or `max` of the numbers of a window. -/
def PivotKind.best : PivotKind → List ℚ → Option ℚ
  | .low, values => values.min?
  | .high, values => values.max?

/-- `price == window.min() and (window == price).sum() == 1`, and so with `max`. -/
def PivotKind.isPivot (kind : PivotKind) (window : List (Option ℚ)) (price : Option ℚ) : Bool :=
  price.isSome && price = kind.best (window.filterMap id) && window.count price = 1

/-- `a < b`, which no missing number is. -/
def less (a b : Option ℚ) : Bool := a.any fun x => b.any fun y => x < y

/-- The price went down and the oscillator up. -/
def downAndUp (point previous : Point) : Bool :=
  less point.price previous.price && less previous.osc point.osc

/-- The price went up and the oscillator down. -/
def upAndDown (point previous : Point) : Bool :=
  less previous.price point.price && less point.osc previous.osc

/-- `previous_low` and `previous_high`. -/
structure Pivots where
  low : Option Point
  high : Option Point

variable (leftBars rightBars : ℕ) (bars : List Bar)

def pointAt (pivot : ℕ) : Point :=
  ⟨(bars.map Bar.price).getD pivot none, (bars.map Bar.oscillator).getD pivot none⟩

/-- The prices from `leftBars` before the pivot to `rightBars` after it. -/
def windowAt (pivot : ℕ) : List (Option ℚ) :=
  ((bars.map Bar.price).drop (pivot - leftBars)).take (leftBars + rightBars + 1)

def pivotAt (kind : PivotKind) (pivot : ℕ) : Bool :=
  kind.isPivot (windowAt leftBars rightBars bars pivot) (pointAt bars pivot).price

/-- `int(flag)`. -/
def ofFlag (flag : Bool) : ℕ := if flag then 1 else 0

/-- The row of a confirmation. -/
def rowAt (previous : Pivots) (confirmation : ℕ) : DivergenceRow :=
  let pivot := confirmation - rightBars
  let low := pivotAt leftBars rightBars bars .low pivot
  let high := pivotAt leftBars rightBars bars .high pivot
  { timestamp := (bars.map Bar.timestamp).getD confirmation 0
    maxSourceTimestamp := (bars.map Bar.maxSourceTimestamp).getD confirmation 0
    regularBullishDivergence := ofFlag (low && previous.low.any (downAndUp (pointAt bars pivot)))
    hiddenBullishDivergence := ofFlag (low && previous.low.any (upAndDown (pointAt bars pivot)))
    regularBearishDivergence := ofFlag (high && previous.high.any (upAndDown (pointAt bars pivot)))
    hiddenBearishDivergence := ofFlag (high && previous.high.any (downAndUp (pointAt bars pivot)))
    confirmedPivotLow := ofFlag low
    confirmedPivotHigh := ofFlag high
    pivotAgeBars := rightBars }

/-- The pivots after a confirmation. -/
def Pivots.after (previous : Pivots) (confirmation : ℕ) : Pivots :=
  let pivot := confirmation - rightBars
  { low := if pivotAt leftBars rightBars bars .low pivot then some (pointAt bars pivot)
      else previous.low
    high := if pivotAt leftBars rightBars bars .high pivot then some (pointAt bars pivot)
      else previous.high }

/-- The rows of confirmations, one after the other. -/
def divergenceRows : Pivots → List ℕ → List DivergenceRow
  | _, [] => []
  | previous, confirmation :: rest =>
    rowAt leftBars rightBars bars previous confirmation ::
      divergenceRows (previous.after leftBars rightBars bars confirmation) rest

/-- `range(left_bars + right_bars, len(ordered))`. -/
def confirmations : List ℕ :=
  List.range' (leftBars + rightBars) (bars.length - (leftBars + rightBars))

def barLe (a b : Bar) : Bool := a.timestamp ≤ b.timestamp

/-- `confirmed_divergence_frame`. -/
def confirmedDivergenceFrame (leftBars rightBars : ℤ) (frame : List Bar) :
    Except PyError (List DivergenceRow) :=
  if leftBars ≤ 0 ∨ rightBars ≤ 0 then
    .error (.valueError "pivot confirmation windows must be positive")
  else
    .ok (divergenceRows leftBars.toNat rightBars.toNat (sorted barLe frame) ⟨none, none⟩
      (confirmations leftBars.toNat rightBars.toNat (sorted barLe frame)))

/-! ## Pivots -/

/-- `x` is before `y` in the sense of the kind: below it for a low, above it for a high. -/
def PivotKind.beats : PivotKind → ℚ → ℚ → Prop
  | .low, x, y => x < y
  | .high, x, y => y < x

theorem PivotKind.best_iff (kind : PivotKind) {values : List ℚ} {v : ℚ} :
    kind.best values = some v ↔ v ∈ values ∧ ∀ w ∈ values, v = w ∨ kind.beats v w := by
  cases kind with
  | low =>
    show values.min? = some v ↔ _
    rw [List.min?_eq_some_iff]
    simp only [le_iff_eq_or_lt, PivotKind.beats]
  | high =>
    show values.max? = some v ↔ _
    rw [List.max?_eq_some_iff]
    simp only [le_iff_eq_or_lt, PivotKind.beats, eq_comm]

theorem PivotKind.not_beats_self (kind : PivotKind) (v : ℚ) : ¬ kind.beats v v := by
  cases kind with
  | low => exact lt_irrefl v
  | high => exact lt_irrefl v

/-- **A pivot** beats all other numbers of its window. -/
theorem PivotKind.isPivot_iff (kind : PivotKind) {before after : List (Option ℚ)}
    {price : Option ℚ} : kind.isPivot (before ++ price :: after) price = true ↔
      ∃ v, price = some v ∧ ∀ w, some w ∈ before ++ after → kind.beats v w := by
  unfold PivotKind.isPivot
  simp only [Bool.and_eq_true, decide_eq_true_eq, and_assoc]
  cases price with
  | none => simp
  | some v =>
    have hmem : ∀ w, w ∈ (before ++ some v :: after).filterMap id ↔
        w = v ∨ some w ∈ before ++ after := by
      intro w
      simp only [List.mem_filterMap, id_eq, exists_eq_right, List.mem_append, List.mem_cons,
        Option.some.injEq]
      tauto
    have hcount : (before ++ some v :: after).count (some v) = 1 ↔ some v ∉ before ++ after := by
      rw [List.count_append, List.count_cons_self, ← Nat.add_assoc, Nat.add_eq_right,
        ← List.count_append, List.count_eq_zero]
    rw [eq_comm (a := some v), kind.best_iff, hcount]
    simp only [Option.isSome_some, true_and, hmem, Option.some.injEq, exists_eq_left']
    constructor
    · rintro ⟨⟨-, hall⟩, hone⟩ w hw
      rcases hall w (.inr hw) with rfl | hbeats
      · exact absurd hw hone
      · exact hbeats
    · intro hall
      refine ⟨⟨.inl trivial, ?_⟩, fun hv => kind.not_beats_self v (hall v hv)⟩
      rintro w (rfl | hw)
      · exact .inl rfl
      · exact .inr (hall w hw)

variable {leftBars rightBars : ℕ} {bars : List Bar} {kind : PivotKind} {pivot : ℕ}

variable (leftBars rightBars bars kind) in
/-- The price is the only least, or greatest, one of the bars around it. -/
def IsPivot (pivot : ℕ) : Prop :=
  leftBars ≤ pivot ∧ pivot + rightBars < bars.length ∧
    ∃ v, (pointAt bars pivot).price = some v ∧ ∀ j, pivot ≤ j + leftBars → j ≤ pivot + rightBars →
      j ≠ pivot → ∀ w, (pointAt bars j).price = some w → kind.beats v w

theorem mem_slice {values : List (Option ℚ)} {start count : ℕ} {w : ℚ} :
    some w ∈ (values.drop start).take count ↔
      ∃ j, start ≤ j ∧ j < start + count ∧ values.getD j none = some w := by
  rw [List.mem_iff_getElem?]
  constructor
  · rintro ⟨i, hi⟩
    have hlt : i < count := by
      by_contra hno
      rw [List.getElem?_take, if_neg hno] at hi
      cases hi
    rw [List.getElem?_take_of_lt hlt, List.getElem?_drop] at hi
    exact ⟨start + i, by omega, by omega, by rw [List.getD_eq_getElem?_getD, hi]; rfl⟩
  · rintro ⟨j, hfrom, hto, hj⟩
    refine ⟨j - start, ?_⟩
    rw [List.getElem?_take_of_lt (by omega), List.getElem?_drop, Nat.add_sub_cancel' hfrom]
    rw [List.getD_eq_getElem?_getD] at hj
    cases h : values[j]? with
    | none => rw [h] at hj; cases hj
    | some x => rw [h] at hj; exact congrArg some hj

/-- The window of a pivot that is confirmed. -/
theorem windowAt_eq (hleft : leftBars ≤ pivot) (hright : pivot + rightBars < bars.length) :
    windowAt leftBars rightBars bars pivot =
      ((bars.map Bar.price).drop (pivot - leftBars)).take leftBars ++
        (pointAt bars pivot).price :: ((bars.map Bar.price).drop (pivot + 1)).take rightBars := by
  have hlength : pivot < (bars.map Bar.price).length := by
    rw [List.length_map]
    omega
  unfold windowAt pointAt
  dsimp only
  rw [Nat.add_assoc, List.take_add, List.drop_drop, Nat.sub_add_cancel hleft,
    List.drop_eq_getElem_cons hlength, List.take_succ_cons, List.getD_eq_getElem _ _ hlength]

theorem pivotAt_iff (hleft : leftBars ≤ pivot) (hright : pivot + rightBars < bars.length) :
    pivotAt leftBars rightBars bars kind pivot = true ↔
      IsPivot leftBars rightBars bars kind pivot := by
  unfold pivotAt IsPivot
  rw [windowAt_eq hleft hright, kind.isPivot_iff, and_iff_right hleft, and_iff_right hright]
  refine exists_congr fun v => and_congr_right fun _ => ?_
  simp only [List.mem_append, mem_slice]
  constructor
  · intro hall j hfrom hto hne w hw
    rcases Nat.lt_or_gt_of_ne hne with hlt | hgt
    · exact hall w (.inl ⟨j, by omega, by omega, hw⟩)
    · exact hall w (.inr ⟨j, by omega, by omega, hw⟩)
  · rintro hall w (⟨j, hfrom, hto, hw⟩ | ⟨j, hfrom, hto, hw⟩)
    · exact hall j (by omega) (by omega) (by omega) w hw
    · exact hall j (by omega) (by omega) (by omega) w hw

/-! ## The pivot before -/

/-- The latest earlier place with a property. -/
def LatestBefore (P : ℕ → Prop) (pivot earlier : ℕ) : Prop :=
  earlier < pivot ∧ P earlier ∧ ∀ m, earlier < m → m < pivot → ¬ P m

variable (bars) in
/-- What is carried to a pivot: the point of the latest earlier one. -/
def Recalls (P : ℕ → Prop) (pivot : ℕ) : Option Point → Prop
  | none => ∀ m < pivot, ¬ P m
  | some point => ∃ earlier, LatestBefore P pivot earlier ∧ point = pointAt bars earlier

variable {P : ℕ → Prop} {previous : Option Point} {flag : Bool}

theorem Recalls.next (h : Recalls bars P pivot previous)
    (hflag : flag = true ↔ P pivot) :
    Recalls bars P (pivot + 1) (if flag then some (pointAt bars pivot) else previous) := by
  by_cases hpivot : P pivot
  · rw [if_pos (hflag.mpr hpivot)]
    exact ⟨pivot, ⟨Nat.lt_succ_self pivot, hpivot, fun m hm hm' => by omega⟩, rfl⟩
  · rw [if_neg (mt hflag.mp hpivot)]
    cases previous with
    | none =>
      intro m hm
      rcases Nat.lt_succ_iff_lt_or_eq.mp hm with hm | rfl
      · exact h m hm
      · exact hpivot
    | some point =>
      obtain ⟨earlier, ⟨hlt, hearlier, hbetween⟩, hpoint⟩ := h
      refine ⟨earlier, ⟨by omega, hearlier, fun m hm hm' => ?_⟩, hpoint⟩
      rcases Nat.lt_succ_iff_lt_or_eq.mp hm' with hm' | rfl
      · exact hbetween m hm hm'
      · exact hpivot

theorem LatestBefore.unique {earlier earlier' : ℕ}
    (h : LatestBefore P pivot earlier) (h' : LatestBefore P pivot earlier') :
    earlier = earlier' := by
  rcases Nat.lt_trichotomy earlier earlier' with hlt | heq | hgt
  · exact absurd h'.2.1 (h.2.2 earlier' hlt h'.1)
  · exact heq
  · exact absurd h.2.1 (h'.2.2 earlier hgt h.1)

/-- A comparison with what is carried is one with the latest earlier pivot. -/
theorem Recalls.any_iff
    (h : Recalls bars P pivot previous) (compare : Point → Bool) :
    previous.any compare = true ↔
      ∃ earlier, LatestBefore P pivot earlier ∧ compare (pointAt bars earlier) = true := by
  cases previous with
  | none =>
    refine iff_of_false (by simp) ?_
    rintro ⟨earlier, ⟨hlt, hearlier, -⟩, -⟩
    exact h earlier hlt hearlier
  | some point =>
    obtain ⟨earlier, hlatest, rfl⟩ := h
    constructor
    · exact fun hcompare => ⟨earlier, hlatest, hcompare⟩
    · rintro ⟨earlier', hlatest', hcompare⟩
      obtain rfl := hlatest.unique hlatest'
      exact hcompare

/-! ## The rows -/

/-- A flag of a row. -/
def Flags (n : ℕ) (P : Prop) : Prop := (n = 1 ↔ P) ∧ (n = 0 ↔ ¬ P)

theorem ofFlag_flags {P : Prop} (h : flag = true ↔ P) : Flags (ofFlag flag) P := by
  unfold Flags ofFlag
  rw [← h]
  cases flag with
  | true => simp
  | false => simp

variable (leftBars rightBars bars) in
/-- A pivot that compares so with the latest earlier one of its kind. -/
def Diverges (kind : PivotKind) (compare : Point → Point → Bool) (pivot : ℕ) : Prop :=
  IsPivot leftBars rightBars bars kind pivot ∧ ∃ earlier,
    LatestBefore (IsPivot leftBars rightBars bars kind) pivot earlier ∧
      compare (pointAt bars pivot) (pointAt bars earlier) = true

/-- What the row of a confirmation says of its pivot. -/
structure IsRow (leftBars rightBars : ℕ) (bars : List Bar) (confirmation : ℕ)
    (row : DivergenceRow) : Prop where
  bar : ∃ bar, bars[confirmation]? = some bar ∧ row.timestamp = bar.timestamp ∧
    row.maxSourceTimestamp = bar.maxSourceTimestamp
  low : Flags row.confirmedPivotLow
    (IsPivot leftBars rightBars bars .low (confirmation - rightBars))
  high : Flags row.confirmedPivotHigh
    (IsPivot leftBars rightBars bars .high (confirmation - rightBars))
  regularBullish : Flags row.regularBullishDivergence
    (Diverges leftBars rightBars bars .low downAndUp (confirmation - rightBars))
  hiddenBullish : Flags row.hiddenBullishDivergence
    (Diverges leftBars rightBars bars .low upAndDown (confirmation - rightBars))
  regularBearish : Flags row.regularBearishDivergence
    (Diverges leftBars rightBars bars .high upAndDown (confirmation - rightBars))
  hiddenBearish : Flags row.hiddenBearishDivergence
    (Diverges leftBars rightBars bars .high downAndUp (confirmation - rightBars))
  age : row.pivotAgeBars = rightBars

variable (leftBars rightBars bars) in
/-- What is carried to a pivot, of both kinds. -/
structure Carries (pivot : ℕ) (previous : Pivots) : Prop where
  low : Recalls bars (IsPivot leftBars rightBars bars .low) pivot previous.low
  high : Recalls bars (IsPivot leftBars rightBars bars .high) pivot previous.high

variable {previous : Pivots} {confirmation : ℕ}

/-- **The row of a confirmation.** -/
theorem rowAt_isRow
    (hfrom : leftBars + rightBars ≤ confirmation) (hto : confirmation < bars.length)
    (h : Carries leftBars rightBars bars (confirmation - rightBars) previous) :
    IsRow leftBars rightBars bars confirmation
      (rowAt leftBars rightBars bars previous confirmation) := by
  have hflag : ∀ kind, pivotAt leftBars rightBars bars kind (confirmation - rightBars) = true ↔
      IsPivot leftBars rightBars bars kind (confirmation - rightBars) :=
    fun kind => pivotAt_iff (by omega) (by omega)
  have hdiverges : ∀ {kind : PivotKind} {point : Option Point} (compare : Point → Point → Bool),
      Recalls bars (IsPivot leftBars rightBars bars kind) (confirmation - rightBars) point →
        ((pivotAt leftBars rightBars bars kind (confirmation - rightBars) &&
          point.any (compare (pointAt bars (confirmation - rightBars)))) = true ↔
            Diverges leftBars rightBars bars kind compare (confirmation - rightBars)) := by
    intro kind point compare hrecalls
    rw [Bool.and_eq_true, hflag kind, hrecalls.any_iff]
    rfl
  unfold rowAt
  exact {
    bar := by
      refine ⟨bars[confirmation], List.getElem?_eq_getElem hto, ?_, ?_⟩
      · show (bars.map Bar.timestamp).getD confirmation 0 = _
        rw [List.getD_eq_getElem _ _ (by simpa using hto), List.getElem_map]
      · show (bars.map Bar.maxSourceTimestamp).getD confirmation 0 = _
        rw [List.getD_eq_getElem _ _ (by simpa using hto), List.getElem_map]
    low := ofFlag_flags (hflag .low)
    high := ofFlag_flags (hflag .high)
    regularBullish := ofFlag_flags (hdiverges downAndUp h.low)
    hiddenBullish := ofFlag_flags (hdiverges upAndDown h.low)
    regularBearish := ofFlag_flags (hdiverges upAndDown h.high)
    hiddenBearish := ofFlag_flags (hdiverges downAndUp h.high)
    age := rfl }

/-- **One confirmation more.** -/
theorem Carries.after
    (hfrom : leftBars + rightBars ≤ confirmation) (hto : confirmation < bars.length)
    (h : Carries leftBars rightBars bars (confirmation - rightBars) previous) :
    Carries leftBars rightBars bars (confirmation + 1 - rightBars)
      (previous.after leftBars rightBars bars confirmation) := by
  have hnext : confirmation + 1 - rightBars = confirmation - rightBars + 1 := by omega
  rw [hnext]
  exact ⟨h.low.next (pivotAt_iff (by omega) (by omega)),
    h.high.next (pivotAt_iff (by omega) (by omega))⟩

theorem divergenceRows_isRow : ∀ {count start : ℕ} {previous : Pivots},
    leftBars + rightBars ≤ start → start + count ≤ bars.length →
    Carries leftBars rightBars bars (start - rightBars) previous →
    List.Forall₂ (IsRow leftBars rightBars bars) (List.range' start count)
      (divergenceRows leftBars rightBars bars previous (List.range' start count))
  | 0, _, _, _, _, _ => .nil
  | count + 1, start, previous, hfrom, hto, h =>
    .cons (rowAt_isRow hfrom (by omega) h)
      (divergenceRows_isRow (by omega) (by omega) (h.after hfrom (by omega)))

/-! ## Later bars -/

theorem pointAt_append (later : List Bar) (h : pivot < bars.length) :
    pointAt (bars ++ later) pivot = pointAt bars pivot := by
  unfold pointAt
  rw [List.map_append, List.map_append, List.getD_append _ _ _ _ (by simpa using h),
    List.getD_append _ _ _ _ (by simpa using h)]

/-- The window of a pivot that is confirmed has no later bar. -/
theorem pivotAt_append (later : List Bar) (hleft : leftBars ≤ pivot)
    (hright : pivot + rightBars < bars.length) :
    pivotAt leftBars rightBars (bars ++ later) kind pivot =
      pivotAt leftBars rightBars bars kind pivot := by
  have hwindow : windowAt leftBars rightBars (bars ++ later) pivot =
      windowAt leftBars rightBars bars pivot := by
    unfold windowAt
    rw [List.map_append, List.drop_append_of_le_length (by rw [List.length_map]; omega),
      List.take_append_of_le_length (by rw [List.length_drop, List.length_map]; omega)]
  unfold pivotAt
  rw [hwindow, pointAt_append later (by omega)]

theorem rowAt_append (later : List Bar)
    (hfrom : leftBars + rightBars ≤ confirmation) (hto : confirmation < bars.length) :
    rowAt leftBars rightBars (bars ++ later) previous confirmation =
        rowAt leftBars rightBars bars previous confirmation ∧
      previous.after leftBars rightBars (bars ++ later) confirmation =
        previous.after leftBars rightBars bars confirmation := by
  have hpivot : ∀ kind, pivotAt leftBars rightBars (bars ++ later) kind (confirmation - rightBars) =
      pivotAt leftBars rightBars bars kind (confirmation - rightBars) :=
    fun kind => pivotAt_append later (by omega) (by omega)
  have hpoint := pointAt_append later (show confirmation - rightBars < bars.length by omega)
  constructor
  · unfold rowAt
    rw [List.map_append, List.map_append, List.getD_append _ _ _ _ (by simpa using hto),
      List.getD_append _ _ _ _ (by simpa using hto)]
    simp only [hpivot, hpoint]
  · unfold Pivots.after
    simp only [hpivot, hpoint]

theorem divergenceRows_append (later : List Bar) : ∀ {count start : ℕ} (previous : Pivots)
    (rest : List ℕ), leftBars + rightBars ≤ start → start + count ≤ bars.length →
    divergenceRows leftBars rightBars bars previous (List.range' start count) <+:
      divergenceRows leftBars rightBars (bars ++ later) previous (List.range' start count ++ rest)
  | 0, _, _, _, _, _ => List.nil_prefix
  | count + 1, start, previous, rest, hfrom, hto => by
    have hto' : start < bars.length := by omega
    rw [List.range'_succ, List.cons_append, divergenceRows, divergenceRows,
      (rowAt_append later hfrom hto').1, (rowAt_append later hfrom hto').2]
    exact (List.prefix_cons_inj _).mpr (divergenceRows_append later _ rest (by omega) (by omega))

/-- More bars have more confirmations behind. -/
theorem confirmations_append (leftBars rightBars : ℕ) (bars later : List Bar) :
    confirmations leftBars rightBars bars <+:
      confirmations leftBars rightBars (bars ++ later) := by
  unfold confirmations
  rw [List.length_append]
  by_cases hroom : leftBars + rightBars ≤ bars.length
  · have hsplit := @List.range'_append_1 (leftBars + rightBars)
      (bars.length - (leftBars + rightBars)) later.length
    rw [show bars.length - (leftBars + rightBars) + later.length =
      bars.length + later.length - (leftBars + rightBars) by omega] at hsplit
    exact ⟨_, hsplit⟩
  · rw [Nat.sub_eq_zero_of_le (by omega)]
    exact List.nil_prefix

theorem barLe_total (a b : Bar) : barLe a b = true ∨ barLe b a = true :=
  (le_total a.timestamp b.timestamp).imp decide_eq_true decide_eq_true

theorem barLe_trans (a b c : Bar) (hab : barLe a b = true) (hbc : barLe b c = true) :
    barLe a c = true :=
  decide_eq_true ((of_decide_eq_true hab).trans (of_decide_eq_true hbc))

/-- Later bars are sorted behind. -/
theorem sorted_append {frame later : List Bar}
    (hunique : ((frame ++ later).map Bar.timestamp).Nodup)
    (hlater : ∀ a ∈ frame, ∀ b ∈ later, a.timestamp < b.timestamp) :
    sorted barLe (frame ++ later) = sorted barLe frame ++ sorted barLe later := by
  have hperm : (frame ++ later).Perm (sorted barLe frame ++ sorted barLe later) :=
    ((List.perm_insertionSort _ frame).append (List.perm_insertionSort _ later)).symm
  refine sorted_eq_of_perm barLe_total barLe_trans hperm ?_ ?_
  · refine List.pairwise_append.mpr ⟨pairwise_sorted barLe barLe_total barLe_trans frame,
      pairwise_sorted barLe barLe_total barLe_trans later, fun a ha b hb => ?_⟩
    exact decide_eq_true (hlater a (mem_sorted.mp ha) b (mem_sorted.mp hb)).le
  · intro a ha b hb hab hba
    have heq := le_antisymm (of_decide_eq_true hab) (of_decide_eq_true hba)
    exact List.inj_on_of_nodup_map hunique (hperm.mem_iff.mpr ha) (hperm.mem_iff.mpr hb) heq

/-- What a frame of divergences is. -/
structure IsDivergenceFrame (leftBars rightBars : ℕ) (frame : List Bar)
    (out : List DivergenceRow) : Prop where
  /-- One row for each confirmation. -/
  rows : List.Forall₂ (IsRow leftBars rightBars (sorted barLe frame))
    (confirmations leftBars rightBars (sorted barLe frame)) out
  /-- Later bars leave the rows as they are. -/
  causal : ∀ later, ((frame ++ later).map Bar.timestamp).Nodup →
    (∀ a ∈ frame, ∀ b ∈ later, a.timestamp < b.timestamp) →
    ∃ rest, confirmedDivergenceFrame leftBars rightBars (frame ++ later) = .ok (out ++ rest)

/-- **Confirmed divergences** compare each pivot with the one before it, and do not change. -/
theorem confirmedDivergenceFrame_isDivergence (frame : List Bar) {leftBars rightBars : ℕ}
    (hleft : 0 < leftBars) (hright : 0 < rightBars) :
    ∃ out, confirmedDivergenceFrame leftBars rightBars frame = .ok out ∧
      IsDivergenceFrame leftBars rightBars frame out := by
  have hok : ∀ frame, confirmedDivergenceFrame leftBars rightBars frame =
      .ok (divergenceRows leftBars rightBars (sorted barLe frame) ⟨none, none⟩
        (confirmations leftBars rightBars (sorted barLe frame))) := fun frame => if_neg (by omega)
  have hstart : Carries leftBars rightBars (sorted barLe frame)
      (leftBars + rightBars - rightBars) ⟨none, none⟩ := by
    rw [Nat.add_sub_cancel]
    exact ⟨fun m hm h => absurd h.1 (by omega), fun m hm h => absurd h.1 (by omega)⟩
  refine ⟨_, hok frame, ?_, fun later hlaterUnique hlater => ?_⟩
  · unfold confirmations
    by_cases hroom : leftBars + rightBars ≤ (sorted barLe frame).length
    · exact divergenceRows_isRow le_rfl (by omega) hstart
    · rw [Nat.sub_eq_zero_of_le (by omega)]
      exact .nil
  · rw [hok, sorted_append hlaterUnique hlater]
    obtain ⟨rest, hrest⟩ := confirmations_append leftBars rightBars (sorted barLe frame)
      (sorted barLe later)
    rw [← hrest]
    unfold confirmations
    by_cases hroom : leftBars + rightBars ≤ (sorted barLe frame).length
    · obtain ⟨more, hmore⟩ := divergenceRows_append (sorted barLe later) ⟨none, none⟩
        rest le_rfl (Nat.add_sub_cancel' hroom).le
      exact ⟨more, by rw [hmore]⟩
    · rw [Nat.sub_eq_zero_of_le (by omega)]
      exact ⟨_, rfl⟩

/-- A bar of a minute. -/
def sampleBar (minute : ℤ) (price oscillator : ℚ) : Bar :=
  ⟨minute, minute, some price, some oscillator⟩

/-- The second low is lower, and its oscillator is higher. -/
def sampleBars : List Bar :=
  [sampleBar 0 9 0, sampleBar 1 8 (-2), sampleBar 2 9 0, sampleBar 3 7 (-1), sampleBar 4 9 0]

theorem confirmedDivergenceFrame_isDivergence_sample :
    ∃ out, confirmedDivergenceFrame (1 : ℕ) (1 : ℕ) sampleBars = .ok out ∧
      IsDivergenceFrame 1 1 sampleBars out :=
  confirmedDivergenceFrame_isDivergence sampleBars (by decide) (by decide)

end Greenfield.Features.Divergence
