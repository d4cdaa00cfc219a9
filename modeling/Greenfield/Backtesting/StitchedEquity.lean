import Greenfield.Lib.Neighbours
import Mathlib.Algebra.BigOperators.Group.List.Basic
import Mathlib.Algebra.Order.Field.Rat
import Mathlib.Tactic.FieldSimp
import Mathlib.Tactic.Ring

/-!
# Stitched equity

`_stitch_equity_curves` of `src/backtesting/walk_forward.py`. The returns of the curves are
compounded one after another, so the curve that comes out is each source curve times a constant,
and the constants make them join (`stitched_equity`).
-/

namespace Greenfield.Backtesting

open Neighbours

/-- A series of values by their timestamps. -/
abbrev EquityCurve := List (ℤ × ℚ)

/-- `s.pct_change().dropna()`, for values that are not zero. -/
def periodReturns (s : EquityCurve) : EquityCurve :=
  (pairs s).map fun p => (p.2.1, p.2.2 / p.1.2 - 1)

/-- `cumprod`, from a product on. -/
def cumprodFrom : ℚ → List ℚ → List ℚ
  | _, [] => []
  | acc, x :: xs => (acc * x) :: cumprodFrom (acc * x) xs

/-- `_stitch_equity_curves`. -/
def stitchEquityCurves (equitySegments : List EquityCurve) (startingBalance : ℚ) : EquityCurve :=
  let nonEmpty := equitySegments.filter fun s => !s.isEmpty
  match nonEmpty.head?.bind List.head? with
  | none => []
  | some first =>
    let allReturns := (nonEmpty.map periodReturns).filter fun r => !r.isEmpty
    if allReturns.isEmpty then [(first.1, startingBalance)]
    else
      let combinedReturns := allReturns.flatten
      let equityValues := (cumprodFrom 1 (combinedReturns.map fun r => 1 + r.2)).map
        fun x => startingBalance * x
      (first.1, startingBalance) :: (combinedReturns.map Prod.fst).zip equityValues

/-! ## Compounding -/

/-- Values that compound returns, from a level on. -/
def compound : ℚ → EquityCurve → EquityCurve
  | _, [] => []
  | level, r :: rs => (r.1, level * (1 + r.2)) :: compound (level * (1 + r.2)) rs

/-- What returns multiply a level by. -/
def growth (rs : EquityCurve) : ℚ := (rs.map fun r => 1 + r.2).prod

theorem zip_cumprod (level acc : ℚ) (rs : EquityCurve) :
    (rs.map Prod.fst).zip ((cumprodFrom acc (rs.map fun r => 1 + r.2)).map fun x => level * x) =
      compound (level * acc) rs := by
  induction rs generalizing acc with
  | nil => rfl
  | cons r rs ih => simp [cumprodFrom, compound, ih, mul_assoc]

theorem compound_append (level : ℚ) (rs rs' : EquityCurve) :
    compound level (rs ++ rs') = compound level rs ++ compound (level * growth rs) rs' := by
  induction rs generalizing level with
  | nil => simp [compound, growth]
  | cons r rs ih => simp [compound, growth, ih, mul_assoc]

/-- The ratio of the last value of a curve to its first one. -/
def totalReturn (s : EquityCurve) : ℚ :=
  match s.head?, s.getLast? with
  | some first, some last => last.2 / first.2
  | _, _ => 1

/-- A curve, scaled. -/
def scaled (m : ℚ) (s : EquityCurve) : EquityCurve := s.map fun p => (p.1, m * p.2)

variable {s : EquityCurve}

/-- The returns of a curve give the curve back, scaled to start at the level. -/
theorem compound_returns {p : ℤ × ℚ} (hpos : ∀ q ∈ p :: s, 0 < q.2) (level : ℚ) :
    compound level (periodReturns (p :: s)) = scaled (level / p.2) s ∧
      level * growth (periodReturns (p :: s)) = level / p.2 * ((p :: s).getLast (by simp)).2 := by
  induction s generalizing p level with
  | nil =>
    have hp := (hpos p (by simp)).ne'
    exact ⟨rfl, by simp [periodReturns, growth, hp]⟩
  | cons q s ih =>
    have hp := (hpos p (by simp)).ne'
    have hq := (hpos q (by simp)).ne'
    obtain ⟨hcompound, hgrowth⟩ := ih (p := q) (fun r hr => hpos r (List.mem_cons_of_mem p hr))
      (level * (q.2 / p.2))
    have hreturns : periodReturns (p :: q :: s) = (q.1, q.2 / p.2 - 1) :: periodReturns (q :: s) := rfl
    have hlevel : level * (q.2 / p.2) / q.2 = level / p.2 := by field_simp
    rw [hlevel] at hcompound hgrowth
    constructor
    · rw [hreturns, compound, add_sub_cancel, hcompound]
      simp only [scaled, List.map_cons, List.cons.injEq, Prod.mk.injEq, true_and, and_true]
      ring
    · rw [hreturns, List.getLast_cons (by simp), ← hgrowth]
      simp only [growth, List.map_cons, List.prod_cons, add_sub_cancel]
      ring

/-- The last value of what is compounded. -/
theorem getLast_compound (t : ℤ) (level : ℚ) (rs : EquityCurve) :
    (((t, level) :: compound level rs).getLast (by simp)).2 = level * growth rs := by
  induction rs generalizing t level with
  | nil => simp [compound, growth]
  | cons r rs ih =>
    rw [compound, List.getLast_cons (by simp), ih]
    simp [growth, mul_assoc]

/-! ## Joined curves -/

/-- The curves, each scaled by its constant, join without a jump from a level on. -/
def Joins : ℚ → List EquityCurve → List ℚ → Prop
  | _, [], [] => True
  | level, s :: ss, m :: ms => ∃ first last, s.head? = some first ∧ s.getLast? = some last ∧
      m * first.2 = level ∧ Joins (m * last.2) ss ms
  | _, _, _ => False

/-- What is compounded are the source curves without their first points, scaled to join. -/
theorem compound_joins {ss : List EquityCurve} (hne : ∀ s ∈ ss, s ≠ [])
    (hpos : ∀ s ∈ ss, ∀ q ∈ s, 0 < q.2) (level : ℚ) :
    ∃ ms, Joins level ss ms ∧
      compound level (ss.map periodReturns).flatten =
        (ss.zip ms).flatMap (fun sm => scaled sm.2 sm.1.tail) ∧
      level * growth (ss.map periodReturns).flatten = level * (ss.map totalReturn).prod := by
  induction ss generalizing level with
  | nil => exact ⟨[], trivial, rfl, by simp [growth]⟩
  | cons s ss ih =>
    obtain ⟨hs, hss⟩ := List.forall_mem_cons.mp hne
    obtain ⟨hsPos, hssPos⟩ := List.forall_mem_cons.mp hpos
    obtain ⟨p, tail, rfl⟩ := List.exists_cons_of_ne_nil hs
    obtain ⟨hcompound, hgrowth⟩ := compound_returns hsPos level
    set last := (p :: tail).getLast (by simp) with hlast
    obtain ⟨ms, hjoins, hrest, hprod⟩ := ih hss hssPos (level / p.2 * last.2)
    have hp := (hsPos p (by simp)).ne'
    have hlast? : (p :: tail).getLast? = some last := List.getLast?_eq_some_getLast (by simp)
    have htotal : totalReturn (p :: tail) = last.2 / p.2 := by
      simp [totalReturn, hlast?]
    refine ⟨level / p.2 :: ms, ⟨p, last, rfl, hlast?, by field_simp, hjoins⟩, ?_, ?_⟩
    · rw [List.map_cons, List.flatten_cons, compound_append, hcompound, hgrowth, hrest]
      rfl
    · have hsplit : ∀ rs rs' : EquityCurve, growth (rs ++ rs') = growth rs * growth rs' := by
        simp [growth]
      rw [List.map_cons, List.flatten_cons, hsplit, ← mul_assoc, hgrowth, hprod, List.map_cons,
        List.prod_cons, htotal]
      ring

/-- The code compounds the returns of all curves. -/
theorem stitchEquityCurves_eq {segments : List EquityCurve} {t : ℤ} {v : ℚ}
    {rest : List EquityCurve}
    (h : (segments.filter fun s => !s.isEmpty) = ((t, v) :: s) :: rest) (startingBalance : ℚ) :
    stitchEquityCurves segments startingBalance = (t, startingBalance) ::
      compound startingBalance ((((t, v) :: s) :: rest).map periodReturns).flatten := by
  unfold stitchEquityCurves
  rw [h]
  simp only [List.head?_cons, Option.bind_some]
  split
  · next hempty =>
    have hnil : ((((t, v) :: s) :: rest).map periodReturns).flatten = [] := by
      rw [← List.flatten_filter_not_isEmpty, List.isEmpty_iff.mp hempty]
      rfl
    rw [hnil]
    rfl
  · rw [List.flatten_filter_not_isEmpty, zip_cumprod, mul_one]

/-- **The stitched curve.** It starts with the starting balance
at the first point, ends with its product with the
returns of the curves, and is each curve times a constant, where the constants make the curves
join. -/
theorem stitched_equity (segments : List EquityCurve) (startingBalance : ℚ)
    (hpos : ∀ s ∈ segments, ∀ p ∈ s, 0 < p.2) (hne : ∃ s ∈ segments, s ≠ []) :
    ∃ t v multiples,
      (segments.filter fun s => !s.isEmpty).head?.bind List.head? = some (t, v) ∧
      Joins startingBalance (segments.filter fun s => !s.isEmpty) multiples ∧
      stitchEquityCurves segments startingBalance = (t, startingBalance) ::
        ((segments.filter fun s => !s.isEmpty).zip multiples).flatMap
          (fun sm => scaled sm.2 sm.1.tail) ∧
      (stitchEquityCurves segments startingBalance).getLast?.map Prod.snd =
        some (startingBalance * ((segments.filter fun s => !s.isEmpty).map totalReturn).prod) := by
  set nonEmpty := segments.filter fun s => !s.isEmpty with hnonEmpty
  have hmem : ∀ s ∈ nonEmpty, s ∈ segments ∧ s ≠ [] := by
    intro s hs
    obtain ⟨hs, hempty⟩ := List.mem_filter.mp hs
    exact ⟨hs, by simpa using hempty⟩
  obtain ⟨s, hs, hsne⟩ := hne
  have hsome : nonEmpty ≠ [] := List.ne_nil_of_mem (List.mem_filter.mpr ⟨hs, by simpa using hsne⟩)
  obtain ⟨first, rest, hsplit⟩ := List.exists_cons_of_ne_nil hsome
  obtain ⟨⟨t, v⟩, tail, rfl⟩ := List.exists_cons_of_ne_nil
    (hmem first (hsplit ▸ List.mem_cons_self)).2
  obtain ⟨ms, hjoins, hcompound, hgrowth⟩ := compound_joins (fun s hs => (hmem s hs).2)
    (fun s hs => hpos s (hmem s hs).1) startingBalance
  have heq := stitchEquityCurves_eq (hnonEmpty ▸ hsplit) startingBalance
  rw [← hsplit] at heq
  refine ⟨t, v, ms, by rw [hsplit]; rfl, hjoins, by rw [heq, hcompound], ?_⟩
  rw [heq, List.getLast?_eq_some_getLast (by simp), Option.map_some, getLast_compound, hgrowth]

/-- Two curves, and an empty one between them. -/
def twoCurves : List EquityCurve := [[(0, 100), (1, 110)], [], [(2, 50), (3, 25)]]

theorem stitched_equity_twoCurves :
    ∃ t v multiples,
      (twoCurves.filter fun s => !s.isEmpty).head?.bind List.head? = some (t, v) ∧
      Joins 1000 (twoCurves.filter fun s => !s.isEmpty) multiples ∧
      stitchEquityCurves twoCurves 1000 = (t, 1000) ::
        ((twoCurves.filter fun s => !s.isEmpty).zip multiples).flatMap
          (fun sm => scaled sm.2 sm.1.tail) ∧
      (stitchEquityCurves twoCurves 1000).getLast?.map Prod.snd =
        some (1000 * ((twoCurves.filter fun s => !s.isEmpty).map totalReturn).prod) :=
  stitched_equity twoCurves 1000 (by decide +kernel) ⟨[(0, 100), (1, 110)], by decide +kernel, by simp⟩

example : stitchEquityCurves twoCurves 1000 = [(0, 1000), (1, 1100), (3, 550)] := by decide +kernel

end Greenfield.Backtesting
