import Mathlib.Algebra.Order.Floor.Ring
import Mathlib.Tactic.Linarith
import Mathlib.Tactic.Ring

/-!
# Linear interpolation

A function of the integers, read between them. Where it does not go down, the interpolation does
not either (`interpolate_mono`), and it lies between the values at the two integers around
(`interpolate_mem`).
-/

namespace Interpolation

variable {K : Type} [Field K] [LinearOrder K] [IsStrictOrderedRing K] [FloorRing K]

def interpolate (g : ℤ → K) (s : K) : K := g ⌊s⌋ * (1 - Int.fract s) + g ⌈s⌉ * Int.fract s

variable {g : ℤ → K} {n : ℤ} {s t : K}

/-- It does not go down between `0` and `n`. -/
def Rises (g : ℤ → K) (n : ℤ) : Prop := ∀ i j, 0 ≤ i → i ≤ j → j ≤ n → g i ≤ g j

theorem interpolate_mem (hg : Rises g n) (h0 : 0 ≤ s) (hn : s ≤ n) :
    g ⌊s⌋ ≤ interpolate g s ∧ interpolate g s ≤ g ⌈s⌉ := by
  have hle : g ⌊s⌋ ≤ g ⌈s⌉ :=
    hg _ _ (Int.floor_nonneg.mpr h0) (Int.floor_le_ceil s) (Int.ceil_le.mpr hn)
  have hfract := Int.fract_nonneg s
  have hlt := (Int.fract_lt_one s).le
  unfold interpolate
  constructor
  · nlinarith [mul_le_mul_of_nonneg_right hle hfract]
  · nlinarith [mul_le_mul_of_nonneg_right hle (sub_nonneg.mpr hlt)]

/-- **An interpolation rises** with its function. -/
theorem interpolate_mono (hg : Rises g n) (h0 : 0 ≤ s) (hst : s ≤ t) (hn : t ≤ n) :
    interpolate g s ≤ interpolate g t := by
  have hfloor : ⌊s⌋ ≤ ⌊t⌋ := Int.floor_le_floor hst
  rcases hfloor.eq_or_lt with hsame | hless
  · -- both are between the same integers
    by_cases hint : Int.fract t = 0
    · have hs : s = t := by
        have hfs := Int.floor_add_fract s
        have hft := Int.floor_add_fract t
        have hnonneg := Int.fract_nonneg s
        rw [hint, add_zero, ← hsame] at hft
        linarith
      rw [hs]
    · have hceil : ⌈t⌉ = ⌊t⌋ + 1 := by
        refine Int.ceil_eq_iff.mpr ⟨?_, ?_⟩
        · have hpos := lt_of_le_of_ne (Int.fract_nonneg t) (Ne.symm hint)
          have hft := Int.floor_add_fract t
          push_cast
          linarith
        · push_cast
          exact (Int.lt_floor_add_one t).le
      have hle : g ⌊t⌋ ≤ g ⌈t⌉ := hg _ _ (Int.floor_nonneg.mpr (h0.trans hst))
        (Int.floor_le_ceil t) (Int.ceil_le.mpr hn)
      have hfract : Int.fract s ≤ Int.fract t := by
        unfold Int.fract
        rw [hsame]
        linarith
      have hsvalue : interpolate g s = g ⌊t⌋ * (1 - Int.fract s) + g ⌈t⌉ * Int.fract s := by
        unfold interpolate
        by_cases hzero : Int.fract s = 0
        · rw [hzero, hsame]
          ring
        · have hsceil : ⌈s⌉ = ⌈t⌉ := by
            rw [hceil, ← hsame]
            refine Int.ceil_eq_iff.mpr ⟨?_, ?_⟩
            · have hpos := lt_of_le_of_ne (Int.fract_nonneg s) (Ne.symm hzero)
              have hfs := Int.floor_add_fract s
              push_cast
              linarith
            · push_cast
              exact (Int.lt_floor_add_one s).le
          rw [hsceil, hsame]
      rw [hsvalue]
      unfold interpolate
      nlinarith [mul_le_mul_of_nonneg_left hfract (sub_nonneg.mpr hle)]
  · -- an integer lies between them
    have hs := (interpolate_mem hg h0 (hst.trans hn)).2
    have ht := (interpolate_mem hg (h0.trans hst) hn).1
    have hmiddle : ⌈s⌉ ≤ ⌊t⌋ := (Int.ceil_le_floor_add_one s).trans (Int.add_one_le_iff.mpr hless)
    have htop : ⌊t⌋ ≤ n := (Int.floor_le_ceil t).trans (Int.ceil_le.mpr hn)
    exact hs.trans ((hg _ _ (Int.ceil_nonneg h0) hmiddle htop).trans ht)

end Interpolation
