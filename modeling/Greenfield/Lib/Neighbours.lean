import Mathlib.Algebra.BigOperators.Group.List.Basic
import Mathlib.Data.List.Nodup
import Mathlib.Data.List.Range
import Mathlib.Order.Lattice
import Mathlib.Tactic.Ring

/-!
# Neighbours

`pairs l`: the consecutive elements of a list. Those of an ascending list are the elements with
none in between (`mem_pairs`). If all of them are one step apart, the list is an arithmetic
progression (`eq_points`), and if the list is on a grid, their distances count the grid points that
are absent (`sum_far_pairs`, `length_absent`).
-/

namespace Neighbours

variable {α : Type}

def pairs : List α → List (α × α)
  | a :: b :: l => (a, b) :: pairs (b :: l)
  | _ => []

@[simp] theorem pairs_nil : pairs ([] : List α) = [] := rfl

@[simp] theorem pairs_singleton (a : α) : pairs [a] = [] := rfl

@[simp] theorem pairs_cons_cons (a b : α) (l : List α) :
    pairs (a :: b :: l) = (a, b) :: pairs (b :: l) := rfl

variable {l : List α}

theorem mem_of_mem_pairs {a b : α} (h : (a, b) ∈ pairs l) : a ∈ l ∧ b ∈ l := by
  induction l using pairs.induct with
  | case1 x y l ih =>
    rcases List.mem_cons.mp h with heq | h
    · simp [Prod.mk.inj heq]
    · exact ⟨List.mem_cons_of_mem x (ih h).1, List.mem_cons_of_mem x (ih h).2⟩
  | case2 l hl =>
    rcases l with _ | ⟨x, _ | ⟨y, l⟩⟩ <;> simp_all

/-- Each pair ends where the next one starts, or before. -/
theorem pairwise_pairs {r : α → α → Prop} (hrefl : ∀ a, r a a) (h : l.Pairwise r) :
    (pairs l).Pairwise fun p q => r p.2 q.1 := by
  induction l using pairs.induct with
  | case1 x y l ih =>
    have htail := (List.pairwise_cons.mp h).2
    refine List.pairwise_cons.mpr ⟨fun q hq => ?_, ih htail⟩
    rcases List.mem_cons.mp (mem_of_mem_pairs hq).1 with heq | hmem
    · exact heq ▸ hrefl y
    · exact (List.pairwise_cons.mp htail).1 _ hmem
  | case2 l hl => rcases l with _ | ⟨x, _ | ⟨y, l⟩⟩ <;> simp_all

/-- **Neighbours have nothing in between.** -/
theorem mem_pairs [LinearOrder α] (h : l.Pairwise (· < ·)) {a b : α} :
    (a, b) ∈ pairs l ↔ a ∈ l ∧ b ∈ l ∧ a < b ∧ ∀ x ∈ l, ¬(a < x ∧ x < b) := by
  induction l using pairs.induct with
  | case1 x y l ih =>
    obtain ⟨hx, htail⟩ := List.pairwise_cons.mp h
    have hxy : x < y := hx y List.mem_cons_self
    have hle : ∀ z ∈ y :: l, y ≤ z := by
      intro z hz
      rcases List.mem_cons.mp hz with rfl | hz
      · exact le_rfl
      · exact ((List.pairwise_cons.mp htail).1 z hz).le
    rw [pairs_cons_cons, List.mem_cons, ih htail]
    constructor
    · rintro (heq | ⟨ha, hb, hab, hnone⟩)
      · obtain ⟨rfl, rfl⟩ := Prod.mk.inj heq
        refine ⟨by simp, by simp, hxy, fun z hz hbetween => ?_⟩
        rcases List.mem_cons.mp hz with rfl | hz
        · exact lt_irrefl _ hbetween.1
        · exact absurd hbetween.2 (not_lt.mpr (hle z hz))
      · refine ⟨List.mem_cons_of_mem x ha, List.mem_cons_of_mem x hb, hab, fun z hz hbetween => ?_⟩
        rcases List.mem_cons.mp hz with rfl | hz
        · exact lt_asymm hbetween.1 (hx a ha)
        · exact hnone z hz hbetween
    · rintro ⟨ha, hb, hab, hnone⟩
      have hbtail : b ∈ y :: l := by
        rcases List.mem_cons.mp hb with rfl | hb
        · rcases List.mem_cons.mp ha with rfl | ha
          · exact absurd hab (lt_irrefl _)
          · exact absurd (hx a ha) (lt_asymm hab)
        · exact hb
      rcases List.mem_cons.mp ha with rfl | ha
      · refine .inl (congrArg _ ((hle b hbtail).antisymm' ?_))
        exact not_lt.mp fun hlt => hnone y (by simp) ⟨hxy, hlt⟩
      · exact .inr ⟨ha, hbtail, hab, fun z hz => hnone z (List.mem_cons_of_mem x hz)⟩
  | case2 l hl =>
    rcases l with _ | ⟨x, _ | ⟨y, l⟩⟩
    · simp
    · simp only [pairs_singleton, List.not_mem_nil, List.mem_singleton, false_iff]
      rintro ⟨rfl, rfl, hab, -⟩
      exact lt_irrefl _ hab
    · simp_all

/-! ## Grids -/

section Grid

variable {step t : ℤ} {l : List ℤ}

/-- `n` points, a step apart, from `t` on. -/
def points (t step : ℤ) (n : ℕ) : List ℤ := (List.range n).map fun k : ℕ => t + k * step

@[simp] theorem length_points (t step : ℤ) (n : ℕ) : (points t step n).length = n := by
  simp [points]

theorem points_succ (t step : ℤ) (n : ℕ) :
    points t step (n + 1) = t :: points (t + step) step n := by
  unfold points
  rw [List.range_succ_eq_map, List.map_cons, List.map_map]
  refine congrArg₂ _ (by simp) (List.map_congr_left fun k _ => ?_)
  simp only [Function.comp_apply, Nat.cast_succ]
  ring

/-- **Neighbours a step apart are a progression.** -/
theorem eq_points (t : ℤ) (l : List ℤ) :
    (∀ p ∈ pairs (t :: l), p.2 = p.1 + step) ↔ t :: l = points t step (l.length + 1) := by
  induction l generalizing t with
  | nil => simp [points]
  | cons u l ih =>
    rw [List.length_cons, points_succ, List.cons.injEq, pairs_cons_cons, List.forall_mem_cons, ih]
    constructor
    · rintro ⟨hu, h⟩
      exact ⟨rfl, hu ▸ h⟩
    · rintro ⟨-, h⟩
      have hu : u = t + step := by
        rw [points_succ] at h
        exact (List.cons.inj h).1
      exact ⟨hu, hu ▸ h⟩

theorem mem_points {n : ℕ} {x : ℤ} :
    x ∈ points t step n ↔ ∃ k : ℕ, k < n ∧ x = t + k * step := by
  simp [points, eq_comm]

theorem nodup_points (hstep : 0 < step) (t : ℤ) (n : ℕ) : (points t step n).Nodup := by
  refine List.Nodup.map (fun i j hij => ?_) List.nodup_range
  have hmul : (i : ℤ) * step = j * step := by omega
  exact_mod_cast mul_right_cancel₀ hstep.ne' hmul

/-- The distances of neighbours on a grid, less one step each. -/
theorem sum_pairs (t : ℤ) (l : List ℤ)
    (hgrid : ∀ p ∈ pairs (t :: l), step ∣ p.2 - p.1) :
    ((pairs (t :: l)).map fun p => (p.2 - p.1) / step - 1).sum =
      ((t :: l).getLast (by simp) - t) / step - l.length := by
  induction l generalizing t with
  | nil => simp
  | cons u l ih =>
    rw [pairs_cons_cons, List.forall_mem_cons] at hgrid
    have hsplit : (u - t) / step + ((u :: l).getLast (by simp) - u) / step =
        ((u :: l).getLast (by simp) - t) / step := by
      rw [← Int.add_ediv_of_dvd_left hgrid.1]
      exact congrArg (· / step) (by ring)
    rw [pairs_cons_cons, List.map_cons, List.sum_cons, ih u hgrid.2, List.getLast_cons (List.cons_ne_nil u l),
      ← hsplit, List.length_cons]
    push_cast
    ring

/-- The same sum, of the neighbours that are more than a step apart only. -/
theorem sum_far_pairs (hstep : 0 < step) (t : ℤ) (l : List ℤ)
    (hascending : (t :: l).Pairwise (· < ·)) (hgrid : ∀ p ∈ pairs (t :: l), step ∣ p.2 - p.1) :
    (((pairs (t :: l)).filter fun p => decide (step < p.2 - p.1)).map
      fun p => (p.2 - p.1) / step - 1).sum =
        ((t :: l).getLast (by simp) - t) / step - l.length := by
  rw [← sum_pairs t l hgrid]
  have hnear : ∀ p ∈ pairs (t :: l), ¬step < p.2 - p.1 → (p.2 - p.1) / step - 1 = 0 := by
    intro p hp hnear
    have hlt := ((mem_pairs hascending).mp hp).2.2.1
    have hle := Int.le_of_dvd (by omega) (hgrid p hp)
    rw [show p.2 - p.1 = step by omega, Int.ediv_self hstep.ne']
    rfl
  generalize pairs (t :: l) = ps at hnear
  induction ps with
  | nil => rfl
  | cons p ps ih =>
    obtain ⟨hp, hps⟩ := List.forall_mem_cons.mp hnear
    by_cases hfar : step < p.2 - p.1
    · simp [hfar, ih hps]
    · simp [hfar, ih hps, hp hfar]

/-- What a list without duplicates leaves of the points. -/
theorem length_absent (hstep : 0 < step) {n : ℕ} (hnodup : l.Nodup)
    (hmem : ∀ x ∈ l, x ∈ points t step n) :
    ((points t step n).filter fun x => decide (x ∉ l)).length + l.length = n := by
  have hpresent : ((points t step n).filter fun x => decide (x ∈ l)).Perm l := by
    rw [List.perm_ext_iff_of_nodup ((nodup_points hstep t n).filter _) hnodup]
    intro x
    rw [List.mem_filter, decide_eq_true_eq]
    exact ⟨And.right, fun hx => ⟨hmem x hx, hx⟩⟩
  have hsplit := List.length_eq_length_filter_add (l := points t step n) fun x => decide (x ∈ l)
  rw [hpresent.length_eq, length_points] at hsplit
  simp only [decide_not]
  omega

end Grid

end Neighbours
