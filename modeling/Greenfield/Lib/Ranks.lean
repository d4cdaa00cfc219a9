import Mathlib.Algebra.BigOperators.Ring.List
import Mathlib.Algebra.Order.Field.Basic
import Mathlib.Algebra.Order.Field.Rat
import Mathlib.Algebra.Order.BigOperators.Group.List
import Mathlib.Order.Monotone.Basic
import Mathlib.Tactic.FieldSimp
import Mathlib.Tactic.Linarith
import Mathlib.Tactic.Ring

/-!
# Rank correlation

Average ranks of a sample, and the correlation of the ranks of two samples by its signed square.
A strictly increasing map keeps the ranks; a strictly decreasing one reverses them, and the
correlation changes its sign (`spearman_map`). `Within t`: the correlation is at most `t` in
absolute value, as squares (`within_iff`).
-/

namespace Ranks

variable {α β : Type}

/-! ## Ranks -/

section Rank

variable [LinearOrder α] [LinearOrder β] {f : α → β}

/-- The average rank of a value among those of a sample. -/
def rank (l : List α) (x : α) : ℚ :=
  l.countP (fun y => decide (y < x)) + (l.countP (fun y => decide (y = x)) + 1) / 2

def ranks (l : List α) : List ℚ := l.map (rank l)

/-- A value is above, below or among those that are equal. -/
theorem length_eq_counts (l : List α) (x : α) :
    l.length = l.countP (fun y => decide (y < x)) + l.countP (fun y => decide (y = x)) +
      l.countP fun y => decide (x < y) := by
  induction l with
  | nil => rfl
  | cons y l ih =>
    rcases lt_trichotomy y x with h | rfl | h
    · simp [h, h.ne, h.asymm, ih]
      omega
    · simp [ih]
      omega
    · simp [h, h.ne', h.asymm, ih]
      omega

theorem ranks_map_strictMono (hf : StrictMono f) (l : List α) : ranks (l.map f) = ranks l := by
  rw [ranks, ranks, List.map_map]
  refine List.map_congr_left fun x _ => ?_
  simp [rank, List.countP_map, Function.comp_def, hf.lt_iff_lt, hf.injective.eq_iff]

theorem ranks_map_strictAnti (hf : StrictAnti f) (l : List α) :
    ranks (l.map f) = (ranks l).map fun r : ℚ => (l.length : ℚ) + 1 - r := by
  rw [ranks, ranks, List.map_map, List.map_map]
  refine List.map_congr_left fun x _ => ?_
  have hcounts : (l.length : ℚ) = l.countP (fun y => decide (y < x)) +
      l.countP (fun y => decide (y = x)) + l.countP fun y => decide (x < y) := by
    exact_mod_cast length_eq_counts l x
  simp only [Function.comp_apply, rank, List.countP_map, Function.comp_def, hf.lt_iff_gt,
    hf.injective.eq_iff]
  linarith

end Rank

/-! ## Moments -/

def mean (xs : List ℚ) : ℚ := xs.sum / xs.length

/-- The mean of lists of one length, put together, is the mean of their means. -/
theorem mean_flatten {blocks : List (List ℚ)} {size : ℕ} (h : ∀ b ∈ blocks, b.length = size) :
    mean blocks.flatten = mean (blocks.map mean) := by
  have hlength : blocks.flatten.length = blocks.length * size := by
    rw [List.length_flatten, List.map_congr_left h]
    simp
  have hmeans : blocks.map mean = (blocks.map List.sum).map (· / (size : ℚ)) := by
    rw [List.map_map]
    exact List.map_congr_left fun b hb => by simp [mean, h b hb]
  have hsum : ((blocks.map List.sum).map (· / (size : ℚ))).sum = (blocks.map List.sum).sum / size := by
    induction blocks.map List.sum with
    | nil => simp
    | cons x xs ih => rw [List.map_cons, List.sum_cons, List.sum_cons, ih, add_div]
  rw [mean, mean, hmeans, hsum, List.length_map, List.length_map, List.sum_flatten, hlength,
    Nat.cast_mul, div_div, mul_comm]

/-- The deviations from the mean. -/
def centered (xs : List ℚ) : List ℚ := xs.map fun x => x - mean xs

/-- The sum of the products of the deviations. -/
def comoment (xs ys : List ℚ) : ℚ := (List.zipWith (· * ·) (centered xs) (centered ys)).sum

theorem comoment_comm (xs ys : List ℚ) : comoment xs ys = comoment ys xs := by
  rw [comoment, List.zipWith_comm]
  simp only [mul_comm]
  rfl

theorem mean_reverse {xs : List ℚ} (h : xs ≠ []) (c : ℚ) :
    mean (xs.map fun x => c - x) = c - mean xs := by
  have hlen : (xs.length : ℚ) ≠ 0 := by simpa using h
  have hsum : ∀ l : List ℚ, (l.map fun x => c - x).sum = l.length * c - l.sum := by
    intro l
    induction l with
    | nil => simp
    | cons x l ih =>
      rw [List.map_cons, List.sum_cons, List.sum_cons, ih, List.length_cons]
      push_cast
      ring
  rw [mean, mean, hsum, List.length_map]
  field_simp

/-- Deviations change their sign with the order. -/
theorem centered_reverse (xs : List ℚ) (c : ℚ) :
    centered (xs.map fun x => c - x) = (centered xs).map (-1 * ·) := by
  by_cases h : xs = []
  · simp [h, centered]
  · rw [centered, centered, mean_reverse h, List.map_map, List.map_map]
    refine List.map_congr_left fun x _ => ?_
    simp

theorem comoment_scale {xs xs' ys ys' : List ℚ} {s t : ℚ}
    (hx : centered xs' = (centered xs).map (s * ·)) (hy : centered ys' = (centered ys).map (t * ·)) :
    comoment xs' ys' = s * t * comoment xs ys := by
  rw [comoment, comoment, hx, hy, List.zipWith_map]
  generalize centered xs = as
  generalize centered ys = bs
  induction as generalizing bs with
  | nil => simp
  | cons a as ih =>
    cases bs with
    | nil => simp
    | cons b bs =>
      rw [List.zipWith_cons_cons, List.zipWith_cons_cons, List.sum_cons, List.sum_cons, ih]
      ring

theorem comoment_self_nonneg (xs : List ℚ) : 0 ≤ comoment xs xs := by
  refine List.sum_nonneg fun z hz => ?_
  rw [List.zipWith_self, List.mem_map] at hz
  obtain ⟨x, -, rfl⟩ := hz
  exact mul_self_nonneg x

/-- Values that do not vary have no deviations. -/
theorem comoment_eq_zero {xs : List ℚ} (h : comoment xs xs = 0) (ys : List ℚ) :
    comoment xs ys = 0 := by
  have hzero : ∀ x ∈ centered xs, x = 0 := by
    rw [comoment, List.zipWith_self] at h
    generalize centered xs = as at h
    induction as with
    | nil => simp
    | cons a as ih =>
      have hrest : 0 ≤ (as.map fun x => x * x).sum :=
        List.sum_nonneg fun z hz => by
          obtain ⟨x, -, rfl⟩ := List.mem_map.mp hz
          exact mul_self_nonneg x
      rw [List.map_cons, List.sum_cons] at h
      have ha := mul_self_nonneg a
      refine List.forall_mem_cons.mpr ⟨mul_self_eq_zero.mp (by linarith), ih (by linarith)⟩
  rw [comoment]
  generalize centered xs = as at hzero
  generalize centered ys = bs
  induction as generalizing bs with
  | nil => simp
  | cons a as ih =>
    obtain ⟨ha, has⟩ := List.forall_mem_cons.mp hzero
    cases bs with
    | nil => simp
    | cons b bs => simp [ha, ih has]

/-! ## Correlation -/

section Spearman

variable [LinearOrder α] [LinearOrder β] {α' β' : Type} [LinearOrder α'] [LinearOrder β']

/-- The ranks of the first and of the second values. -/
def rankPair (obs : List (α × β)) : List ℚ × List ℚ :=
  (ranks (obs.map Prod.fst), ranks (obs.map Prod.snd))

/-- A correlation by its signed square, if both samples vary. -/
def signedSquare (a b : List ℚ) : Option ℚ :=
  if comoment a a = 0 ∨ comoment b b = 0 then none
  else some (comoment a b * |comoment a b| / (comoment a a * comoment b b))

variable {s : ℚ}

theorem signedSquare_scale {a a' b b' : List ℚ} (hs : |s| = 1)
    (hab : comoment a' b' = s * comoment a b) (haa : comoment a' a' = comoment a a)
    (hbb : comoment b' b' = comoment b b) :
    signedSquare a' b' = (signedSquare a b).map (s * ·) := by
  unfold signedSquare
  rw [hab, haa, hbb, abs_mul, hs, one_mul]
  split
  · rfl
  · exact congrArg some (by ring)

/-- Spearman's correlation, by its signed square. -/
def spearman (obs : List (α × β)) : Option ℚ := signedSquare (rankPair obs).1 (rankPair obs).2

/-- The correlation is at most `t`, as squares. -/
def Within (t : ℚ) (obs : List (α × β)) : Prop :=
  comoment (rankPair obs).1 (rankPair obs).2 ^ 2 ≤ t ^ 2 *
    (comoment (rankPair obs).1 (rankPair obs).1 * comoment (rankPair obs).2 (rankPair obs).2)

theorem within_iff {t : ℚ} {obs : List (α × β)} :
    Within t obs ↔ ∀ v ∈ spearman obs, |v| ≤ t ^ 2 := by
  unfold Within spearman signedSquare
  generalize rankPair obs = p
  obtain ⟨a, b⟩ := p
  simp only
  by_cases h : comoment a a = 0 ∨ comoment b b = 0
  · have hzero : comoment a b = 0 := by
      rcases h with h | h
      · exact comoment_eq_zero h b
      · rw [comoment_comm, comoment_eq_zero h a]
    rcases h with h | h <;> simp [h, hzero]
  · rw [if_neg h]
    obtain ⟨ha, hb⟩ := not_or.mp h
    have hpos : 0 < comoment a a * comoment b b :=
      mul_pos ((comoment_self_nonneg a).lt_of_ne' ha) ((comoment_self_nonneg b).lt_of_ne' hb)
    simp only [Option.mem_some_iff, forall_eq']
    rw [abs_div, abs_mul, abs_abs, abs_mul_abs_self, abs_of_pos hpos, div_le_iff₀ hpos, sq]

/-- `f` is increasing and `s` is one, or `f` is decreasing and `s` is minus one. -/
def Directed (f : α → α') (s : ℚ) : Prop := s = 1 ∧ StrictMono f ∨ s = -1 ∧ StrictAnti f

variable {f : α → α'}

theorem Directed.centered (h : Directed f s) (l : List α) :
    Ranks.centered (ranks (l.map f)) = (Ranks.centered (ranks l)).map (s * ·) := by
  rcases h with ⟨rfl, hf⟩ | ⟨rfl, hf⟩
  · simp [ranks_map_strictMono hf]
  · rw [ranks_map_strictAnti hf, centered_reverse]

theorem Directed.mul_self (h : Directed f s) : s * s = 1 := by
  rcases h with ⟨rfl, -⟩ | ⟨rfl, -⟩ <;> norm_num

theorem Directed.abs_eq (h : Directed f s) : |s| = 1 := by
  rcases h with ⟨rfl, -⟩ | ⟨rfl, -⟩ <;> simp

theorem Directed.injective (h : Directed f s) : Function.Injective f := by
  rcases h with ⟨-, hf⟩ | ⟨-, hf⟩
  · exact hf.injective
  · exact hf.injective

/-- **Directed maps change at most the sign.** -/
theorem spearman_map {g : β → β'} {s t : ℚ} (hf : Directed f s) (hg : Directed g t)
    (obs : List (α × β)) : spearman (obs.map (Prod.map f g)) = (spearman obs).map (s * t * ·) := by
  have hpair : rankPair (obs.map (Prod.map f g)) =
      (ranks ((obs.map Prod.fst).map f), ranks ((obs.map Prod.snd).map g)) := by
    simp [rankPair, List.map_map, Function.comp_def]
  rw [spearman, hpair]
  refine signedSquare_scale ?_ (comoment_scale (hf.centered _) (hg.centered _)) ?_ ?_
  · rw [abs_mul, hf.abs_eq, hg.abs_eq, one_mul]
  · rw [comoment_scale (hf.centered _) (hf.centered _), hf.mul_self, one_mul]
    rfl
  · rw [comoment_scale (hg.centered _) (hg.centered _), hg.mul_self, one_mul]
    rfl

end Spearman

end Ranks
