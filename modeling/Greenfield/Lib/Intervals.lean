import Mathlib.MeasureTheory.Measure.Lebesgue.Basic

/-!
# Merged intervals

Intervals in the order of their starts are merged in one sweep. What they cover stays covered
(`covers_merge`), and between merged intervals there are gaps (`separated_merge`), so the measure of
the union is the sum of their lengths (`volume_merge`).
-/

namespace Intervals

variable {α β : Type} {cur : α × α} {rest is : List (α × α)}

/-! ## Points and lengths -/

section

variable [LinearOrder β] {f : α → β} {g : α → ℝ}

/-- A point, through `f`, is in one of the intervals. -/
def Covers (f : α → β) (is : List (α × α)) (x : β) : Prop := ∃ i ∈ is, f i.1 ≤ x ∧ x ≤ f i.2

theorem covers_cons {i : α × α} {x : β} :
    Covers f (i :: is) x ↔ (f i.1 ≤ x ∧ x ≤ f i.2) ∨ Covers f is x := by
  simp [Covers]

/-- The points of the intervals. -/
def union (f : α → ℝ) (is : List (α × α)) : Set ℝ := {x | Covers f is x}

/-- The sum of the lengths. -/
def length (f : α → ℝ) (is : List (α × α)) : ℝ := (is.map fun i => f i.2 - f i.1).sum

theorem length_cons (i : α × α) (is : List (α × α)) :
    length g (i :: is) = g i.2 - g i.1 + length g is := by
  simp [length]

theorem union_cons (i : α × α) (is : List (α × α)) :
    union g (i :: is) = Set.Icc (g i.1) (g i.2) ∪ union g is := by
  ext x
  simp [union, covers_cons]

theorem measurableSet_union : ∀ is : List (α × α), MeasurableSet (union g is)
  | [] => by simp [union, Covers]
  | i :: is => by
    rw [union_cons]
    exact measurableSet_Icc.union (measurableSet_union is)

end

/-! ## Merging -/

variable [LinearOrder α] [LinearOrder β] {f : α → β} {g : α → ℝ}

/-- An interval that starts where the one before it has not ended extends it. -/
def merge : α × α → List (α × α) → List (α × α)
  | cur, [] => [cur]
  | cur, i :: rest =>
    if i.1 ≤ cur.2 then merge (cur.1, max cur.2 i.2) rest else cur :: merge i rest

/-- The starts are in order. -/
def Ascending (is : List (α × α)) : Prop := is.Pairwise fun i j => i.1 ≤ j.1

theorem covers_merge (hf : Monotone f) {x : β} : ∀ {cur : α × α} {rest : List (α × α)},
    Ascending (cur :: rest) → (Covers f (merge cur rest) x ↔ Covers f (cur :: rest) x)
  | _, [], _ => Iff.rfl
  | cur, i :: rest, h => by
    obtain ⟨hcur, hrest⟩ := List.pairwise_cons.mp h
    obtain ⟨hi, hrest'⟩ := List.pairwise_cons.mp hrest
    have hle : cur.1 ≤ i.1 := hcur i (by simp)
    rw [merge]
    split
    · next htouch =>
      have hstart : Ascending ((cur.1, max cur.2 i.2) :: rest) :=
        List.pairwise_cons.mpr ⟨fun j hj => hcur j (by simp [hj]), hrest'⟩
      have h1 := hf hle
      have h2 := hf htouch
      rw [covers_merge hf hstart, covers_cons, covers_cons, covers_cons, ← or_assoc, hf.map_max]
      refine or_congr_left ⟨fun ⟨hx, hmax⟩ => ?_, ?_⟩
      · rcases le_or_gt x (f cur.2) with hx' | hx'
        · exact .inl ⟨hx, hx'⟩
        · exact .inr ⟨h2.trans hx'.le, (le_max_iff.mp hmax).resolve_left (not_le.mpr hx')⟩
      · rintro (⟨hx, hx'⟩ | ⟨hx, hx'⟩)
        · exact ⟨hx, le_max_of_le_left hx'⟩
        · exact ⟨h1.trans hx, le_max_of_le_right hx'⟩
    · rw [covers_cons, covers_merge hf hrest, covers_cons (i := cur)]

/-- Merged intervals start where an interval starts. -/
theorem start_merge : ∀ {cur : α × α} {rest : List (α × α)}, ∀ j ∈ merge cur rest,
    j.1 = cur.1 ∨ ∃ i ∈ rest, j.1 = i.1
  | cur, [], j, hj => .inl (by rw [List.mem_singleton.mp hj])
  | cur, i :: rest, j, hj => by
    rw [merge] at hj
    split at hj
    · rcases start_merge j hj with h | ⟨i', hi', h⟩
      · exact .inl h
      · exact .inr ⟨i', by simp [hi'], h⟩
    · rcases List.mem_cons.mp hj with rfl | hj
      · exact .inl rfl
      · rcases start_merge j hj with h | ⟨i', hi', h⟩
        · exact .inr ⟨i, by simp, h⟩
        · exact .inr ⟨i', by simp [hi'], h⟩

theorem separated_merge : ∀ {cur : α × α} {rest : List (α × α)}, Ascending (cur :: rest) →
    (merge cur rest).Pairwise fun i j => i.2 < j.1
  | cur, [], _ => List.pairwise_singleton _ _
  | cur, i :: rest, h => by
    obtain ⟨hcur, hrest⟩ := List.pairwise_cons.mp h
    obtain ⟨hi, hrest'⟩ := List.pairwise_cons.mp hrest
    rw [merge]
    split
    · exact separated_merge (List.pairwise_cons.mpr ⟨fun j hj => hcur j (by simp [hj]), hrest'⟩)
    · next hgap =>
      refine List.pairwise_cons.mpr ⟨fun j hj => ?_, separated_merge hrest⟩
      rcases start_merge j hj with h | ⟨i', hi', h⟩
      · exact h ▸ not_le.mp hgap
      · exact h ▸ (not_le.mp hgap).trans_le (hi i' hi')

theorem le_merge : ∀ {cur : α × α} {rest : List (α × α)}, (∀ i ∈ cur :: rest, i.1 ≤ i.2) →
    ∀ j ∈ merge cur rest, j.1 ≤ j.2
  | cur, [], h, j, hj => h j hj
  | cur, i :: rest, h, j, hj => by
    rw [merge] at hj
    split at hj
    · refine le_merge (fun k hk => ?_) j hj
      rcases List.mem_cons.mp hk with rfl | hk
      · exact (h cur (by simp)).trans (le_max_left _ _)
      · exact h k (by simp [hk])
    · rcases List.mem_cons.mp hj with rfl | hj
      · exact h _ (by simp)
      · exact le_merge (fun k hk => h k (by simp [List.mem_cons.mp hk])) j hj

/-! ## The measure -/

theorem length_nonneg (hg : Monotone g) (hle : ∀ i ∈ is, i.1 ≤ i.2) : 0 ≤ length g is := by
  refine List.sum_nonneg fun x hx => ?_
  obtain ⟨i, hi, rfl⟩ := List.mem_map.mp hx
  exact sub_nonneg.mpr (hg (hle i hi))

/-- Intervals with gaps between them. -/
theorem volume_union (hg : StrictMono g) : ∀ {is : List (α × α)}, (∀ i ∈ is, i.1 ≤ i.2) →
    is.Pairwise (fun i j => i.2 < j.1) →
      MeasureTheory.volume (union g is) = ENNReal.ofReal (length g is)
  | [], _, _ => by simp [union, Covers, length]
  | i :: is, hle, hsep => by
    obtain ⟨hi, hsep⟩ := List.pairwise_cons.mp hsep
    have hle' : ∀ j ∈ is, j.1 ≤ j.2 := fun j hj => hle j (by simp [hj])
    have hdisjoint : Disjoint (Set.Icc (g i.1) (g i.2)) (union g is) := by
      rw [Set.disjoint_left]
      rintro x hx ⟨j, hj, hstart, -⟩
      exact absurd (hstart.trans hx.2) (not_le.mpr (hg (hi j hj)))
    rw [union_cons, MeasureTheory.measure_union hdisjoint (measurableSet_union is), Real.volume_Icc,
      volume_union hg hle' hsep, length_cons, ENNReal.ofReal_add]
    · exact sub_nonneg.mpr (hg.monotone (hle i (by simp)))
    · exact length_nonneg hg.monotone hle'

/-- **The measure of a union** is the length of the merged intervals. -/
theorem volume_merge (hg : StrictMono g) (hascending : Ascending (cur :: rest))
    (hle : ∀ i ∈ cur :: rest, i.1 ≤ i.2) :
    MeasureTheory.volume (union g (cur :: rest)) = ENNReal.ofReal (length g (merge cur rest)) := by
  have hunion : union g (cur :: rest) = union g (merge cur rest) := by
    ext x
    exact (covers_merge hg.monotone hascending).symm
  rw [hunion, volume_union hg (le_merge hle) (separated_merge hascending)]

/-- Intervals between two points are not longer than what is between them. -/
theorem length_merge_le (hg : StrictMono g) {lo hi : α} (hlohi : lo ≤ hi)
    (hascending : Ascending (cur :: rest)) (hle : ∀ i ∈ cur :: rest, i.1 ≤ i.2)
    (hbounds : ∀ i ∈ cur :: rest, lo ≤ i.1 ∧ i.2 ≤ hi) : length g (merge cur rest) ≤ g hi - g lo := by
  have hsub : union g (cur :: rest) ⊆ Set.Icc (g lo) (g hi) := by
    rintro x ⟨i, hi, hstart, hend⟩
    obtain ⟨hlo, hhi⟩ := hbounds i hi
    exact ⟨(hg.monotone hlo).trans hstart, hend.trans (hg.monotone hhi)⟩
  have hvolume : MeasureTheory.volume (union g (cur :: rest)) ≤
      MeasureTheory.volume (Set.Icc (g lo) (g hi)) := MeasureTheory.measure_mono hsub
  rw [volume_merge hg hascending hle, Real.volume_Icc] at hvolume
  exact (ENNReal.ofReal_le_ofReal_iff (sub_nonneg.mpr (hg.monotone hlohi))).mp hvolume

end Intervals
