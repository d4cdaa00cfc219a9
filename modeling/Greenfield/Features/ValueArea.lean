import Greenfield.Features.TradeStreams

/-!
# Value areas

`volume_profile` widens the value area from the level with the greatest volume, to the side with
the greater volume. What it selects is a run of levels (`widen_selected`), which has its share of
the volume and would not have it without the level that was added last
(`volumeProfile_valueArea`).
-/

namespace Greenfield.Features

open Buckets Data Py

/-! ## The expansion -/

/-- The levels strictly between two indices. -/
def between (levels : List (ℚ × ℚ)) (lower upper : ℤ) : List (ℚ × ℚ) :=
  (levels.drop (lower + 1).toNat).take (upper - lower - 1).toNat

/-- The level at an index. -/
def levelAt (levels : List (ℚ × ℚ)) (i : ℤ) : ℚ × ℚ := levels.getD i.toNat (0, 0)

/-- The levels that the loop adds, one after the other. -/
def expansion (levels : List (ℚ × ℚ)) (target : ℚ) : ℕ → ℤ → ℤ → ℚ → List (ℚ × ℚ)
  | 0, _, _, _ => []
  | fuel + 1, lower, upper, accumulated =>
    if accumulated < target ∧ (0 ≤ lower ∨ upper < levels.length) then
      if volumeAt (levels.map Prod.snd) lower < volumeAt (levels.map Prod.snd) upper then
        levelAt levels upper ::
          expansion levels target fuel lower (upper + 1)
            (accumulated + volumeAt (levels.map Prod.snd) upper)
      else
        levelAt levels lower ::
          expansion levels target fuel (lower - 1) upper
            (accumulated + volumeAt (levels.map Prod.snd) lower)
    else []

variable {levels : List (ℚ × ℚ)} {lower upper : ℤ}

theorem volumeAt_levelAt {i : ℤ} (hi : 0 ≤ i) (hlength : i < levels.length) :
    volumeAt (levels.map Prod.snd) i = (levelAt levels i).2 := by
  unfold volumeAt levelAt
  rw [if_neg hi.not_gt, List.getD_eq_getElem _ _ (by simpa using by omega),
    List.getD_eq_getElem _ _ (by omega), List.getElem_map]

theorem between_upper (hlower : -1 ≤ lower) (h : lower < upper) (hupper : upper < levels.length) :
    between levels lower (upper + 1) = between levels lower upper ++ [levelAt levels upper] := by
  unfold between levelAt
  have hnext : (upper + 1 - lower - 1).toNat = (upper - lower - 1).toNat + 1 := by omega
  have hat : (lower + 1).toNat + (upper - lower - 1).toNat = upper.toNat := by omega
  have hi : upper.toNat < levels.length := by omega
  rw [hnext, List.take_add_one, List.getElem?_drop, hat, List.getElem?_eq_getElem hi,
    List.getD_eq_getElem _ _ hi]
  rfl

theorem between_lower (hlower : 0 ≤ lower) (h : lower < upper) (hupper : upper ≤ levels.length) :
    between levels (lower - 1) upper = levelAt levels lower :: between levels lower upper := by
  unfold between levelAt
  have hnext : (upper - (lower - 1) - 1).toNat = (upper - lower - 1).toNat + 1 := by omega
  have hat : (lower - 1 + 1).toNat = lower.toNat := by omega
  have hafter : (lower + 1).toNat = lower.toNat + 1 := by omega
  have hi : lower.toNat < levels.length := by omega
  rw [hnext, hat, hafter, List.drop_eq_getElem_cons hi, List.take_succ_cons,
    List.getD_eq_getElem _ _ hi]

/-- What the loop has selected: the levels between its indices, which are those it started with
and those it added. -/
structure Selected (levels : List (ℚ × ℚ)) (target : ℚ) (start added : List (ℚ × ℚ))
    (result : ℤ × ℤ × ℚ) : Prop where
  lower : -1 ≤ result.1
  upper : result.2.1 ≤ levels.length
  ordered : result.1 < result.2.1
  levels : (between levels result.1 result.2.1).Perm (start ++ added)
  volume : result.2.2 = ((start ++ added).map Prod.snd).sum
  needed : ∀ last ∈ added.getLast?, result.2.2 - last.2 < target

/-- A level that is added first. -/
theorem Selected.cons {target : ℚ} {start added : List (ℚ × ℚ)} {level : ℚ × ℚ}
    {result : ℤ × ℤ × ℚ} (h : Selected levels target (start ++ [level]) added result)
    (hneeded : (start.map Prod.snd).sum < target) :
    Selected levels target start (level :: added) result := by
  have happend : start ++ [level] ++ added = start ++ level :: added := by simp
  obtain ⟨hlower, hupper, hordered, hlevels, hvolume, hlast⟩ := h
  rw [happend] at hlevels hvolume
  refine ⟨hlower, hupper, hordered, hlevels, hvolume, fun last hmem => ?_⟩
  cases added with
  | nil =>
    cases hmem
    rw [hvolume]
    simpa using hneeded
  | cons next rest =>
    rw [List.getLast?_cons_cons] at hmem
    exact hlast last hmem

/-- **The loop selects a run of levels.** -/
theorem widen_selected (hvolumes : ∀ v ∈ levels.map Prod.snd, 0 ≤ v) (target : ℚ) :
    ∀ (fuel : ℕ) (lower upper : ℤ) (start : List (ℚ × ℚ)), -1 ≤ lower → lower < upper →
      upper ≤ levels.length → (between levels lower upper).Perm start →
      Selected levels target start
        (expansion levels target fuel lower upper (start.map Prod.snd).sum)
        (widen (levels.map Prod.snd) target fuel lower upper (start.map Prod.snd).sum)
  | 0, lower, upper, start, hlower, hordered, hupper, hstart => by
    refine ⟨hlower, hupper, hordered, ?_, ?_, fun last hlast => ?_⟩
    · rw [expansion, List.append_nil]
      exact hstart
    · rw [expansion, List.append_nil]
      rfl
    · cases hlast
  | fuel + 1, lower, upper, start, hlower, hordered, hupper, hstart => by
    rw [widen, expansion, List.length_map]
    by_cases h : (start.map Prod.snd).sum < target ∧ (0 ≤ lower ∨ upper < levels.length)
    · rw [if_pos h, if_pos h]
      by_cases hless : volumeAt (levels.map Prod.snd) lower < volumeAt (levels.map Prod.snd) upper
      · have hroom : upper < levels.length := by
          simpa using room_upper hvolumes (by simpa using hordered.trans_le hupper) hless
        have hnext : ((start ++ [levelAt levels upper]).map Prod.snd).sum =
            (start.map Prod.snd).sum + volumeAt (levels.map Prod.snd) upper := by
          rw [volumeAt_levelAt (by omega) hroom]
          simp
        have hrest := widen_selected hvolumes target fuel lower (upper + 1)
          (start ++ [levelAt levels upper]) hlower (by omega) (by omega) (by
            rw [between_upper hlower hordered hroom]
            exact hstart.append_right _)
        rw [hnext] at hrest
        rw [if_pos hless, if_pos hless]
        exact hrest.cons h.1
      · have hroom := room_lower hvolumes (by omega) (by simpa using h.2) hless
        have hnext : ((start ++ [levelAt levels lower]).map Prod.snd).sum =
            (start.map Prod.snd).sum + volumeAt (levels.map Prod.snd) lower := by
          rw [volumeAt_levelAt hroom (hordered.trans_le hupper)]
          simp
        have hrest := widen_selected hvolumes target fuel (lower - 1) upper
          (start ++ [levelAt levels lower]) (by omega) (by omega) hupper (by
            rw [between_lower hroom hordered hupper]
            exact (hstart.cons _).trans (List.perm_append_singleton _ _).symm)
        rw [hnext] at hrest
        rw [if_neg hless, if_neg hless]
        exact hrest.cons h.1
    · rw [if_neg h, if_neg h]
      refine ⟨hlower, hupper, hordered, ?_, ?_, fun last hlast => ?_⟩
      · rw [List.append_nil]
        exact hstart
      · rw [List.append_nil]
      · cases hlast

/-- A loop that has stopped does nothing with more fuel. -/
theorem widen_more {volumes : List ℚ} {target : ℚ} : ∀ {fuel : ℕ} {lower upper : ℤ}
    {accumulated : ℚ}, ¬ ((widen volumes target fuel lower upper accumulated).2.2 < target ∧
        (0 ≤ (widen volumes target fuel lower upper accumulated).1 ∨
          (widen volumes target fuel lower upper accumulated).2.1 < volumes.length)) →
    ∀ more, fuel ≤ more → widen volumes target more lower upper accumulated =
      widen volumes target fuel lower upper accumulated
  | 0, lower, upper, accumulated, h, more, _ => by
    cases more with
    | zero => rfl
    | succ more => exact if_neg h
  | fuel + 1, lower, upper, accumulated, h, more, hmore => by
    obtain ⟨more, rfl⟩ : ∃ k, more = k + 1 := ⟨more - 1, by omega⟩
    rw [widen] at h
    rw [widen, widen]
    split at h
    · next hgo =>
      rw [if_pos hgo, if_pos hgo]
      split at h
      · next hless =>
        rw [if_pos hless, if_pos hless]
        exact widen_more h more (by omega)
      · next hless =>
        rw [if_neg hless, if_neg hless]
        exact widen_more h more (by omega)
    · next hstop => rw [if_neg hstop, if_neg hstop]

/-! ## The point of control -/

/-- The index of the greatest of the first volumes. -/
def pocOf (volumes : List ℚ) (n : ℕ) : ℕ :=
  (List.range n).foldl (fun best i => if volumes.getD best 0 < volumes.getD i 0 then i else best) 0

theorem pocOf_succ (volumes : List ℚ) (n : ℕ) : pocOf volumes (n + 1) =
    if volumes.getD (pocOf volumes n) 0 < volumes.getD n 0 then n else pocOf volumes n := by
  unfold pocOf
  rw [List.range_succ, List.foldl_append]
  rfl

/-- The first of the greatest. -/
theorem pocOf_spec (volumes : List ℚ) : ∀ {n : ℕ}, 0 < n →
    pocOf volumes n < n ∧ ∀ i < n, volumes.getD i 0 ≤ volumes.getD (pocOf volumes n) 0 ∧
      (volumes.getD i 0 = volumes.getD (pocOf volumes n) 0 → pocOf volumes n ≤ i)
  | 1, _ => by
    have hzero : pocOf volumes 1 = 0 := by simp [pocOf]
    rw [hzero]
    refine ⟨Nat.one_pos, fun i hi => ?_⟩
    obtain rfl : i = 0 := by omega
    exact ⟨le_rfl, fun _ => le_rfl⟩
  | n + 2, _ => by
    obtain ⟨hlt, hmax⟩ := pocOf_spec volumes (Nat.succ_pos n)
    rw [pocOf_succ]
    by_cases hless : volumes.getD (pocOf volumes (n + 1)) 0 < volumes.getD (n + 1) 0
    · rw [if_pos hless]
      refine ⟨Nat.lt_succ_self _, fun i hi => ?_⟩
      rcases Nat.lt_succ_iff_lt_or_eq.mp hi with hi | rfl
      · have hbelow := (hmax i hi).1.trans_lt hless
        exact ⟨hbelow.le, fun heq => absurd heq hbelow.ne⟩
      · exact ⟨le_rfl, fun _ => le_rfl⟩
    · rw [if_neg hless]
      refine ⟨hlt.trans (Nat.lt_succ_self _), fun i hi => ?_⟩
      rcases Nat.lt_succ_iff_lt_or_eq.mp hi with hi | rfl
      · exact hmax i hi
      · exact ⟨not_lt.mp hless, fun _ => hlt.le⟩

/-! ## The value area -/

theorem levelAt_mem {i : ℤ} (hi : 0 ≤ i) (hlength : i < levels.length) :
    levelAt levels i ∈ levels := by
  unfold levelAt
  rw [List.getD_eq_getElem _ _ (by omega)]
  exact List.getElem_mem _

theorem levelAt_lt (hascending : (levels.map Prod.fst).Pairwise (· < ·)) {i j : ℤ} (hi : 0 ≤ i)
    (hij : i < j) (hj : j < levels.length) : (levelAt levels i).1 < (levelAt levels j).1 := by
  have hpair := List.pairwise_iff_getElem.mp (List.pairwise_map.mp hascending)
  unfold levelAt
  rw [List.getD_eq_getElem _ _ (by omega), List.getD_eq_getElem _ _ (by omega)]
  exact hpair _ _ (by omega) (by omega) (by omega)

theorem levelAt_le (hascending : (levels.map Prod.fst).Pairwise (· < ·)) {i j : ℤ} (hi : 0 ≤ i)
    (hij : i ≤ j) (hj : j < levels.length) : (levelAt levels i).1 ≤ (levelAt levels j).1 := by
  rcases hij.lt_or_eq with hlt | rfl
  · exact (levelAt_lt hascending hi hlt hj).le
  · exact le_rfl

/-- The prices from one level to another are those of the levels between. -/
theorem filter_between (hascending : (levels.map Prod.fst).Pairwise (· < ·)) (hlower : -1 ≤ lower)
    (hordered : lower + 1 < upper) (hupper : upper ≤ levels.length) :
    (levels.filter fun level => (levelAt levels (lower + 1)).1 ≤ level.1 ∧
      level.1 ≤ (levelAt levels (upper - 1)).1) = between levels lower upper := by
  generalize hinside : (fun level : ℚ × ℚ => decide ((levelAt levels (lower + 1)).1 ≤ level.1 ∧
    level.1 ≤ (levelAt levels (upper - 1)).1)) = inside
  have hat : ∀ {i : ℕ} (hi : i < levels.length), levels[i] = levelAt levels i := by
    intro i hi
    unfold levelAt
    rw [List.getD_eq_getElem _ _ (by simpa using hi)]
    rfl
  have hsplit : levels = levels.take (lower + 1).toNat ++ (between levels lower upper ++
      levels.drop upper.toNat) := by
    have hdrop : levels.drop upper.toNat =
        (levels.drop (lower + 1).toNat).drop (upper - lower - 1).toNat := by
      rw [List.drop_drop]
      congr 1
      omega
    unfold between
    rw [hdrop, List.take_append_drop, List.take_append_drop]
  have hbefore : (levels.take (lower + 1).toNat).filter inside = [] := by
    refine List.filter_eq_nil_iff.mpr fun level hlevel hin => ?_
    obtain ⟨i, hi, rfl⟩ := List.mem_take_iff_getElem.mp hlevel
    rw [← hinside, hat (by omega)] at hin
    have hless := levelAt_lt hascending (i := i) (j := lower + 1) (by omega) (by omega) (by omega)
    exact hless.not_ge (of_decide_eq_true hin).1
  have hafter : (levels.drop upper.toNat).filter inside = [] := by
    refine List.filter_eq_nil_iff.mpr fun level hlevel hin => ?_
    obtain ⟨i, hi, rfl⟩ := List.mem_drop_iff_getElem.mp hlevel
    rw [← hinside, hat (by omega)] at hin
    have hless := levelAt_lt hascending (i := upper - 1) (j := ((upper.toNat + i : ℕ) : ℤ))
      (by omega) (by omega) (by omega)
    exact hless.not_ge (of_decide_eq_true hin).2
  have hwithin : (between levels lower upper).filter inside = between levels lower upper := by
    refine List.filter_eq_self.mpr fun level hlevel => ?_
    obtain ⟨i, hi, rfl⟩ := List.mem_take_iff_getElem.mp hlevel
    rw [List.length_drop] at hi
    rw [← hinside, List.getElem_drop, hat (by omega)]
    have hfrom := levelAt_le hascending (i := lower + 1)
      (j := (((lower + 1).toNat + i : ℕ) : ℤ)) (by omega) (by omega) (by omega)
    have hto := levelAt_le hascending (i := (((lower + 1).toNat + i : ℕ) : ℤ)) (j := upper - 1)
      (by omega) (by omega) (by omega)
    exact decide_eq_true ⟨hfrom, hto⟩
  calc levels.filter inside
      = (levels.take (lower + 1).toNat ++ (between levels lower upper ++
          levels.drop upper.toNat)).filter inside := congrArg _ hsplit
    _ = between levels lower upper := by
      rw [List.filter_append, List.filter_append, hbefore, hafter, hwithin, List.nil_append,
        List.append_nil]

/-- The profile of levels, with the levels that the expansion added. -/
structure IsValueArea (levels : List (ℚ × ℚ)) (valueAreaFraction : ℚ) (added : List (ℚ × ℚ))
    (profile : VolumeProfile) : Prop where
  /-- The POC has the greatest volume, and the lowest price of those. -/
  poc : ∃ volume, (profile.poc, volume) ∈ levels ∧ ∀ level ∈ levels,
    level.2 ≤ volume ∧ (level.2 = volume → profile.poc ≤ level.1)
  val_le : profile.val ≤ profile.poc
  le_vah : profile.poc ≤ profile.vah
  /-- The bounds are prices of levels. -/
  val_mem : profile.val ∈ levels.map Prod.fst
  vah_mem : profile.vah ∈ levels.map Prod.fst
  /-- The levels between the bounds are the POC and those added, each once. -/
  run : ∃ volume, (levels.filter fun level =>
    profile.val ≤ level.1 ∧ level.1 ≤ profile.vah).Perm ((profile.poc, volume) :: added)
  total : profile.totalVolume = (levels.map Prod.snd).sum
  volume : profile.valueAreaVolume = ((levels.filter fun level =>
    profile.val ≤ level.1 ∧ level.1 ≤ profile.vah).map Prod.snd).sum
  enough : valueAreaFraction * profile.totalVolume ≤ profile.valueAreaVolume
  needed : ∀ last ∈ added.getLast?,
    profile.valueAreaVolume - last.2 < valueAreaFraction * profile.totalVolume

/-- The levels that the expansion from the POC adds, one after the other. -/
def addedLevels (levels : List (ℚ × ℚ)) (valueAreaFraction : ℚ) : List (ℚ × ℚ) :=
  expansion levels ((levels.map Prod.snd).sum * valueAreaFraction) levels.length
    (pocIndex (levels.map Prod.snd) - 1) (pocIndex (levels.map Prod.snd) + 1)
    ((levels.map Prod.snd).getD (pocIndex (levels.map Prod.snd)) 0)

/-- The loop from the POC. -/
def expandFrom (levels : List (ℚ × ℚ)) (valueAreaFraction : ℚ) (fuel : ℕ) : ℤ × ℤ × ℚ :=
  widen (levels.map Prod.snd) ((levels.map Prod.snd).sum * valueAreaFraction) fuel
    (pocIndex (levels.map Prod.snd) - 1) (pocIndex (levels.map Prod.snd) + 1)
    ((levels.map Prod.snd).getD (pocIndex (levels.map Prod.snd)) 0)

theorem volumes_nonneg (hpos : ∀ level ∈ levels, 0 < level.2) :
    ∀ v ∈ levels.map Prod.snd, 0 ≤ v := by
  intro v hv
  obtain ⟨level, hlevel, rfl⟩ := List.mem_map.mp hv
  exact (hpos level hlevel).le

theorem pocIndex_spec (hne : levels ≠ []) : pocIndex (levels.map Prod.snd) < levels.length ∧
    ∀ i < levels.length,
      (levels.map Prod.snd).getD i 0 ≤
        (levels.map Prod.snd).getD (pocIndex (levels.map Prod.snd)) 0 ∧
      ((levels.map Prod.snd).getD i 0 =
        (levels.map Prod.snd).getD (pocIndex (levels.map Prod.snd)) 0 →
          pocIndex (levels.map Prod.snd) ≤ i) := by
  have hspec := pocOf_spec (levels.map Prod.snd) (n := levels.length) (List.length_pos_iff.mpr hne)
  rw [← List.length_map Prod.snd] at hspec ⊢
  exact hspec

/-- The loop has its target at the end, or all levels. -/
theorem expandFrom_stops (hne : levels ≠ []) (hpos : ∀ level ∈ levels, 0 < level.2)
    (valueAreaFraction : ℚ) :
    ¬ ((expandFrom levels valueAreaFraction levels.length).2.2 <
        (levels.map Prod.snd).sum * valueAreaFraction ∧
      (0 ≤ (expandFrom levels valueAreaFraction levels.length).1 ∨
        (expandFrom levels valueAreaFraction levels.length).2.1 <
          (levels.map Prod.snd).length)) := by
  have hpoc := (pocIndex_spec hne).1
  have hlength : (levels.map Prod.snd).length = levels.length := List.length_map _
  exact widen_stops (volumes_nonneg hpos) _ _ _ _ _ (by omega) (by omega) (by omega) (by omega)
    (by omega)

theorem valueArea_spec {valueAreaFraction : ℚ} (hne : levels ≠ [])
    (hascending : (levels.map Prod.fst).Pairwise (· < ·)) (hpos : ∀ level ∈ levels, 0 < level.2)
    (hfraction : valueAreaFraction ≤ 1) :
    IsValueArea levels valueAreaFraction (addedLevels levels valueAreaFraction)
      (valueArea levels valueAreaFraction) := by
  have hvolumes := volumes_nonneg hpos
  have hstops := expandFrom_stops hne hpos valueAreaFraction
  obtain ⟨hpoc, hmax⟩ := pocIndex_spec hne
  unfold valueArea addedLevels
  unfold expandFrom at hstops
  dsimp only
  generalize pocIndex (levels.map Prod.snd) = poc at hpoc hmax hstops ⊢
  rw [List.length_map] at hstops ⊢
  have hprice : ∀ i : ℤ, (levels.map Prod.fst).getD i.toNat 0 = (levelAt levels i).1 :=
    fun i => List.getD_map levels (0, 0) Prod.fst
  have hvolumeAt : ∀ i : ℕ, (levels.map Prod.snd).getD i 0 = (levelAt levels i).2 :=
    fun i => List.getD_map levels (0, 0) Prod.snd
  have hstart : between levels (poc - 1) (poc + 1) = [levelAt levels poc] := by
    have hempty : between levels (poc - 1) poc = [] := by simp [between]
    rw [between_upper (by omega) (by omega) (by omega), hempty, List.nil_append]
  have hsum : (([levelAt levels poc] : List (ℚ × ℚ)).map Prod.snd).sum =
      (levels.map Prod.snd).getD poc 0 := by
    rw [hvolumeAt]
    simp
  have hselected := widen_selected hvolumes ((levels.map Prod.snd).sum * valueAreaFraction)
    levels.length (poc - 1) (poc + 1) [levelAt levels poc] (by omega) (by omega) (by omega)
    (hstart ▸ List.Perm.refl _)
  rw [hsum] at hselected
  simp only [hprice, hvolumeAt] at hselected hstops hmax ⊢
  generalize expansion levels ((levels.map Prod.snd).sum * valueAreaFraction) levels.length
    (poc - 1) (poc + 1) (levelAt levels poc).2 = added at hselected ⊢
  generalize widen (levels.map Prod.snd) ((levels.map Prod.snd).sum * valueAreaFraction)
    levels.length (poc - 1) (poc + 1) (levelAt levels poc).2 = result at hselected hstops ⊢
  obtain ⟨lower, upper, accumulated⟩ := result
  obtain ⟨hlower, hupper, hordered, hlevels, hvolume, hneeded⟩ := hselected
  dsimp only at hlower hupper hordered hlevels hvolume hneeded hstops ⊢
  have hgap : lower + 1 < upper := by
    by_contra hno
    have hempty : between levels lower upper = [] := by
      unfold between
      rw [show (upper - lower - 1).toNat = 0 by omega, List.take_zero]
    rw [hempty] at hlevels
    simpa using hlevels.length_eq
  have hrun := filter_between hascending hlower hgap hupper
  have hinside : levelAt levels poc ∈ between levels lower upper :=
    hlevels.mem_iff.mpr List.mem_cons_self
  rw [← hrun] at hinside
  obtain ⟨hmem, hbounds⟩ := List.mem_filter.mp hinside
  obtain ⟨hval, hvah⟩ := of_decide_eq_true hbounds
  have haccumulated : accumulated = ((between levels lower upper).map Prod.snd).sum := by
    rw [hvolume]
    exact ((hlevels.map Prod.snd).sum_eq).symm
  have henough : (levels.map Prod.snd).sum * valueAreaFraction ≤ accumulated := by
    by_contra hno
    have hends : lower = -1 ∧ upper = levels.length := by
      have hout : ¬ (0 ≤ lower ∨ upper < levels.length) := fun h => hstops ⟨not_le.mp hno, h⟩
      omega
    have hall : between levels lower upper = levels := by
      unfold between
      rw [hends.1, hends.2]
      simp
    rw [haccumulated, hall] at hno
    exact hno (mul_le_of_le_one_right (List.sum_nonneg hvolumes) hfraction)
  exact
    { poc := by
        refine ⟨(levelAt levels poc).2, hmem, fun level hlevel => ?_⟩
        obtain ⟨i, hi, rfl⟩ := List.mem_iff_getElem.mp hlevel
        obtain ⟨hle, hties⟩ := hmax i hi
        have hi' : levels[i] = levelAt levels i := by
          unfold levelAt
          rw [List.getD_eq_getElem _ _ (by simpa using hi)]
          rfl
        rw [hi']
        exact ⟨hle, fun heq => levelAt_le hascending (by omega) (by simpa using hties heq) (by omega)⟩
      val_le := hval
      le_vah := hvah
      val_mem := List.mem_map_of_mem (levelAt_mem (by omega) (by omega))
      vah_mem := List.mem_map_of_mem (levelAt_mem (by omega) (by omega))
      run := ⟨_, hrun ▸ hlevels⟩
      total := rfl
      volume := by rw [haccumulated, hrun]
      enough := by rwa [mul_comm]
      needed := fun last hlast => by
        rw [mul_comm]
        exact hneeded last hlast }

theorem levelTotals_ascending (footprint : List FootprintRow) :
    ((levelTotals footprint).map Prod.fst).Pairwise (· < ·) := by
  have hkeys : (levelTotals footprint).map Prod.fst = keysOf FootprintRow.priceLevel footprint := by
    unfold levelTotals groups
    rw [List.map_map, List.map_map]
    exact List.map_id _
  rw [hkeys]
  exact pairwise_keysOf _ _

/-- A row of a level. -/
def levelRow (priceLevel totalVolume : ℚ) : FootprintRow where
  bucketStartMs := 0
  priceLevel := priceLevel
  timestamp := 0
  maxSourceTimestamp := 0
  buyVolume := totalVolume
  sellVolume := 0
  totalVolume := totalVolume
  delta := totalVolume
  diagonalBuyRatio := 0
  diagonalSellRatio := 0
  stackedBuyLevels := 0
  stackedSellLevels := 0

/-- A level at the bottom has the greatest volume, so the area can only be widened upwards. -/
def bottomHeavy : List FootprintRow := [levelRow 102 3, levelRow 100 6, levelRow 101 2]

example : (valueArea (levelTotals bottomHeavy) (7 / 10)).vah = 101 := by decide +kernel

end Greenfield.Features
