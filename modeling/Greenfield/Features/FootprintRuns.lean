import Greenfield.Features.FlowBuckets

/-!
# Footprint runs

What the levels of a footprint add up to, and how long the runs of imbalances are. A level has a
diagonal imbalance only where the level next to it has trades, so imbalances that follow each other
in the list of levels are one price tick apart (`stackRuns_ladder`).
-/

namespace Greenfield.Features

open Buckets Data Py

/-! ## Runs of flags -/

variable {i : ℕ}

variable {flags : List Bool}

/-- The run of a flag that is set. -/
theorem stackRuns_at (hi : i < flags.length) (hset : flags[i] = true) :
    ∃ start stop, start ≤ i ∧ i < stop ∧ stop ≤ flags.length ∧
      (∀ j, start ≤ j → j < stop → flags[j]? = some true) ∧
      (∀ j, j + 1 = start → flags[j]? = some false) ∧
      flags[stop]? ≠ some true ∧ (stackRuns flags).getD i 0 = stop - start := by
  obtain ⟨pre, g, post, hruns, hstart, hstop, hsplit, hkeys, hbefore, hafter⟩ :=
    exists_run id hi
  simp only [id_eq, hset] at hruns hkeys hbefore hafter
  have hlength : (pre.flatMap fun p => p.2.map fun _ => if p.1 then p.2.length else 0).length =
      (pre.flatMap Prod.snd).length := by
    rw [List.length_flatMap, List.length_flatMap]
    simp
  refine ⟨(pre.flatMap Prod.snd).length, (pre.flatMap Prod.snd).length + g.length, hstart, hstop,
    ?_, ?_, ?_, ?_, ?_⟩
  · have htotal := congrArg List.length hsplit
    rw [List.length_append, List.length_append] at htotal
    omega
  · intro j hfrom hto
    rw [hsplit, List.getElem?_append_right hfrom, List.getElem?_append_left (by omega),
      List.getElem?_eq_getElem (by omega)]
    exact congrArg some (hkeys _ (List.getElem_mem _))
  · intro j hj
    have hlast : (pre.flatMap Prod.snd)[j]? = (pre.flatMap Prod.snd).getLast? := by
      rw [List.getLast?_eq_getElem?, ← hj, Nat.add_sub_cancel]
    rw [hsplit, List.getElem?_append_left (by omega), hlast]
    cases h : (pre.flatMap Prod.snd).getLast? with
    | none =>
      rw [List.getLast?_eq_none_iff] at h
      rw [h] at hj
      simp at hj
    | some x => simpa using hbefore x h
  · intro hnext
    rw [hsplit, List.getElem?_append_right (by omega), List.getElem?_append_right (by omega),
      show (pre.flatMap Prod.snd).length + g.length - (pre.flatMap Prod.snd).length - g.length = 0 by
        omega, ← List.head?_eq_getElem?] at hnext
    exact hafter true hnext rfl
  · have hstack : stackRuns flags =
        (runs id flags).flatMap fun p => p.2.map fun _ => if p.1 then p.2.length else 0 := rfl
    rw [hstack, hruns, List.flatMap_append, List.flatMap_cons,
      List.getD_append_right _ _ _ _ (by omega), hlength]
    dsimp only
    rw [List.getD_append _ _ _ _ (by rw [List.length_map]; omega),
      List.getD_eq_getElem _ _ (by rw [List.length_map]; omega), List.getElem_map, if_pos rfl]
    omega

theorem stackRuns_unset (hi : i < flags.length)
    (hunset : flags[i] = false) : (stackRuns flags).getD i 0 = 0 := by
  have hpos := stackRuns_pos flags
  have hi' : i < (stackRuns flags).length := by rw [hpos.length_eq]; exact hi
  have hflag := hpos.get hi' hi
  rw [List.getD_eq_getElem _ _ hi']
  simpa [hunset] using hflag

/-! ## Ladders -/

/-- The maximal run of imbalances, each one tick from the next, that has the level in it. -/
def IsRunLength (tick : ℚ) (imbalance : ℚ → Prop) (level : ℚ) (count : ℕ) : Prop :=
  ∃ below above : ℕ, count = below + above + 1 ∧
    (∀ k ≤ below, imbalance (level - k * tick)) ∧ ¬ imbalance (level - (below + 1 : ℕ) * tick) ∧
    (∀ k ≤ above, imbalance (level + k * tick)) ∧ ¬ imbalance (level + (above + 1 : ℕ) * tick)

/-- The levels of a bucket, in order, on the grid of the price tick. -/
structure Ladder (tick : ℚ) (levels : List ℚ) : Prop where
  tick_pos : 0 < tick
  ascending : levels.Pairwise (· < ·)
  grid : ∀ level ∈ levels, ∃ n : ℤ, level = n * tick

/-- Imbalances need the level below them, or the one above. -/
structure Imbalances (tick : ℚ) (levels : List ℚ) (imbalance : ℚ → Prop) : Prop where
  traded : ∀ level, imbalance level → level ∈ levels
  next : (∀ level, imbalance level → level - tick ∈ levels) ∨
    ∀ level, imbalance level → level + tick ∈ levels

namespace Ladder

variable {tick : ℚ} {levels : List ℚ} {imbalance : ℚ → Prop}

variable {i j : ℕ}

theorem lt (h : Ladder tick levels) (hij : i < j) (hj : j < levels.length) :
    levels.getD i 0 < levels.getD j 0 := by
  rw [List.getD_eq_getElem _ _ (hij.trans hj), List.getD_eq_getElem _ _ hj]
  exact List.pairwise_iff_getElem.mp h.ascending i j _ hj hij

theorem le (h : Ladder tick levels) (hij : i ≤ j) (hj : j < levels.length) :
    levels.getD i 0 ≤ levels.getD j 0 := by
  rcases hij.lt_or_eq with hlt | rfl
  · exact (h.lt hlt hj).le
  · exact le_rfl

/-- A level is at least a tick above those before it. -/
theorem add_tick_le (h : Ladder tick levels) (hij : i < j) (hj : j < levels.length) :
    levels.getD i 0 + tick ≤ levels.getD j 0 := by
  have hlt := h.lt hij hj
  rw [List.getD_eq_getElem _ _ (hij.trans hj), List.getD_eq_getElem _ _ hj] at hlt ⊢
  obtain ⟨n, hn⟩ := h.grid _ (List.getElem_mem (hij.trans hj))
  obtain ⟨m, hm⟩ := h.grid _ (List.getElem_mem hj)
  rw [hn, hm] at hlt ⊢
  have hnm : n < m := by
    have := lt_of_mul_lt_mul_right hlt h.tick_pos.le
    exact_mod_cast this
  have hle : ((n + 1 : ℤ) : ℚ) * tick ≤ m * tick :=
    mul_le_mul_of_nonneg_right (by exact_mod_cast hnm) h.tick_pos.le
  calc (n : ℚ) * tick + tick = ((n + 1 : ℤ) : ℚ) * tick := by push_cast; ring
    _ ≤ m * tick := hle

theorem exists_position {level : ℚ} (hlevel : level ∈ levels) :
    ∃ m < levels.length, levels.getD m 0 = level := by
  obtain ⟨m, hm, rfl⟩ := List.mem_iff_getElem.mp hlevel
  exact ⟨m, hm, List.getD_eq_getElem _ _ hm⟩

/-- Imbalances that follow each other are one tick apart. -/
theorem step (h : Ladder tick levels) (hi : Imbalances tick levels imbalance) {j : ℕ}
    (hj : j + 1 < levels.length) (hlow : imbalance (levels.getD j 0))
    (hhigh : imbalance (levels.getD (j + 1) 0)) :
    levels.getD (j + 1) 0 = levels.getD j 0 + tick := by
  refine le_antisymm ?_ (h.add_tick_le (Nat.lt_succ_self j) hj)
  rcases hi.next with hbelow | habove
  · obtain ⟨m, hm, heq⟩ := exists_position (hbelow _ hhigh)
    have hmj : m ≤ j := by
      by_contra hno
      have hle := h.le (i := j + 1) (j := m) (by omega) hm
      rw [heq] at hle
      exact absurd h.tick_pos (by simpa using hle)
    have hle := h.le hmj (by omega)
    rw [heq] at hle
    exact sub_le_iff_le_add.mp hle
  · obtain ⟨m, hm, heq⟩ := exists_position (habove _ hlow)
    have hmj : j + 1 ≤ m := by
      by_contra hno
      have hle := h.le (i := m) (j := j) (by omega) (by omega)
      rw [heq] at hle
      exact absurd h.tick_pos (by simpa using hle)
    rw [← heq]
    exact h.le hmj hm

/-- Imbalances from one index to another. -/
theorem steps (h : Ladder tick levels) (hi : Imbalances tick levels imbalance) {start : ℕ} :
    ∀ k, start + k < levels.length → (∀ j ≤ k, imbalance (levels.getD (start + j) 0)) →
      levels.getD (start + k) 0 = levels.getD start 0 + k * tick
  | 0, _, _ => by simp
  | k + 1, hk, hall => by
    have hlast := h.step hi (j := start + k) hk (hall k (by omega)) (hall (k + 1) le_rfl)
    rw [← Nat.add_assoc, hlast, steps h hi k (by omega) fun j hj => hall j (by omega)]
    push_cast
    ring

/-- **Runs of flags are runs of ticks.** -/
theorem isRunLength (h : Ladder tick levels) (hi : Imbalances tick levels imbalance)
    {start i stop : ℕ} (hstart : start ≤ i) (hstop : i < stop) (hlength : stop ≤ levels.length)
    (hrun : ∀ j, start ≤ j → j < stop → imbalance (levels.getD j 0))
    (hbefore : ∀ j, j + 1 = start → ¬ imbalance (levels.getD j 0))
    (hafter : stop < levels.length → ¬ imbalance (levels.getD stop 0)) :
    IsRunLength tick imbalance (levels.getD i 0) (stop - start) := by
  have hsteps : ∀ j k, start ≤ j → j + k < stop →
      levels.getD (j + k) 0 = levels.getD j 0 + k * tick := fun j k hj hk =>
    h.steps hi k (by omega) fun m hm => hrun _ (by omega) (by omega)
  refine ⟨i - start, stop - 1 - i, by omega, fun k hk => ?_, fun hlow => ?_, fun k hk => ?_,
    fun hhigh => ?_⟩
  · have heq := hsteps (i - k) k (by omega) (by omega)
    rw [Nat.sub_add_cancel (by omega)] at heq
    rw [heq, add_sub_cancel_right]
    exact hrun _ (by omega) (by omega)
  · -- a level one tick below the run would be the one before it
    obtain ⟨m, hm, heq⟩ := exists_position (hi.traded _ hlow)
    have hfirst := hsteps start (i - start) le_rfl (by omega)
    rw [Nat.add_sub_cancel' hstart] at hfirst
    have hbelow : levels.getD m 0 + tick = levels.getD start 0 := by
      rw [heq, hfirst]
      push_cast
      ring
    have hlt : m < start := by
      by_contra hno
      have hle := h.le (i := start) (j := m) (by omega) hm
      rw [← hbelow] at hle
      exact absurd h.tick_pos (by simpa using hle)
    have hle := h.add_tick_le (i := start - 1) (j := start) (by omega) (by omega)
    rw [← hbelow] at hle
    have hsame := le_antisymm (le_of_add_le_add_right hle) (h.le (i := m) (j := start - 1) (by omega) (by omega))
    apply hbefore (start - 1) (by omega)
    rw [hsame, heq]
    exact hlow
  · rw [← hsteps i k hstart (by omega)]
    exact hrun _ (by omega) (by omega)
  · obtain ⟨m, hm, heq⟩ := exists_position (hi.traded _ hhigh)
    have hlast := hsteps i (stop - 1 - i) hstart (by omega)
    rw [show i + (stop - 1 - i) = stop - 1 by omega] at hlast
    have habove : levels.getD m 0 = levels.getD (stop - 1) 0 + tick := by
      rw [heq, hlast]
      push_cast
      ring
    have hlt : stop - 1 < m := by
      by_contra hno
      have hle := h.le (i := m) (j := stop - 1) (by omega) (by omega)
      rw [habove] at hle
      exact absurd h.tick_pos (by simpa using hle)
    have hle := h.add_tick_le (i := stop - 1) (j := stop) (by omega) (by omega)
    rw [← habove] at hle
    have hsame := le_antisymm (h.le (i := stop) (j := m) (by omega) hm) hle
    apply hafter (by omega)
    rw [hsame, heq]
    exact hhigh

end Ladder

/-! ## Diagonal imbalances -/

/-- The buys of a level against the sells one tick below. -/
def BuyImbalance (tick imbalanceRatio : ℚ) (group : List Trade) (level : ℚ) : Prop :=
  0 < volumeOf "sell" (tradesAt tick group (level - tick)) ∧
    imbalanceRatio * volumeOf "sell" (tradesAt tick group (level - tick)) ≤
      volumeOf "buy" (tradesAt tick group level)

/-- The sells of a level against the buys one tick above. -/
def SellImbalance (tick imbalanceRatio : ℚ) (group : List Trade) (level : ℚ) : Prop :=
  0 < volumeOf "buy" (tradesAt tick group (level + tick)) ∧
    imbalanceRatio * volumeOf "buy" (tradesAt tick group (level + tick)) ≤
      volumeOf "sell" (tradesAt tick group level)

theorem le_diagonalRatio {imbalanceRatio volume opposite : ℚ} (hratio : 0 < imbalanceRatio) :
    imbalanceRatio ≤ diagonalRatio volume opposite ↔
      0 < opposite ∧ imbalanceRatio * opposite ≤ volume := by
  unfold diagonalRatio
  split
  · next h => rw [le_div_iff₀ h, and_iff_right h]
  · next h => simp [h, hratio]

variable {group : List Trade}

variable {side : String}

/-- A volume is of a level with trades. -/
theorem level_of_volume {tick level : ℚ}
    (h : 0 < volumeOf side (tradesAt tick group level)) :
    level ∈ keysOf (priceLevelOf tick) group := by
  obtain ⟨row, hrow⟩ : ∃ row, row ∈ tradesAt tick group level := by
    refine List.exists_mem_of_ne_nil _ fun hnil => ?_
    rw [hnil] at h
    exact lt_irrefl _ h
  obtain ⟨hin, heq⟩ := List.mem_filter.mp hrow
  exact mem_keysOf.mpr ⟨row, hin, of_decide_eq_true heq⟩

section

variable {tick imbalanceRatio : ℚ} (htick : 0 < tick) (hratio : 0 < imbalanceRatio)
  (group : List Trade)

include htick in
theorem ladder_keysOf : Ladder tick (keysOf (priceLevelOf tick) group) where
  tick_pos := htick
  ascending := pairwise_keysOf _ _
  grid := by
    intro level hlevel
    obtain ⟨row, -, rfl⟩ := mem_keysOf.mp hlevel
    exact ⟨_, rfl⟩

include hratio

theorem buyImbalances : Imbalances tick (keysOf (priceLevelOf tick) group)
    (BuyImbalance tick imbalanceRatio group) where
  traded := fun _ h => level_of_volume ((mul_pos hratio h.1).trans_le h.2)
  next := .inl fun _ h => level_of_volume h.1

theorem sellImbalances : Imbalances tick (keysOf (priceLevelOf tick) group)
    (SellImbalance tick imbalanceRatio group) where
  traded := fun _ h => level_of_volume ((mul_pos hratio h.1).trans_le h.2)
  next := .inr fun _ h => level_of_volume h.1

end

/-- What the count of a level is: none without an imbalance, else its run. -/
structure IsStackCount (tick : ℚ) (imbalance : ℚ → Prop) (level : ℚ) (count : ℕ) : Prop where
  unset : ¬ imbalance level → count = 0
  run : imbalance level → IsRunLength tick imbalance level count

/-- **Counts**: the runs of the flags of a ladder. -/
theorem stackRuns_ladder {tick : ℚ} {levels : List ℚ} {imbalance : ℚ → Prop}
    [DecidablePred imbalance] (h : Ladder tick levels) (hi : Imbalances tick levels imbalance)
    (hlength : i < levels.length) : IsStackCount tick imbalance (levels.getD i 0)
      ((stackRuns (levels.map fun level => decide (imbalance level))).getD i 0) := by
  have hflag : ∀ j, j < levels.length →
      (levels.map fun level => decide (imbalance level))[j]? =
        some (decide (imbalance (levels.getD j 0))) := by
    intro j hj
    rw [List.getElem?_map, List.getElem?_eq_getElem hj, List.getD_eq_getElem _ _ hj]
    rfl
  have hi' : i < (levels.map fun level => decide (imbalance level)).length := by
    rwa [List.length_map]
  have hget : (levels.map fun level => decide (imbalance level))[i] =
      decide (imbalance (levels.getD i 0)) := by
    rw [List.getElem_map, List.getD_eq_getElem _ _ hlength]
  constructor
  · intro hunset
    exact stackRuns_unset hi' (hget.trans (decide_eq_false hunset))
  · intro hset
    obtain ⟨start, stop, hstart, hstop, hbound, hrun, hbefore, hafter, hcount⟩ :=
      stackRuns_at hi' (hget.trans (decide_eq_true hset))
    rw [List.length_map] at hbound
    rw [hcount]
    refine h.isRunLength hi hstart hstop hbound ?_ ?_ ?_
    · intro j hfrom hto
      have hj := hrun j hfrom hto
      rw [hflag j (by omega)] at hj
      exact of_decide_eq_true (Option.some.inj hj)
    · intro j hj hset
      have hj' := hbefore j hj
      rw [hflag j (by omega), decide_eq_true hset] at hj'
      cases hj'
    · intro hroom hset
      rw [hflag stop hroom, decide_eq_true hset] at hafter
      exact hafter rfl

/-! ## Footprints -/

instance {tick imbalanceRatio : ℚ} {group : List Trade} :
    DecidablePred (BuyImbalance tick imbalanceRatio group) :=
  fun _ => inferInstanceAs (Decidable (_ ∧ _))

instance {tick imbalanceRatio : ℚ} {group : List Trade} :
    DecidablePred (SellImbalance tick imbalanceRatio group) :=
  fun _ => inferInstanceAs (Decidable (_ ∧ _))

variable {symbol : String} {bucketMs : ℤ} {tick imbalanceRatio : ℚ} {rows : List Trade}

variable (tick) in
/-- The flags of a bucket are its imbalances. -/
theorem flags_eq (hratio : 0 < imbalanceRatio) (group : List Trade) :
    ((groups (priceLevelOf tick) group).map fun p =>
        decide (imbalanceRatio ≤ buyRatio tick (groups (priceLevelOf tick) group) p.1)) =
      (keysOf (priceLevelOf tick) group).map (fun level =>
        decide (BuyImbalance tick imbalanceRatio group level)) ∧
    ((groups (priceLevelOf tick) group).map fun p =>
        decide (imbalanceRatio ≤ sellRatio tick (groups (priceLevelOf tick) group) p.1)) =
      (keysOf (priceLevelOf tick) group).map fun level =>
        decide (SellImbalance tick imbalanceRatio group level) := by
  have hbuy : ∀ level, imbalanceRatio ≤ buyRatio tick (groups (priceLevelOf tick) group) level ↔
      BuyImbalance tick imbalanceRatio group level := by
    intro level
    unfold buyRatio
    rw [levelVolume_groups, levelVolume_groups]
    exact le_diagonalRatio hratio
  have hsell : ∀ level, imbalanceRatio ≤ sellRatio tick (groups (priceLevelOf tick) group) level ↔
      SellImbalance tick imbalanceRatio group level := by
    intro level
    unfold sellRatio
    rw [levelVolume_groups, levelVolume_groups]
    exact le_diagonalRatio hratio
  have hkeys : keysOf (priceLevelOf tick) group =
      (groups (priceLevelOf tick) group).map Prod.fst := by
    unfold groups
    rw [List.map_map]
    exact (List.map_id _).symm
  constructor
  · simp only [hbuy]
    rw [hkeys, List.map_map]
    rfl
  · simp only [hsell]
    rw [hkeys, List.map_map]
    rfl

variable {bucket : ℤ} {r : FootprintRow}

/-- The counts of a row. -/
theorem bucketFootprint_stacks (htick : 0 < tick) (hratio : 0 < imbalanceRatio)
    (hr : r ∈ bucketFootprint bucketMs tick imbalanceRatio bucket group) :
    IsStackCount tick (BuyImbalance tick imbalanceRatio group) r.priceLevel r.stackedBuyLevels ∧
      IsStackCount tick (SellImbalance tick imbalanceRatio group) r.priceLevel
        r.stackedSellLevels := by
  obtain ⟨i, hi, rfl⟩ := List.mem_iff_getElem.mp hr
  obtain ⟨hbuys, hsells⟩ := flags_eq tick hratio group
  have hlength : i < (keysOf (priceLevelOf tick) group).length := by
    simpa [bucketFootprint, groups] using hi
  have hlevel : ((bucketFootprint bucketMs tick imbalanceRatio bucket group)[i]).priceLevel =
      (keysOf (priceLevelOf tick) group).getD i 0 := by
    rw [List.getD_eq_getElem _ _ hlength]
    simp only [bucketFootprint, groups, List.getElem_map, List.getElem_zipIdx]
  have hbuy : ((bucketFootprint bucketMs tick imbalanceRatio bucket group)[i]).stackedBuyLevels =
      (stackRuns ((keysOf (priceLevelOf tick) group).map fun level =>
        decide (BuyImbalance tick imbalanceRatio group level))).getD i 0 := by
    rw [← hbuys]
    simp only [bucketFootprint, List.getElem_map, List.getElem_zipIdx, zero_add]
  have hsell : ((bucketFootprint bucketMs tick imbalanceRatio bucket group)[i]).stackedSellLevels =
      (stackRuns ((keysOf (priceLevelOf tick) group).map fun level =>
        decide (SellImbalance tick imbalanceRatio group level))).getD i 0 := by
    rw [← hsells]
    simp only [bucketFootprint, List.getElem_map, List.getElem_zipIdx, zero_add]
  rw [hlevel, hbuy, hsell]
  exact ⟨stackRuns_ladder (ladder_keysOf htick group) (buyImbalances hratio group) hlength,
    stackRuns_ladder (ladder_keysOf htick group) (sellImbalances hratio group) hlength⟩

/-- The levels of a bucket have all of its volume. -/
theorem bucketFootprint_volume (tick imbalanceRatio : ℚ) (bucket : ℤ) (group : List Trade) :
    ((bucketFootprint bucketMs tick imbalanceRatio bucket group).map
        FootprintRow.buyVolume).sum = volumeOf "buy" group ∧
      ((bucketFootprint bucketMs tick imbalanceRatio bucket group).map
        FootprintRow.sellVolume).sum = volumeOf "sell" group := by
  have hgroups : ∀ side, ((keysOf (priceLevelOf tick) group).map fun level =>
      volumeOf side (tradesAt tick group level)).sum = volumeOf side group := by
    intro side
    have hsum := sum_groups (priceLevelOf tick)
      (fun row : Trade => if row.side = some side then row.amount else 0) group
    unfold groups at hsum
    rw [List.map_map, ← volumeOf_eq_sum] at hsum
    rw [← hsum]
    exact congrArg List.sum (List.map_congr_left fun level _ => volumeOf_eq_sum side _)
  have hrows := bucketFootprint_rows bucketMs tick imbalanceRatio bucket group
  have hmaps : ∀ {f : FootprintRow → ℚ} {side : String}, (∀ r level,
      IsLevelRow bucketMs tick imbalanceRatio bucket group r level →
        f r = volumeOf side (tradesAt tick group level)) →
      (bucketFootprint bucketMs tick imbalanceRatio bucket group).map f =
        (keysOf (priceLevelOf tick) group).map fun level =>
          volumeOf side (tradesAt tick group level) := by
    intro f side h
    rw [← List.forall₂_eq_eq_eq, List.forall₂_map_left_iff, List.forall₂_map_right_iff]
    exact hrows.imp h
  rw [hmaps fun r level h => h.buy, hmaps fun r level h => h.sell]
  exact ⟨hgroups "buy", hgroups "sell"⟩

theorem bucketStart_of_mem
    (hr : r ∈ bucketFootprint bucketMs tick imbalanceRatio bucket group) :
    r.bucketStartMs = bucket := by
  obtain ⟨level, -, hrow⟩ :=
    forall₂_mem_left (bucketFootprint_rows bucketMs tick imbalanceRatio bucket group) r hr
  exact hrow.start

theorem flatMap_single {α β : Type} [DecidableEq α] {f : α → List β} {a : α} : ∀ {l : List α},
    l.Nodup → l.flatMap (fun x => if x = a then f x else []) = if a ∈ l then f a else []
  | [], _ => rfl
  | x :: xs, h => by
    obtain ⟨hx, hxs⟩ := List.nodup_cons.mp h
    rw [List.flatMap_cons, flatMap_single hxs]
    by_cases hxa : x = a
    · subst hxa
      simp [hx]
    · have hax : ¬ a = x := fun h => hxa h.symm
      simp [hxa, hax]

/-- The rows of a bucket. -/
theorem footprintRows_bucket (bucketMs : ℤ) (tick imbalanceRatio : ℚ) (rows : List Trade)
    (bucket : ℤ) :
    (footprintRows bucketMs tick imbalanceRatio rows).filter (fun r => r.bucketStartMs = bucket) =
      bucketFootprint bucketMs tick imbalanceRatio bucket (tradesIn bucketMs rows bucket) := by
  have hparts : ∀ k, (bucketFootprint bucketMs tick imbalanceRatio k
      (tradesIn bucketMs rows k)).filter (fun r => r.bucketStartMs = bucket) =
        if k = bucket then bucketFootprint bucketMs tick imbalanceRatio k (tradesIn bucketMs rows k)
        else [] := by
    intro k
    split
    · next hk => exact List.filter_eq_self.mpr fun r hr => by simp [bucketStart_of_mem hr, hk]
    · next hk => exact List.filter_eq_nil_iff.mpr fun r hr => by simp [bucketStart_of_mem hr, hk]
  have hrows : footprintRows bucketMs tick imbalanceRatio rows =
      (keysOf (bucketOf bucketMs) rows).flatMap fun k =>
        bucketFootprint bucketMs tick imbalanceRatio k (tradesIn bucketMs rows k) := by
    unfold footprintRows groups
    rw [List.flatMap_map]
    rfl
  rw [hrows, List.filter_flatMap]
  simp only [hparts]
  rw [flatMap_single ((pairwise_keysOf _ _).imp ne_of_lt)]
  split
  · rfl
  · next hbucket =>
    have hnone : tradesIn bucketMs rows bucket = [] :=
      List.filter_eq_nil_iff.mpr fun row hrow heq =>
        hbucket (mem_keysOf.mpr ⟨row, hrow, of_decide_eq_true heq⟩)
    rw [hnone]
    rfl

/-- What a footprint is for trades: it has their volumes, and counts the runs of imbalances. -/
structure IsFootprint (bucketMs : ℤ) (tick imbalanceRatio : ℚ) (rows : List Trade)
    (out : List FootprintRow) : Prop where
  buys : ∀ bucket, ((out.filter fun r => r.bucketStartMs = bucket).map FootprintRow.buyVolume).sum =
    volumeOf "buy" (tradesIn bucketMs rows bucket)
  sells : ∀ bucket, ((out.filter fun r => r.bucketStartMs = bucket).map
    FootprintRow.sellVolume).sum = volumeOf "sell" (tradesIn bucketMs rows bucket)
  buyStack : ∀ r ∈ out, IsStackCount tick
    (BuyImbalance tick imbalanceRatio (tradesIn bucketMs rows r.bucketStartMs)) r.priceLevel
    r.stackedBuyLevels
  sellStack : ∀ r ∈ out, IsStackCount tick
    (SellImbalance tick imbalanceRatio (tradesIn bucketMs rows r.bucketStartMs)) r.priceLevel
    r.stackedSellLevels
  /-- A price without trades is in no run. -/
  untraded : ∀ bucket level, tradesAt tick (tradesIn bucketMs rows bucket) level = [] →
    ¬ BuyImbalance tick imbalanceRatio (tradesIn bucketMs rows bucket) level ∧
      ¬ SellImbalance tick imbalanceRatio (tradesIn bucketMs rows bucket) level

/-- **Footprints of trades**, in whatever order they come. -/
theorem footprintFrame_isFootprint (htrades : ∀ row ∈ rows, IsTrade symbol row)
    (hms : 0 < bucketMs) (htick : 0 < tick) (hratio : 0 < imbalanceRatio) :
    ∃ out, footprintFrame symbol bucketMs tick imbalanceRatio rows = .ok out ∧
      IsFootprint bucketMs tick imbalanceRatio rows out := by
  refine ⟨_, footprintFrame_trades htrades hms htick hratio, fun bucket => ?_, fun bucket => ?_,
    fun r hr => ?_, fun r hr => ?_, fun bucket level hnone => ?_⟩
  · rw [footprintRows_bucket]
    exact (bucketFootprint_volume tick imbalanceRatio bucket _).1
  · rw [footprintRows_bucket]
    exact (bucketFootprint_volume tick imbalanceRatio bucket _).2
  · obtain ⟨bucket, -, hmem⟩ := mem_footprintRows.mp hr
    rw [bucketStart_of_mem hmem]
    exact (bucketFootprint_stacks htick hratio hmem).1
  · obtain ⟨bucket, -, hmem⟩ := mem_footprintRows.mp hr
    rw [bucketStart_of_mem hmem]
    exact (bucketFootprint_stacks htick hratio hmem).2
  · have hzero : ∀ side, volumeOf side (tradesAt tick (tradesIn bucketMs rows bucket) level) = 0 := by
      intro side
      rw [hnone]
      rfl
    constructor
    · intro h
      have hle := h.2
      rw [hzero "buy"] at hle
      exact absurd (mul_pos hratio h.1) hle.not_gt
    · intro h
      have hle := h.2
      rw [hzero "sell"] at hle
      exact absurd (mul_pos hratio h.1) hle.not_gt

/-- A trade at a price. -/
def tradeAt (price size : ℚ) (side : String) : Trade :=
  { sampleTrade "a" 20 1 1 sampleId_a tied_early with
    price := some price, size := some size, side := some side }

theorem tradeAt_isTrade {price size : ℚ} (hprice : 0 < price) (hsize : 0 < size)
    (hside : side = "buy" ∨ side = "sell") : IsTrade "BTCUSDT" (tradeAt price size side) where
  record := rfl
  channel := rfl
  stream := rfl
  sided := hside.imp (congrArg some) (congrArg some)
  priced := ⟨price, rfl, hprice⟩
  sized := ⟨size, rfl, hsize⟩

/-- Nothing is traded at 102. -/
def sparseTrades : List Trade :=
  [tradeAt 100 1 "sell", tradeAt 101 4 "buy", tradeAt 103 4 "buy"]

theorem footprintFrame_isFootprint_sparse :
    ∃ out, footprintFrame "BTCUSDT" 1000 1 3 sparseTrades = .ok out ∧
      IsFootprint 1000 1 3 sparseTrades out := by
  refine footprintFrame_isFootprint (fun row hrow => ?_) (by decide) (by decide) (by decide)
  unfold sparseTrades at hrow
  simp only [List.mem_cons, List.not_mem_nil, or_false] at hrow
  rcases hrow with rfl | rfl | rfl
  · exact tradeAt_isTrade (by decide) (by decide) (.inr rfl)
  · exact tradeAt_isTrade (by decide) (by decide) (.inl rfl)
  · exact tradeAt_isTrade (by decide) (by decide) (.inl rfl)

/-- The buys of 103 stand against no sells. -/
example : (footprintRows 1000 1 3 sparseTrades).map FootprintRow.stackedBuyLevels = [0, 1, 0] := by
  decide +kernel

end Greenfield.Features
