import Greenfield.Features.ArchiveAgreement
import Greenfield.Py.IsoOrder

/-!
# Bars of days and of the whole stream

`stitch_archive_cvd` of `src/features/binance_archive_flow.py` joins the bars of closed periods and
adds up their deltas anew. Applied to the bars of the days of a stream, it gives the bars of the
stream (`stitch_days`): a bucket is within one day, and the checks hold.
-/

namespace Greenfield.Features

open Buckets Data Py

/-! ## Stitching -/

structure StitchedBar where
  bar : ArchiveBar
  sourcePeriod : String
  cvdScope : String := "continuous"

/-- `cumsum`, from a sum on. -/
def cumsumFrom : ℚ → List ℚ → List ℚ
  | _, [] => []
  | acc, x :: xs => (acc + x) :: cumsumFrom (acc + x) xs

def cumsum (xs : List ℚ) : List ℚ := cumsumFrom 0 xs

/-- `64.0 * np.finfo(np.float64).eps`. -/
def roundoffUnit : ℚ := 64 / 2 ^ 52

/-- The `cvd` of a period is its own running sum, up to roundoff. -/
def cvdMatches (frame : List ArchiveBar) : Bool :=
  let delta := frame.map ArchiveBar.tradeDelta
  ((frame.map ArchiveBar.cvd).zip ((cumsum delta).zip (cumsum (delta.map abs)))).all
    fun (cvd, expected, bound) => |cvd - expected| ≤ roundoffUnit * max bound 1

structure Stitching where
  frames : List (String × List ArchiveBar) := []
  identity : Option Identity := none
  previousMax : Option ℤ := none

/-- A period. -/
def stitchNext (s : Stitching) (period : String) (source : List ArchiveBar) :
    Except MarketError Stitching := do
  check (source ≠ []) (.valueError ("incomplete historical CVD period: " ++ period))
  let frame := sorted (fun a b => decide (a.timestamp ≤ b.timestamp)) source
  match (frame.map ArchiveBar.identity).dedup with
  | [current] =>
    check (s.identity = none ∨ s.identity = some current)
      (.valueError "CVD periods belong to different streams")
    check ((frame.map ArchiveBar.timestamp).Nodup)
      (.valueError ("duplicate CVD timestamp in period: " ++ period))
    check (∀ previous ∈ s.previousMax, ∀ first ∈ (frame.map ArchiveBar.timestamp).min?, previous < first)
      (.valueError "CVD periods overlap or are out of chronological order")
    check (cvdMatches frame) (.valueError ("period-local CVD evidence mismatch: " ++ period))
    return { frames := s.frames ++ [(period, frame)], identity := some current
             previousMax := (frame.map ArchiveBar.timestamp).max? }
  | _ => .error (.valueError ("period contains multiple stream identities: " ++ period))

/-- `stitch_archive_cvd`. -/
def stitchArchiveCvd (periodFrames : List (String × List ArchiveBar)) :
    Except MarketError (List StitchedBar) := do
  check (periodFrames ≠ []) (.valueError "at least one historical period is required")
  let s ← (sorted (fun a b => decide (a.1 ≤ b.1)) periodFrames).foldlM
    (fun s (period, source) => stitchNext s period source) {}
  let bars := s.frames.flatMap fun (period, frame) => frame.map fun bar => (period, bar)
  return (bars.zip (cumsum (bars.map fun b => b.2.tradeDelta))).map fun (b, cvd) =>
    { bar := { b.2 with cvd }, sourcePeriod := b.1 }

/-! ## Running sums -/

/-- The bars with the running sum of their deltas. -/
def withCvd : ℚ → List ArchiveBar → List ArchiveBar
  | _, [] => []
  | acc, bar :: bars => { bar with cvd := acc + bar.tradeDelta } :: withCvd (acc + bar.tradeDelta) bars

section RunningSum

variable {β : Type} {f : ArchiveBar → β} {bars : List ArchiveBar}

theorem withCvd_cvd (acc : ℚ) (bars : List ArchiveBar) :
    (withCvd acc bars).map ArchiveBar.cvd = cumsumFrom acc (bars.map ArchiveBar.tradeDelta) := by
  induction bars generalizing acc with
  | nil => rfl
  | cons bar bars ih => exact congrArg (List.cons (acc + bar.tradeDelta)) (ih _)

theorem withCvd_map (hf : ∀ bar cvd, f { bar with cvd } = f bar) (acc : ℚ) (bars : List ArchiveBar) :
    (withCvd acc bars).map f = bars.map f := by
  induction bars generalizing acc with
  | nil => rfl
  | cons bar bars ih =>
    rw [withCvd, List.map_cons, List.map_cons, hf, ih]

/-- A running sum that is there already does not count. -/
theorem withCvd_withCvd (acc acc' : ℚ) (bars rest : List ArchiveBar) :
    withCvd acc (withCvd acc' bars ++ rest) = withCvd acc (bars ++ rest) := by
  induction bars generalizing acc acc' with
  | nil => rfl
  | cons bar bars ih =>
    exact congrArg (List.cons { bar with cvd := acc + bar.tradeDelta }) (ih _ _)

theorem withCvd_append (acc : ℚ) (bars bars' : List ArchiveBar) : withCvd acc (bars ++ bars') =
    withCvd acc bars ++ withCvd (acc + (bars.map ArchiveBar.tradeDelta).sum) bars' := by
  induction bars generalizing acc with
  | nil => simp [withCvd]
  | cons bar bars ih =>
    rw [List.cons_append, withCvd, withCvd, ih, List.map_cons, List.sum_cons, add_assoc,
      List.cons_append]

theorem withCvd_flatMap {ι : Type} (days : List ι) (barsOf : ι → List ArchiveBar) (acc : ℚ) :
    withCvd acc (days.flatMap fun day => withCvd 0 (barsOf day)) =
      withCvd acc (days.flatMap barsOf) := by
  induction days generalizing acc with
  | nil => rfl
  | cons day days ih =>
    rw [List.flatMap_cons, List.flatMap_cons, withCvd_withCvd, withCvd_append, withCvd_append, ih]

/-- The running sum of a concatenation. -/
theorem zip_cumsum (acc : ℚ) (bars : List (String × ArchiveBar)) :
    ((bars.zip (cumsumFrom acc (bars.map fun b => b.2.tradeDelta))).map fun x =>
      ({ x.1.2 with cvd := x.2 } : ArchiveBar)) = withCvd acc (bars.map Prod.snd) := by
  induction bars generalizing acc with
  | nil => rfl
  | cons bar bars ih => exact congrArg (_ :: ·) (ih _)

theorem getElem_withCvd (acc : ℚ) (bars : List ArchiveBar) (i : ℕ) (h : i < (withCvd acc bars).length)
    (h' : i < bars.length) : (withCvd acc bars)[i] =
      { bars[i] with cvd := acc + ((bars.take (i + 1)).map ArchiveBar.tradeDelta).sum } := by
  induction bars generalizing acc i with
  | nil => cases h'
  | cons bar bars ih =>
    cases i with
    | zero => simp [withCvd]
    | succ i =>
      simp only [withCvd, List.getElem_cons_succ, List.take_succ_cons, List.map_cons, List.sum_cons]
      rw [ih, add_assoc]

theorem length_withCvd (acc : ℚ) (bars : List ArchiveBar) :
    (withCvd acc bars).length = bars.length := by
  induction bars generalizing acc with
  | nil => rfl
  | cons bar bars ih => exact congrArg (· + 1) (ih _)

/-- The running delta of the bars of one stream. -/
theorem cumulate_eq_withCvd (identity : Identity) (hone : ∀ bar ∈ bars, bar.identity = identity) :
    cumulate bars = withCvd 0 bars := by
  have hlength : (cumulate bars).length = bars.length := by simp [cumulate]
  refine List.ext_getElem (hlength.trans (length_withCvd 0 bars).symm) fun i h h' => ?_
  have hi : i < bars.length := hlength ▸ h
  have hget := RecordedTrades.get_cumulate hone i h hi
  rw [List.get_eq_getElem] at hget
  rw [hget, getElem_withCvd 0 bars i h' hi, zero_add]

/-- The evidence of a running sum. -/
theorem cvdMatches_withCvd (bars : List ArchiveBar) : cvdMatches (withCvd 0 bars) = true := by
  have hall : ∀ xs bounds : List ℚ, ((xs.zip (xs.zip bounds)).all fun (cvd, expected, bound) =>
      decide (|cvd - expected| ≤ roundoffUnit * max bound 1)) = true := by
    intro xs
    induction xs with
    | nil => intro _; rfl
    | cons x xs ih =>
      intro bounds
      cases bounds with
      | nil => rfl
      | cons bound bounds =>
        have hbound : |x - x| ≤ roundoffUnit * max bound 1 := by
          rw [sub_self, abs_zero]
          exact mul_nonneg (by norm_num [roundoffUnit]) (le_max_of_le_right zero_le_one)
        rw [List.zip_cons_cons, List.zip_cons_cons, List.all_cons, ih bounds]
        simpa using hbound
  unfold cvdMatches
  rw [withCvd_cvd, withCvd_map fun _ _ => rfl]
  exact hall _ _

end RunningSum

/-! ## Days -/

def archiveDayNs : ℤ := 86400000000000

/-- The UTC day of a trade. -/
def ArchiveTrade.day (row : ArchiveTrade) : ℤ := row.timestamp / archiveDayNs

/-- A bucket is within one day. -/
theorem ArchiveTrade.floor_day {frequency : ℤ} (hpos : 0 < frequency) (hdiv : frequency ∣ archiveDayNs)
    (row : ArchiveTrade) : row.day * archiveDayNs ≤ row.floor frequency ∧
      row.floor frequency + frequency ≤ (row.day + 1) * archiveDayNs := by
  obtain ⟨m, hm⟩ := hdiv
  have hday : (0 : ℤ) < archiveDayNs := by decide
  have hlower : row.day * m ≤ row.timestamp / frequency := by
    refine (Int.le_ediv_iff_mul_le hpos).mpr ?_
    rw [mul_assoc, mul_comm m, ← hm]
    exact Int.ediv_mul_le _ hday.ne'
  have hupper : row.timestamp / frequency < (row.day + 1) * m := by
    refine (Int.ediv_lt_iff_lt_mul hpos).mpr ?_
    rw [mul_assoc, mul_comm m, ← hm]
    exact Int.lt_ediv_add_one_mul_self _ hday
  unfold ArchiveTrade.floor
  constructor
  · calc row.day * archiveDayNs = row.day * m * frequency := by rw [hm]; ring
      _ ≤ row.timestamp / frequency * frequency := Int.mul_le_mul_of_nonneg_right hlower hpos.le
  · calc row.timestamp / frequency * frequency + frequency
        = (row.timestamp / frequency + 1) * frequency := by ring
      _ ≤ (row.day + 1) * m * frequency := Int.mul_le_mul_of_nonneg_right hupper hpos.le
      _ = (row.day + 1) * archiveDayNs := by rw [hm]; ring

/-- The bars of sorted trades, without their `cvd`. -/
def rawBars (frequency : ℤ) (value : List ArchiveTrade) : List ArchiveBar :=
  (groups (fun row => toLex (row.identity, row.floor frequency)) value).map fun (key, group) =>
    archiveBar frequency key group

/-- The trades of a day. -/
def tradesOf (day : ℤ) (rows : List ArchiveTrade) : List ArchiveTrade :=
  rows.filter fun row => decide (row.day = day)

section Days

variable {frequency : ℤ} {identity : Identity} {value : List ArchiveTrade}

/-- The bars are those of the days. -/
theorem rawBars_days (hpos : 0 < frequency) (hdiv : frequency ∣ archiveDayNs)
    (hone : ∀ row ∈ value, row.identity = identity) : rawBars frequency value =
      (keysOf ArchiveTrade.day value).flatMap fun day => rawBars frequency (tradesOf day value) := by
  unfold rawBars tradesOf
  rw [groups_flatMap ArchiveTrade.day, List.map_flatMap]
  intro x hx y hy hlt
  have hx' := (x.floor_day hpos hdiv).2
  have hy' := (y.floor_day hpos hdiv).1
  have hdays : (x.day + 1) * archiveDayNs ≤ y.day * archiveDayNs :=
    Int.mul_le_mul_of_nonneg_right hlt (by decide)
  exact Prod.Lex.toLex_lt_toLex.mpr (.inr ⟨(hone x hx).trans (hone y hy).symm, by omega⟩)

/-- What the bars of a day are. -/
structure DayBars (identity : Identity) (day : ℤ) (bars : List ArchiveBar) : Prop where
  nonempty : bars ≠ []
  one : ∀ bar ∈ bars, bar.identity = identity
  ascending : bars.Pairwise fun a b => a.timestamp < b.timestamp
  within : ∀ bar ∈ bars, day * archiveDayNs < bar.timestamp ∧
    bar.timestamp ≤ (day + 1) * archiveDayNs

theorem dayBars (hpos : 0 < frequency) (hdiv : frequency ∣ archiveDayNs)
    (hone : ∀ row ∈ value, row.identity = identity) {day : ℤ}
    (hday : day ∈ keysOf ArchiveTrade.day value) :
    DayBars identity day (rawBars frequency (tradesOf day value)) := by
  have hrows : ∀ row ∈ tradesOf day value, row ∈ value ∧ row.day = day := by
    intro row hrow
    simpa [tradesOf] using hrow
  have hkeys : ∀ key ∈ keysOf (fun row : ArchiveTrade => toLex (row.identity, row.floor frequency))
      (tradesOf day value), (ofLex key).1 = identity ∧
        day * archiveDayNs ≤ (ofLex key).2 ∧ (ofLex key).2 + frequency ≤ (day + 1) * archiveDayNs := by
    intro key hkey
    obtain ⟨row, hrow, rfl⟩ := mem_keysOf.mp hkey
    obtain ⟨hmem, rfl⟩ := hrows row hrow
    exact ⟨hone row hmem, row.floor_day hpos hdiv⟩
  have hbars : ∀ bar ∈ rawBars frequency (tradesOf day value), ∃ key ∈ keysOf
      (fun row : ArchiveTrade => toLex (row.identity, row.floor frequency)) (tradesOf day value),
        bar.identity = (ofLex key).1 ∧ bar.timestamp = (ofLex key).2 + frequency := by
    intro bar hbar
    obtain ⟨⟨key, group⟩, hgroup, rfl⟩ := List.mem_map.mp hbar
    exact ⟨key, mem_keysOf.mpr (mem_groups.mp hgroup).1, rfl, rfl⟩
  refine ⟨?_, fun bar hbar => ?_, ?_, fun bar hbar => ?_⟩
  · obtain ⟨row, hrow, hrowDay⟩ := mem_keysOf.mp hday
    have hmem : row ∈ tradesOf day value := List.mem_filter.mpr ⟨hrow, decide_eq_true hrowDay⟩
    exact List.ne_nil_of_mem (List.mem_map_of_mem (mem_groups.mpr ⟨⟨row, hmem, rfl⟩, rfl⟩))
  · obtain ⟨key, hkey, hidentity, -⟩ := hbars bar hbar
    exact hidentity.trans (hkeys key hkey).1
  · unfold rawBars groups
    rw [List.map_map, List.pairwise_map]
    refine (List.Pairwise.and_mem.mp (pairwise_keysOf _ _)).imp fun {a b} h => ?_
    obtain ⟨ha, hb, hlt⟩ := h
    have hfloor : (ofLex a).2 < (ofLex b).2 := by
      rcases Prod.Lex.lt_iff.mp hlt with h | h
      · rw [(hkeys a ha).1, (hkeys b hb).1] at h
        exact absurd h (lt_irrefl _)
      · exact h.2
    show (ofLex a).2 + frequency < (ofLex b).2 + frequency
    omega
  · obtain ⟨key, hkey, -, htime⟩ := hbars bar hbar
    obtain ⟨-, hlower, hupper⟩ := hkeys key hkey
    rw [htime]
    omega

end Days

/-! ## Stitching days -/

section Stitch

variable {identity : Identity} {day : ℤ} {bars : List ArchiveBar}

/-- A state between days. -/
structure Stitched (identity : Identity) (before : ℤ) (s : Stitching) : Prop where
  one : s.identity = none ∨ s.identity = some identity
  before : ∀ previous ∈ s.previousMax, previous ≤ before * archiveDayNs

/-- **A day is stitched.** -/
theorem stitchNext_day {s : Stitching} (h : Stitched identity day s) (hbars : DayBars identity day bars)
    (period : String) : ∃ s', stitchNext s period (withCvd 0 bars) = .ok s' ∧
      s'.frames = s.frames ++ [(period, withCvd 0 bars)] ∧ Stitched identity (day + 1) s' := by
  have htimes : (withCvd 0 bars).map ArchiveBar.timestamp = bars.map ArchiveBar.timestamp :=
    withCvd_map (fun _ _ => rfl) 0 bars
  have hidentities : (withCvd 0 bars).map ArchiveBar.identity = bars.map ArchiveBar.identity :=
    withCvd_map (fun _ _ => rfl) 0 bars
  have hascending : (bars.map ArchiveBar.timestamp).Pairwise (· < ·) :=
    List.pairwise_map.mpr hbars.ascending
  have hsorted : sorted (fun a b : ArchiveBar => decide (a.timestamp ≤ b.timestamp)) (withCvd 0 bars) =
      withCvd 0 bars := by
    refine sorted_eq_self ?_
    have hpairwise : (withCvd 0 bars).Pairwise fun a b => a.timestamp < b.timestamp := by
      rw [← htimes] at hascending
      exact List.pairwise_map.mp hascending
    exact hpairwise.imp fun hlt => decide_eq_true hlt.le
  have hne : withCvd 0 bars ≠ [] := by
    intro hnil
    have hlength := length_withCvd 0 bars
    rw [hnil] at hlength
    exact hbars.nonempty (List.length_eq_zero_iff.mp hlength.symm)
  have hdedup : (bars.map ArchiveBar.identity).dedup = [identity] := by
    have hall : ∀ x ∈ bars.map ArchiveBar.identity, x = identity := by
      intro x hx
      obtain ⟨bar, hbar, rfl⟩ := List.mem_map.mp hx
      exact hbars.one bar hbar
    have hlength : (bars.map ArchiveBar.identity).length ≠ 0 := by
      simpa using hbars.nonempty
    rw [List.eq_replicate_of_mem hall, List.replicate_dedup hlength]
  have hwithin : ∀ t ∈ bars.map ArchiveBar.timestamp,
      day * archiveDayNs < t ∧ t ≤ (day + 1) * archiveDayNs := by
    intro t ht
    obtain ⟨bar, hbar, rfl⟩ := List.mem_map.mp ht
    exact hbars.within bar hbar
  have hgap : ∀ previous ∈ s.previousMax, ∀ first ∈ (bars.map ArchiveBar.timestamp).min?,
      previous < first := by
    intro previous hprevious first hfirst
    have hlower := (hwithin first (List.min?_mem hfirst)).1
    have hbefore := h.before previous hprevious
    omega
  unfold stitchNext
  rw [hsorted]
  dsimp only
  rw [hidentities, hdedup, htimes]
  refine ⟨_, bind_eq_ok.mpr ⟨(), check_eq_ok.mpr (by simpa using hne), bind_eq_ok.mpr ⟨(),
    check_eq_ok.mpr (by simpa using h.one), bind_eq_ok.mpr ⟨(), check_eq_ok.mpr (decide_eq_true
      (hascending.imp ne_of_lt)), bind_eq_ok.mpr ⟨(), check_eq_ok.mpr (by simpa using hgap),
        bind_eq_ok.mpr ⟨(), check_eq_ok.mpr (cvdMatches_withCvd bars), rfl⟩⟩⟩⟩⟩, rfl,
          .inr rfl, fun previous hprevious => ?_⟩
  exact (hwithin previous (List.max?_mem hprevious)).2

variable (identity) in
/-- **The days are stitched**, one after the other. -/
theorem stitch_fold (barsOf : ℤ → List ArchiveBar) : ∀ (days : List ℤ) (s : Stitching),
    days.Pairwise (· < ·) → (∀ day ∈ days, Stitched identity day s) →
    (∀ day ∈ days, DayBars identity day (barsOf day)) →
    ∃ s', (days.map fun day => (dateIsoformat day, withCvd 0 (barsOf day))).foldlM
        (fun s (period, source) => stitchNext s period source) s = .ok s' ∧
      s'.frames = s.frames ++ days.map fun day => (dateIsoformat day, withCvd 0 (barsOf day))
  | [], s, _, _, _ => ⟨s, rfl, (List.append_nil _).symm⟩
  | day :: days, s, hascending, hs, hbars => by
    obtain ⟨hday, hrest⟩ := List.pairwise_cons.mp hascending
    obtain ⟨s₁, hok, hframes, hs₁⟩ := stitchNext_day (hs day List.mem_cons_self)
      (hbars day List.mem_cons_self) (dateIsoformat day)
    have hlater : ∀ later ∈ days, Stitched identity later s₁ := by
      intro later hlater
      refine ⟨hs₁.one, fun previous hprevious => (hs₁.before previous hprevious).trans ?_⟩
      exact Int.mul_le_mul_of_nonneg_right (hday later hlater) (by decide)
    obtain ⟨s', hok', hframes'⟩ := stitch_fold barsOf days s₁ hrest hlater
      fun later hlater => hbars later (List.mem_cons_of_mem _ hlater)
    refine ⟨s', ?_, ?_⟩
    · rw [List.map_cons, List.foldlM_cons]
      exact bind_eq_ok.mpr ⟨s₁, hok, hok'⟩
    · rw [hframes', hframes, List.append_assoc, List.map_cons]
      rfl

end Stitch

/-! ## The whole stream -/

/-- The bars of each day, by the text of its date. -/
def dayFrames (frequency : ℤ) (frame : List ArchiveTrade) :
    Except MarketError (List (String × List ArchiveBar)) :=
  (keysOf ArchiveTrade.day frame).mapM fun day => do
    let bars ← archiveTradeBars frequency (tradesOf day frame)
    return (dateIsoformat day, bars)

/-- The range of `pd.Timestamp`. -/
def InRange (row : ArchiveTrade) : Prop := -2 ^ 63 ≤ row.timestamp ∧ row.timestamp < 2 ^ 63

theorem archiveLe_total (a b : ArchiveTrade) : archiveLe a b = true ∨ archiveLe b a = true := by
  simp only [archiveLe, decide_eq_true_eq]
  omega

theorem archiveLe_trans (a b c : ArchiveTrade) (hab : archiveLe a b = true)
    (hbc : archiveLe b c = true) : archiveLe a c = true := by
  simp only [archiveLe, decide_eq_true_eq] at *
  omega

theorem year_mono {a b : ℤ} (h : a ≤ b) : (dateOfDays a).year ≤ (dateOfDays b).year := by
  rcases h.eq_or_lt with rfl | hlt
  · exact le_rfl
  · rcases dateOfDays_lt hlt with hyear | hyear
    · exact hyear.le
    · exact hyear.1.le

/-- The texts of the dates are in the order of the days. -/
theorem dates_lt {a b : ArchiveTrade} (ha : InRange a) (hb : InRange b) (h : a.day < b.day) :
    dateIsoformat a.day < dateIsoformat b.day := by
  have hlower : (-106752 : ℤ) ≤ a.day := by
    have := ha.1
    unfold ArchiveTrade.day archiveDayNs
    omega
  have hupper : b.day ≤ 106752 := by
    have := hb.2
    unfold ArchiveTrade.day archiveDayNs
    omega
  refine dateIsoformat_lt ?_ ?_ h
  · exact le_trans (by decide) (year_mono hlower)
  · exact le_trans (year_mono hupper) (by decide)

section Main

variable {frequency : ℤ} {frame : List ArchiveTrade} {bars : List ArchiveBar} {identity : Identity}

theorem keysOf_sorted (frame : List ArchiveTrade) :
    keysOf ArchiveTrade.day (sorted archiveLe frame) = keysOf ArchiveTrade.day frame := by
  refine eq_of_ascending (pairwise_keysOf _ _) (pairwise_keysOf _ _) fun k => ?_
  simp only [mem_keysOf, mem_sorted]

variable (frame) in
/-- Trades that are accepted. -/
theorem archiveTradeBars_ok (hone : ∀ row ∈ frame, row.identity = identity)
    (hvalid : validatedTrades frequency frame = .ok (sorted archiveLe frame)) :
    archiveTradeBars frequency frame = .ok (withCvd 0 (rawBars frequency (sorted archiveLe frame))) := by
  unfold archiveTradeBars
  rw [hvalid]
  show Except.ok (cumulate (rawBars frequency (sorted archiveLe frame))) = _
  refine congrArg Except.ok (cumulate_eq_withCvd identity fun bar hbar => ?_)
  obtain ⟨⟨key, group⟩, hgroup, rfl⟩ := List.mem_map.mp hbar
  obtain ⟨⟨row, hrow, rfl⟩, -⟩ := mem_groups.mp hgroup
  exact hone row (mem_sorted.mp hrow)

/-- What is accepted of the whole stream is accepted of its days. -/
theorem validatedTrades_ok (h : archiveTradeBars frequency frame = .ok bars) :
    0 < frequency ∧ frame ≠ [] ∧ validatedTrades frequency frame = .ok (sorted archiveLe frame) ∧
      ∀ day ∈ keysOf ArchiveTrade.day frame, validatedTrades frequency (tradesOf day frame) =
        .ok (sorted archiveLe (tradesOf day frame)) := by
  obtain ⟨value, hvalue, -⟩ := bind_eq_ok.mp h
  have hvalid := hvalue
  unfold validatedTrades at hvalue
  obtain ⟨_, hfrequency, hvalue⟩ := bind_eq_ok.mp hvalue
  obtain ⟨_, hpositive, hvalue⟩ := bind_eq_ok.mp hvalue
  obtain ⟨_, hdataset, hvalue⟩ := bind_eq_ok.mp hvalue
  cases hvalue
  rw [check_eq_ok, decide_eq_true_eq] at hpositive hdataset
  refine ⟨of_decide_eq_true (check_eq_ok.mp hfrequency), hpositive.1, hvalid, fun day hday => ?_⟩
  obtain ⟨row, hrow, hrowDay⟩ := mem_keysOf.mp hday
  have hsub : ∀ row ∈ tradesOf day frame, row ∈ frame := fun row h => (List.mem_filter.mp h).1
  have hrows : tradesOf day frame ≠ [] :=
    List.ne_nil_of_mem (List.mem_filter.mpr ⟨hrow, decide_eq_true hrowDay⟩)
  exact bind_eq_ok.mpr ⟨(), hfrequency, bind_eq_ok.mpr ⟨(), check_eq_ok.mpr (decide_eq_true
    ⟨hrows, fun row h => hpositive.2 row (hsub row h)⟩), bind_eq_ok.mpr ⟨(), check_eq_ok.mpr
      (decide_eq_true fun row h => hdataset row (hsub row h)), rfl⟩⟩⟩

/-- **Daily bars stitch to the whole stream.** The bars of the days of a stream that is accepted, in
any order, are stitched to the bars of the stream, if the frequency divides a day. -/
theorem stitch_days (hdiv : frequency ∣ archiveDayNs) (hone : ∀ row ∈ frame, row.identity = identity)
    (hrange : ∀ row ∈ frame, InRange row) (hbars : archiveTradeBars frequency frame = .ok bars) :
    ∃ periodFrames, dayFrames frequency frame = .ok periodFrames ∧
      ∀ frames, frames.Perm periodFrames →
        ∃ stitched, stitchArchiveCvd frames = .ok stitched ∧ stitched.map StitchedBar.bar = bars := by
  obtain ⟨hpos, hne, hvalid, hdays⟩ := validatedTrades_ok hbars
  have hone' : ∀ row ∈ sorted archiveLe frame, row.identity = identity :=
    fun row hrow => hone row (mem_sorted.mp hrow)
  set barsOf : ℤ → List ArchiveBar := fun day =>
    rawBars frequency (tradesOf day (sorted archiveLe frame)) with hbarsOf
  set days := keysOf ArchiveTrade.day frame with hkeys
  have hframes : dayFrames frequency frame =
      .ok (days.map fun day => (dateIsoformat day, withCvd 0 (barsOf day))) := by
    obtain ⟨frames, hok, hmap⟩ := mapM_ok (g := id)
      (f := fun day => do
        let bars ← archiveTradeBars frequency (tradesOf day frame)
        return (dateIsoformat day, bars))
      (h := fun day => (dateIsoformat day, withCvd 0 (barsOf day))) (l := days) fun day hday => by
        have hbar := archiveTradeBars_ok (tradesOf day frame)
          (fun row h => hone row (List.mem_filter.mp h).1) (hdays day hday)
        have hfilter : sorted archiveLe (tradesOf day frame) = tradesOf day (sorted archiveLe frame) :=
          (filter_sorted archiveLe_total archiveLe_trans _ _).symm
        rw [hfilter] at hbar
        exact ⟨_, bind_eq_ok.mpr ⟨_, hbar, rfl⟩, rfl⟩
    rw [List.map_id] at hmap
    rw [← hmap]
    exact hok
  refine ⟨_, hframes, fun frames hperm => ?_⟩
  have hascending : (days.map fun day => (dateIsoformat day, withCvd 0 (barsOf day))).Pairwise
      fun a b => a.1 < b.1 := by
    rw [List.pairwise_map]
    refine (List.Pairwise.and_mem.mp (pairwise_keysOf _ _)).imp fun {a b} h => ?_
    obtain ⟨ha, hb, hlt⟩ := h
    obtain ⟨x, hx, rfl⟩ := mem_keysOf.mp ha
    obtain ⟨y, hy, rfl⟩ := mem_keysOf.mp hb
    exact dates_lt (hrange x hx) (hrange y hy) hlt
  have hsorted : sorted (fun a b => decide (a.1 ≤ b.1)) frames =
      days.map fun day => (dateIsoformat day, withCvd 0 (barsOf day)) := by
    refine sorted_eq_of_perm (fun a b => by simpa using le_total a.1 b.1) (fun a b c hab hbc => ?_)
      hperm (hascending.imp fun h => decide_eq_true h.le) fun a ha b hb hab hba => ?_
    · simp only [decide_eq_true_eq] at hab hbc ⊢
      exact hab.trans hbc
    · simp only [decide_eq_true_eq] at hab hba
      have hnodup : ((days.map fun day => (dateIsoformat day, withCvd 0 (barsOf day))).map
          Prod.fst).Nodup := List.pairwise_map.mpr (hascending.imp fun h => h.ne)
      exact List.inj_on_of_nodup_map hnodup ha hb (le_antisymm hab hba)
  have hdaysNe : days ≠ [] := by
    obtain ⟨row, hrow⟩ := List.exists_mem_of_ne_nil _ hne
    exact List.ne_nil_of_mem (mem_keysOf.mpr ⟨row, hrow, rfl⟩)
  obtain ⟨s', hfold, hs'⟩ := stitch_fold identity barsOf days {}
    (pairwise_keysOf _ _) (fun _ _ => ⟨.inl rfl, nofun⟩) fun day hday =>
      dayBars hpos hdiv hone' (by rwa [keysOf_sorted])
  refine ⟨_, bind_eq_ok.mpr ⟨(), check_eq_ok.mpr (decide_eq_true ?_), bind_eq_ok.mpr ⟨s', ?_, rfl⟩⟩, ?_⟩
  · rintro rfl
    exact hdaysNe (List.map_eq_nil_iff.mp hperm.symm.eq_nil)
  · rw [hsorted]
    exact hfold
  · have hwhole := archiveTradeBars_ok frame hone hvalid
    rw [hbars] at hwhole
    rw [Except.ok.inj hwhole, rawBars_days hpos hdiv hone', keysOf_sorted, ← withCvd_flatMap, hs',
      List.map_map]
    refine (zip_cumsum 0 _).trans (congrArg (withCvd 0) ?_)
    simp only [List.nil_append, List.flatMap_map, List.map_flatMap, List.map_map,
      Function.comp_def, List.map_id']
    rfl

end Main

/-- A trade and one on the day after it. -/
def twoDays : List ArchiveTrade :=
  [{ sampleArchiveTrade with timestamp := 20000000 + archiveDayNs, tradeId := 2 }, sampleArchiveTrade]

theorem stitch_days_sample : ∃ periodFrames, dayFrames 60000000000 twoDays = .ok periodFrames ∧
    ∀ frames, frames.Perm periodFrames → ∃ stitched, stitchArchiveCvd frames = .ok stitched ∧
      stitched.map StitchedBar.bar =
        withCvd 0 (rawBars 60000000000 (sorted archiveLe twoDays)) := by
  have hone : ∀ row ∈ twoDays, row.identity = sampleArchiveTrade.identity := by
    simp [twoDays, ArchiveTrade.identity]
  have hrange : ∀ row ∈ twoDays, InRange row := by
    simp [twoDays, sampleArchiveTrade, InRange, archiveDayNs]
  exact stitch_days ⟨1440, rfl⟩ hone hrange (archiveTradeBars_ok twoDays hone rfl)

end Greenfield.Features
