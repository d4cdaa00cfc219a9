import Greenfield.Features.TradeStreams

/-!
# What a row of a feature may know

A row should not be dated before one of its trades was received. The time of a row takes the
receive times of one bucket into account, while the row also has trades of other ones: those that
the running delta, the bucket before, the running VWAP or the trailing window bring in. So each
feature is in time exactly when no such trade is received after the bucket is over and after all
trades of it (`causal_iff`).
-/

namespace Greenfield.Features

open Buckets Data

variable {symbol : String}

/-- What the features are computed with. -/
structure FlowSettings where
  bucketMs : ℤ
  tick : ℚ
  minSweepLevels : ℕ
  anchorTsMs : Option ℤ
  imbalanceRatio : ℚ
  windowBuckets : ℕ
  valueAreaFraction : ℚ
  bucket : 0 < bucketMs
  priced : 0 < tick
  sweep : 2 ≤ minSweepLevels
  ratio : 0 < imbalanceRatio
  window : 0 < windowBuckets
  fraction : 0 < valueAreaFraction ∧ valueAreaFraction ≤ 1

/-- Rows with their times, none before one of the trades that enter the row is received. -/
def InTime (trades : List Trade) (stamps : List ℤ) (enters : List (Trade → Prop)) : Prop :=
  List.Forall₂ (fun stamp enters => ∀ t ∈ trades, enters t → t.receiveTsNs ≤ stamp) stamps enters

/-- A trade that is received after `finish` and after all trades of a key. -/
def LateFor (key : Trade → ℤ) (finish : ℤ → ℤ) (trades : List Trade) (t : Trade) (k : ℤ) : Prop :=
  finish k < t.receiveTsNs ∧ ∀ u ∈ trades, key u = k → u.receiveTsNs < t.receiveTsNs

instance (key : Trade → ℤ) (finish : ℤ → ℤ) (trades : List Trade) (t : Trade) (k : ℤ) :
    Decidable (LateFor key finish trades t k) := inferInstanceAs (Decidable (_ ∧ _))

/-- A trade is not late for its own key. -/
theorem not_late_self (key : Trade → ℤ) {finish : ℤ → ℤ} {trades : List Trade} {t : Trade}
    (ht : t ∈ trades) : ¬ LateFor key finish trades t (key t) :=
  fun h => lt_irrefl _ (h.2 t ht rfl)

/-- Rows that are dated by the trades of one key each. -/
theorem inTime_iff {ι : Type} (key : Trade → ℤ) (finish : ℤ → ℤ) (trades : List Trade) (l : List ι)
    (k : ι → ℤ) (enters : ι → Trade → Prop) :
    InTime trades (l.map fun i => max (finish (k i))
        (maxReceive (trades.filter fun row => decide (key row = k i)))) (l.map enters) ↔
      ∀ i ∈ l, ∀ t ∈ trades, enters i t → ¬ LateFor key finish trades t (k i) := by
  unfold InTime LateFor
  rw [List.forall₂_map_left_iff, List.forall₂_map_right_iff, List.forall₂_same]
  refine forall₂_congr fun i _ => forall₃_congr fun t _ _ => ?_
  rw [le_stamp]
  refine not_congr (and_congr_right fun _ => ?_)
  simp only [List.mem_filter, decide_eq_true_eq, and_imp]

/-! ## The four features -/

section

variable (stream : TradeStream symbol) (settings : FlowSettings)

/-- The running delta has the trades of all buckets up to the row's. -/
def FlowInTime : Prop :=
  ∃ out, tradeFlowRows symbol settings.bucketMs stream.rows = .ok out ∧
    InTime stream.rows (out.map TradeFlowRow.timestamp)
      ((keysOf (bucketOf settings.bucketMs) stream.rows).map fun bucket t =>
        bucketOf settings.bucketMs t ≤ bucket)

/-- A bucket is compared with the one before it. -/
def InteractionInTime : Prop :=
  ∃ out, interactionRows symbol settings.bucketMs settings.tick settings.minSweepLevels
      stream.rows = .ok out ∧
    InTime stream.rows (out.map InteractionRow.timestamp)
      ((keysOf (bucketOf settings.bucketMs) stream.rows).map fun bucket t =>
        bucketOf settings.bucketMs t = bucket ∨
          keyBefore (bucketOf settings.bucketMs) stream.rows bucket =
            some (bucketOf settings.bucketMs t))

/-- The running VWAP has the trades from the anchor up to the row's time. -/
def VwapInTime : Prop :=
  ∃ out, anchoredVwapFrame symbol settings.anchorTsMs stream.rows = .ok out ∧
    InTime (anchored settings.anchorTsMs stream.rows) (out.map VwapRow.timestamp)
      ((keysOf (fun row : Trade => row.eventTsMs)
        (anchored settings.anchorTsMs stream.rows)).map fun eventTsMs t => t.eventTsMs ≤ eventTsMs)

/-- A rolling profile has the trades of its window. -/
def ProfileInTime : Prop :=
  ∃ footprint out, footprintFrame symbol settings.bucketMs settings.tick settings.imbalanceRatio
      stream.rows = .ok footprint ∧
    rollingVolumeProfileFrame footprint settings.windowBuckets settings.valueAreaFraction =
      .ok out ∧
    InTime stream.rows (out.map ProfileRow.timestamp)
      ((trailingWindows settings.windowBuckets
        (keysOf (bucketOf settings.bucketMs) stream.rows)).map fun p t =>
          bucketOf settings.bucketMs t ∈ p.1)

/-- No trade of an earlier bucket is late for a bucket. -/
def FlowNeverLate : Prop :=
  ∀ t ∈ stream.rows, ∀ u ∈ stream.rows,
    bucketOf settings.bucketMs t < bucketOf settings.bucketMs u →
      ¬ LateFor (bucketOf settings.bucketMs) (bucketEnd settings.bucketMs) stream.rows t
        (bucketOf settings.bucketMs u)

/-- No trade of the bucket before it is late for a bucket. -/
def InteractionNeverLate : Prop :=
  ∀ t ∈ stream.rows, ∀ u ∈ stream.rows,
    keyBefore (bucketOf settings.bucketMs) stream.rows (bucketOf settings.bucketMs u) =
        some (bucketOf settings.bucketMs t) →
      ¬ LateFor (bucketOf settings.bucketMs) (bucketEnd settings.bucketMs) stream.rows t
        (bucketOf settings.bucketMs u)

/-- No trade of an earlier time of the exchange is late for a time. -/
def VwapNeverLate : Prop :=
  ∀ t ∈ anchored settings.anchorTsMs stream.rows, ∀ u ∈ anchored settings.anchorTsMs stream.rows,
    t.eventTsMs < u.eventTsMs →
      ¬ LateFor (fun row => row.eventTsMs) (fun eventTsMs => eventTsMs * 1000000)
        (anchored settings.anchorTsMs stream.rows) t u.eventTsMs

/-- No trade of a window is late for its last bucket. -/
def ProfileNeverLate : Prop :=
  ∀ p ∈ trailingWindows settings.windowBuckets (keysOf (bucketOf settings.bucketMs) stream.rows),
    ∀ t ∈ stream.rows, bucketOf settings.bucketMs t ∈ p.1 →
      ¬ LateFor (bucketOf settings.bucketMs) (bucketEnd settings.bucketMs) stream.rows t p.2

theorem flow_inTime_iff : FlowInTime stream settings ↔ FlowNeverLate stream settings := by
  unfold FlowInTime FlowNeverLate
  rw [tradeFlowRows_eq stream settings.bucket]
  simp only [Except.ok.injEq, exists_eq_left', List.map_map]
  refine (inTime_iff (bucketOf settings.bucketMs) (bucketEnd settings.bucketMs) stream.rows
    (keysOf (bucketOf settings.bucketMs) stream.rows) id _).trans ?_
  constructor
  · intro h t ht u hu hlt
    exact h _ (mem_keysOf.mpr ⟨u, hu, rfl⟩) t ht hlt.le
  · intro h k hk t ht hle
    obtain ⟨u, hu, rfl⟩ := mem_keysOf.mp hk
    rcases lt_or_eq_of_le hle with hlt | heq
    · exact h t ht u hu hlt
    · rw [← heq]
      exact not_late_self _ ht

theorem interaction_inTime_iff : InteractionInTime stream settings ↔ InteractionNeverLate stream settings := by
  unfold InteractionInTime InteractionNeverLate
  rw [interactionRows_eq stream settings.bucket settings.priced settings.sweep]
  simp only [Except.ok.injEq, exists_eq_left', List.map_map]
  refine (inTime_iff (bucketOf settings.bucketMs) (bucketEnd settings.bucketMs) stream.rows
    (keysOf (bucketOf settings.bucketMs) stream.rows) id _).trans ?_
  constructor
  · intro h t ht u hu hbefore
    exact h _ (mem_keysOf.mpr ⟨u, hu, rfl⟩) t ht (.inr hbefore)
  · intro h k hk t ht henters
    obtain ⟨u, hu, rfl⟩ := mem_keysOf.mp hk
    rcases henters with heq | hbefore
    · rw [← heq]
      exact not_late_self _ ht
    · exact h t ht u hu hbefore

theorem vwap_inTime_iff : VwapInTime stream settings ↔ VwapNeverLate stream settings := by
  unfold VwapInTime VwapNeverLate
  rw [anchoredVwapFrame_eq stream]
  simp only [Except.ok.injEq, exists_eq_left', List.map_map]
  refine (inTime_iff (fun row => row.eventTsMs) (fun eventTsMs => eventTsMs * 1000000)
    (anchored settings.anchorTsMs stream.rows)
    (keysOf (fun row : Trade => row.eventTsMs) (anchored settings.anchorTsMs stream.rows))
    id _).trans ?_
  constructor
  · intro h t ht u hu hlt
    exact h _ (mem_keysOf.mpr ⟨u, hu, rfl⟩) t ht hlt.le
  · intro h k hk t ht hle
    obtain ⟨u, hu, rfl⟩ := mem_keysOf.mp hk
    rcases lt_or_eq_of_le hle with hlt | heq
    · exact h t ht u hu hlt
    · rw [id, ← heq]
      exact not_late_self (fun row : Trade => row.eventTsMs) ht

theorem profile_inTime_iff : ProfileInTime stream settings ↔ ProfileNeverLate stream settings := by
  obtain ⟨out, hout, hstamps⟩ := rollingVolumeProfileFrame_eq settings.bucketMs stream
    settings.tick settings.imbalanceRatio settings.window settings.fraction
  unfold ProfileInTime ProfileNeverLate
  rw [footprintFrame_eq stream settings.bucket settings.priced settings.ratio]
  simp only [Except.ok.injEq, exists_and_left, exists_eq_left', hout, hstamps]
  exact inTime_iff (bucketOf settings.bucketMs) (bucketEnd settings.bucketMs) stream.rows
    (trailingWindows settings.windowBuckets (keysOf (bucketOf settings.bucketMs) stream.rows))
    Prod.snd fun p t => bucketOf settings.bucketMs t ∈ p.1

/-- **Exactly when the features are in time**: when none of the trades that a row brings in from
other buckets is late for the row's own. -/
theorem causal_iff :
    (FlowInTime stream settings ↔ FlowNeverLate stream settings) ∧
    (InteractionInTime stream settings ↔ InteractionNeverLate stream settings) ∧
    (VwapInTime stream settings ↔ VwapNeverLate stream settings) ∧
    (ProfileInTime stream settings ↔ ProfileNeverLate stream settings) :=
  ⟨flow_inTime_iff stream settings, interaction_inTime_iff stream settings,
    vwap_inTime_iff stream settings, profile_inTime_iff stream settings⟩

end

/-! ## A trade that is received late -/

/-- The first trade is received four seconds after its bucket, and the bucket after it. -/
def lateStream : TradeStream "BTCUSDT" where
  rows := [sampleTrade "a" 500 5000000000 1 sampleId_a (by decide),
    sampleTrade "b" 1500 1600000000 2 sampleId_b (by decide)]
  trades row hrow := by
    rcases List.mem_pair.mp hrow with rfl | rfl
    · exact ⟨rfl, rfl, rfl, .inl rfl, ⟨100, rfl, by norm_num⟩, ⟨1, rfl, by norm_num⟩⟩
    · exact ⟨rfl, rfl, rfl, .inl rfl, ⟨100, rfl, by norm_num⟩, ⟨1, rfl, by norm_num⟩⟩
  ordered := List.pairwise_pair.mpr (by decide)

def sampleSettings : FlowSettings where
  bucketMs := 1000
  tick := 1
  minSweepLevels := 2
  anchorTsMs := none
  imbalanceRatio := 3
  windowBuckets := 2
  valueAreaFraction := 7 / 10
  bucket := by decide
  priced := by decide
  sweep := by decide
  ratio := by decide
  window := by decide
  fraction := by decide +kernel

/-- None of the four features is in time then. -/
theorem late_trade_looks_ahead :
    ¬ FlowInTime lateStream sampleSettings ∧ ¬ InteractionInTime lateStream sampleSettings ∧
      ¬ VwapInTime lateStream sampleSettings ∧ ¬ ProfileInTime lateStream sampleSettings := by
  rw [flow_inTime_iff, interaction_inTime_iff, vwap_inTime_iff, profile_inTime_iff]
  unfold FlowNeverLate InteractionNeverLate VwapNeverLate ProfileNeverLate
  refine ⟨?_, ?_, ?_, ?_⟩
  · decide +kernel
  · decide +kernel
  · decide +kernel
  · decide +kernel

end Greenfield.Features
