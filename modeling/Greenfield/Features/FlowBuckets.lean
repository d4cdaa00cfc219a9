import Greenfield.Features.TradeStreams

/-!
# Trade flow is a group-by

Whatever the chunks, a `TradeFlowAccumulator` emits the group-by of its rows over the floor of
their time (`trade_flow_grouped`). It takes rows in the strict order of their keys only, and
divides by the volume of each bucket (`trade_flow_refuses`).
-/

namespace Greenfield.Features

open Buckets Data Py

variable {symbol : String} {bucketMs : ℤ}

/-- The row of the trades of a bucket. -/
structure IsBucketRow (bucketMs : ℤ) (trades : List Trade) (row : TradeFlowRow) (bucket : ℤ) :
    Prop where
  nonempty : tradesIn bucketMs trades bucket ≠ []
  buy : row.buyVolume = volumeOf "buy" (tradesIn bucketMs trades bucket)
  sell : row.sellVolume = volumeOf "sell" (tradesIn bucketMs trades bucket)
  count : row.tradeCount = (tradesIn bucketMs trades bucket).length
  delta : row.tradeDelta = row.buyVolume - row.sellVolume
  complete : bucketEnd bucketMs bucket ≤ row.timestamp
  received : ∀ trade ∈ tradesIn bucketMs trades bucket, trade.receiveTsNs ≤ row.timestamp

/-- The rows of a group-by of the trades. -/
structure GroupedBy (bucketMs : ℤ) (trades : List Trade) (out : List TradeFlowRow)
    (buckets : List ℤ) : Prop where
  disjoint : buckets.Pairwise fun a b => a + bucketMs ≤ b
  rows : List.Forall₂ (IsBucketRow bucketMs trades) out buckets
  once : ∀ trade ∈ trades, ∃! bucket, bucket ∈ buckets ∧ bucket ≤ trade.eventTsMs ∧
    trade.eventTsMs < bucket + bucketMs
  running : ∀ i (h : i < out.length),
    out[i].cvd = ((out.take (i + 1)).map TradeFlowRow.tradeDelta).sum

/-- The bucket of a trade is the one its time lies in. -/
theorem bucketOf_iff (hms : 0 < bucketMs) {trade : Trade} {bucket : ℤ} (hbucket : bucketMs ∣ bucket) :
    bucketOf bucketMs trade = bucket ↔
      bucket ≤ trade.eventTsMs ∧ trade.eventTsMs < bucket + bucketMs := by
  obtain ⟨k, rfl⟩ := hbucket
  unfold bucketOf
  rw [mul_comm, Int.mul_eq_mul_left_iff hms.ne']
  have hle := Int.le_ediv_iff_mul_le (a := k) (b := trade.eventTsMs) hms
  have hlt := Int.ediv_lt_iff_lt_mul (a := trade.eventTsMs) (b := k + 1) hms
  rw [mul_comm] at hle
  rw [add_mul, one_mul, mul_comm k] at hlt
  constructor
  · rintro rfl
    exact ⟨hle.mp le_rfl, hlt.mp (Int.lt_succ _)⟩
  · rintro ⟨hfrom, hto⟩
    exact le_antisymm (Int.lt_add_one_iff.mp (hlt.mpr hto)) (hle.mpr hfrom)

theorem dvd_of_mem_keysOf {trades : List Trade} {bucket : ℤ}
    (h : bucket ∈ keysOf (bucketOf bucketMs) trades) : bucketMs ∣ bucket := by
  obtain ⟨trade, -, rfl⟩ := mem_keysOf.mp h
  exact Dvd.intro_left _ rfl

/-- Two buckets do not overlap. -/
theorem add_le_of_lt (hms : 0 < bucketMs) {a b : ℤ} (ha : bucketMs ∣ a) (hb : bucketMs ∣ b)
    (h : a < b) : a + bucketMs ≤ b := by
  obtain ⟨i, rfl⟩ := ha
  obtain ⟨j, rfl⟩ := hb
  have hij : i + 1 ≤ j := lt_of_mul_lt_mul_left h hms.le
  calc bucketMs * i + bucketMs = bucketMs * (i + 1) := by ring
    _ ≤ bucketMs * j := mul_le_mul_of_nonneg_left hij hms.le

/-- **Trade flow is a group-by** of rows in the order of their keys, in any chunks. -/
theorem trade_flow_grouped {chunks : List (List Trade)} (hms : 0 < bucketMs)
    (hvalid : ∀ row ∈ chunks.flatten, validateFlow symbol row = .ok ())
    (hordered : chunks.flatten.Pairwise fun a b => tradeKey a < tradeKey b)
    (hvolume : ∀ bucket ∈ keysOf (bucketOf bucketMs) chunks.flatten,
      volumeOf "buy" (tradesIn bucketMs chunks.flatten bucket) +
        volumeOf "sell" (tradesIn bucketMs chunks.flatten bucket) ≠ 0) :
    ∃ out buckets, tradeFlowChunks symbol bucketMs chunks = .ok out ∧
      GroupedBy bucketMs chunks.flatten out buckets := by
  have hkeys : chunks.flatten.Pairwise fun a b => bucketOf bucketMs a ≤ bucketOf bucketMs b :=
    hordered.imp fun h => bucketOf_le hms (eventTsMs_le h.le)
  refine ⟨(keysOf (bucketOf bucketMs) chunks.flatten).map (flowRow bucketMs chunks.flatten),
    keysOf (bucketOf bucketMs) chunks.flatten, ?_, ?_, ?_, fun trade htrade => ?_, ?_⟩
  · unfold tradeFlowChunks
    simp only [hms, decide_true, check, if_true]
    exact (Stream.feed_eq chunks _).trans (tradeFlow_results hvalid hordered hkeys hvolume)
  · exact (pairwise_keysOf _ _).imp_of_mem fun ha hb h =>
      add_le_of_lt hms (dvd_of_mem_keysOf ha) (dvd_of_mem_keysOf hb) h
  · rw [List.forall₂_map_left_iff, List.forall₂_same]
    intro bucket hbucket
    exact {
      nonempty := TradeStream.group_ne_nil hbucket
      buy := rfl
      sell := rfl
      count := rfl
      delta := rfl
      complete := le_max_left _ _
      received := fun trade htrade => by
        refine (le_stamp trade).mpr fun hlate => ?_
        exact lt_irrefl _ (hlate.2 trade htrade) }
  · have hmem : bucketOf bucketMs trade ∈ keysOf (bucketOf bucketMs) chunks.flatten :=
      mem_keysOf.mpr ⟨trade, htrade, rfl⟩
    refine ⟨bucketOf bucketMs trade, ⟨hmem, (bucketOf_iff hms (dvd_of_mem_keysOf hmem)).mp rfl⟩, ?_⟩
    rintro bucket ⟨hbucket, hin⟩
    exact ((bucketOf_iff hms (dvd_of_mem_keysOf hbucket)).mpr hin).symm
  · intro i h
    rw [List.length_map] at h
    rw [List.getElem_map, ← List.map_take, List.map_map]
    exact deltaOf_running _ _ i h

theorem tied_early : (0 : ℤ) < 20 ∧ (0 : ℤ) < 1 := by decide

theorem tied_late : (0 : ℤ) < 20 ∧ (0 : ℤ) < 2 := by decide

/-- The trade that was received later comes first. -/
def tiedTrades : List Trade :=
  [sampleTrade "a" 20 2 2 sampleId_a tied_late, sampleTrade "b" 20 1 1 sampleId_b tied_early]

theorem trade_flow_grouped_sample : ∃ out buckets,
    tradeFlowChunks "BTCUSDT" 1000 [tiedTrades.reverse, []] = .ok out ∧
      GroupedBy 1000 [tiedTrades.reverse, []].flatten out buckets := by
  refine trade_flow_grouped (by decide) (fun row hrow => ?_) ?_ ?_
  · rcases List.mem_pair.mp hrow with rfl | rfl <;> rfl
  · exact List.pairwise_pair.mpr (by decide)
  · decide +kernel

/-! ## Rows that are refused -/

/-- A trade of nothing. -/
def emptyTrade : Trade :=
  { sampleTrade "a" 20 1 1 sampleId_a tied_early with size := some 0 }

/-- The time of the exchange alone does not order the rows, and a bucket needs a volume. -/
theorem trade_flow_refuses :
    (¬ ∀ (symbol : String) (bucketMs : ℤ) (chunks : List (List Trade)), 0 < bucketMs →
      (∀ row ∈ chunks.flatten, IsTrade symbol row) →
      (chunks.flatten.Pairwise fun a b => a.eventTsMs ≤ b.eventTsMs) →
      ∃ out buckets, tradeFlowChunks symbol bucketMs chunks = .ok out ∧
        GroupedBy bucketMs chunks.flatten out buckets) ∧
    ¬ ∀ (symbol : String) (bucketMs : ℤ) (chunks : List (List Trade)), 0 < bucketMs →
      (∀ row ∈ chunks.flatten, validateFlow symbol row = .ok ()) →
      (chunks.flatten.Pairwise fun a b => tradeKey a < tradeKey b) →
      ∃ out buckets, tradeFlowChunks symbol bucketMs chunks = .ok out ∧
        GroupedBy bucketMs chunks.flatten out buckets := by
  constructor
  · intro hclaim
    have hrefused : tradeFlowChunks "BTCUSDT" 1000 [tiedTrades] =
        .error (.orderFlow "trade stream is not strictly ordered") := by decide +kernel
    have htrades : ∀ row ∈ [tiedTrades].flatten, IsTrade "BTCUSDT" row := by
      intro row hrow
      rcases List.mem_pair.mp hrow with rfl | rfl
      · exact ⟨rfl, rfl, rfl, .inl rfl, ⟨100, rfl, by norm_num⟩, ⟨1, rfl, by norm_num⟩⟩
      · exact ⟨rfl, rfl, rfl, .inl rfl, ⟨100, rfl, by norm_num⟩, ⟨1, rfl, by norm_num⟩⟩
    obtain ⟨out, -, hout, -⟩ := hclaim "BTCUSDT" 1000 [tiedTrades] (by decide) htrades (by decide)
    rw [hrefused] at hout
    cases hout
  · intro hclaim
    have hrefused : tradeFlowChunks "BTCUSDT" 1000 [[emptyTrade]] = .error .invalidOperation := by
      decide +kernel
    obtain ⟨out, -, hout, -⟩ := hclaim "BTCUSDT" 1000 [[emptyTrade]] (by decide)
      (fun row hrow => by rw [List.mem_singleton.mp hrow]; rfl) (List.pairwise_singleton _ _)
    rw [hrefused] at hout
    cases hout

end Greenfield.Features
