import Greenfield.Lib.Buckets
import Greenfield.Lib.Table
import Greenfield.Py.Basic
import Mathlib.Data.String.Basic
import Mathlib.Tactic.Linarith

/-!
# Option surfaces

`build_option_surface_snapshot` of `src/features/options.py`. One counter of rejections goes through
the stages. Quotes of an expiry without a pair at the money are counted as rejected, but stay in the
accepted ones, so the counts add up exactly when each expiry has a pair
(`buildOptionSurfaceSnapshot_isAccounted_iff`).
-/

namespace Greenfield.Features

open Py Buckets Keyed

inductive OptionRight where
  | call
  | put
  deriving DecidableEq

/-- An option as a `VenueInstrument`. -/
structure OptionInstrument where
  exchange : String
  marketType : String
  venueSymbol : String
  baseAsset : String
  quoteAsset : String
  expiryUtc : Instant
  optionStrike : ℚ
  optionRight : OptionRight
  optionStrike_pos : 0 < optionStrike
  deriving DecidableEq

structure OptionQuote where
  instrument : OptionInstrument
  eventAtUtc : Instant
  receivedAtUtc : Instant
  underlyingPrice : ℚ
  markIv : ℚ
  bidIv : Option ℚ
  askIv : Option ℚ
  openInterest : ℚ
  delta : Option ℚ
  event_le : eventAtUtc ≤ receivedAtUtc
  underlyingPrice_pos : 0 < underlyingPrice
  markIv_pos : 0 < markIv
  openInterest_nonneg : 0 ≤ openInterest
  bidIv_pos : ∀ bid ∈ bidIv, 0 < bid
  askIv_pos : ∀ ask ∈ askIv, 0 < ask
  delta_mem : ∀ d ∈ delta, -1 ≤ d ∧ d ≤ 1
  deriving DecidableEq

structure OptionSurfaceQuality where
  maxAgeSeconds : ℚ := 360
  expectedPollIntervalSeconds : ℚ := 300
  collectionGraceSeconds : ℚ := 60
  allowShortFreshnessWindow : Bool := false
  minOpenInterest : ℚ := 1
  maxIvSpread : ℚ := 10
  maxUnderlyingDeviationFraction : ℚ := 5 / 1000
  targetDelta : ℚ := 1 / 4
  maxDeltaDistance : ℚ := 1 / 10
  maxAgeSeconds_pos : 0 < maxAgeSeconds := by decide +kernel
  expectedPollIntervalSeconds_pos : 0 < expectedPollIntervalSeconds := by decide +kernel
  collectionGraceSeconds_nonneg : 0 ≤ collectionGraceSeconds := by decide +kernel
  minOpenInterest_nonneg : 0 ≤ minOpenInterest := by decide +kernel
  maxIvSpread_pos : 0 < maxIvSpread := by decide +kernel
  maxUnderlyingDeviationFraction_mem : 0 < maxUnderlyingDeviationFraction ∧
    maxUnderlyingDeviationFraction < 1 := by decide +kernel
  targetDelta_mem : 0 < targetDelta ∧ targetDelta < 1 / 2 := by decide +kernel
  maxDeltaDistance_mem : 0 < maxDeltaDistance ∧ maxDeltaDistance < 1 / 2 := by decide +kernel
  fresh : allowShortFreshnessWindow = true ∨
    expectedPollIntervalSeconds + collectionGraceSeconds ≤ maxAgeSeconds := by decide +kernel

structure OptionExpiryFeatures where
  expiryUtc : Instant
  daysToExpiry : ℚ
  atmStrike : ℚ
  atmIv : ℚ
  callIv : Option ℚ
  putIv : Option ℚ
  putCallSkew : Option ℚ
  riskReversal : Option ℚ
  butterfly : Option ℚ
  callOpenInterest : ℚ
  putOpenInterest : ℚ
  putCallOiRatio : Option ℚ
  quoteCount : ℕ
  deriving DecidableEq

/-- A `Counter`, in the order of insertion. -/
abbrev Counter := List (String × ℕ)

structure OptionSurfaceSnapshot where
  asOfUtc : Instant
  maxSourceTimestampUtc : Instant
  baseAsset : String
  quoteAsset : String
  acceptedQuoteCount : ℕ
  rejectedQuoteCount : ℕ
  rejectionCounts : Counter
  expiries : List OptionExpiryFeatures
  nearAtmIv : ℚ
  termStructureSlopePerYear : Option ℚ
  impliedRealizedSpread : Option ℚ
  maxOpenInterestStrike : ℚ
  deriving DecidableEq

/-- `str.lower` and `str.upper`. -/
structure Casing where
  lower : String → String
  upper : String → String

/-! ## Counting -/

/-- `counter[reason] += k`. -/
def Counter.add : Counter → String → ℕ → Counter
  | [], reason, k => [(reason, k)]
  | (r, n) :: rest, reason, k =>
    if r = reason then (r, n + k) :: rest else (r, n) :: Counter.add rest reason k

/-- `sum(counter.values())`. -/
def Counter.total (c : Counter) : ℕ := (c.map Prod.snd).sum

/-- `dict(sorted(counter.items()))`. -/
def Counter.ordered (c : Counter) : Counter := sorted (fun a b => toLex a ≤ toLex b) c

/-- A loop that keeps the quotes without a reason for rejection, and counts the others. -/
def sift (rejection : OptionQuote → Option String) : List OptionQuote → Counter →
    List OptionQuote × Counter
  | [], rejected => ([], rejected)
  | quote :: rest, rejected =>
    match rejection quote with
    | none =>
      let out := sift rejection rest rejected
      (quote :: out.1, out.2)
    | some reason => sift rejection rest (rejected.add reason 1)

/-! ## Stages -/

/-- The first of the items with the least key. -/
def minOn {α κ : Type} [LinearOrder κ] (key : α → κ) : List α → Option α
  | [] => none
  | x :: xs => some (xs.foldl (fun best y => if key y < key best then y else best) x)

/-- The first of the items with the greatest key. -/
def maxOn {α κ : Type} [LinearOrder κ] (key : α → κ) : List α → Option α
  | [] => none
  | x :: xs => some (xs.foldl (fun best y => if key best < key y then y else best) x)

/-- `statistics.median`. -/
def medianOf (values : List ℚ) : ℚ :=
  let ordered := sorted (fun a b => a ≤ b) values
  let middle := ordered.length / 2
  if ordered.length % 2 = 1 then ordered.getD middle 0
  else (ordered.getD (middle - 1) 0 + ordered.getD middle 0) / 2

/-- `timedelta.total_seconds()`. -/
def totalSeconds (micros : Int) : ℚ := micros / 1000000

/-- `_individual_rejection`. -/
def individualRejection (asOf : Instant) (quality : OptionSurfaceQuality) (quote : OptionQuote) :
    Option String :=
  if asOf < quote.receivedAtUtc then some "future"
  else if quality.maxAgeSeconds < totalSeconds (asOf - quote.receivedAtUtc) then some "stale"
  else if quote.instrument.expiryUtc ≤ asOf then some "expired"
  else if quote.openInterest < quality.minOpenInterest then some "illiquid_open_interest"
  else
    match quote.bidIv, quote.askIv with
    | some bid, some ask =>
      if ask < bid then some "crossed_iv"
      else if quality.maxIvSpread < ask - bid then some "wide_iv_spread"
      else if ¬ (bid ≤ quote.markIv ∧ quote.markIv ≤ ask) then some "mark_outside_market"
      else none
    | _, _ => some "missing_two_sided_iv"

section

variable (casing : Casing)

/-- `venue_key`. -/
def venueKey (quote : OptionQuote) : String × String × String :=
  (casing.lower quote.instrument.exchange, casing.lower quote.instrument.marketType,
    quote.instrument.venueSymbol)

/-- The quotes by their time of receipt, their event and their instrument. -/
def byReceipt (accepted : List OptionQuote) : List OptionQuote :=
  let key (quote : OptionQuote) := toLex (quote.receivedAtUtc, toLex (quote.eventAtUtc,
    toLex ((venueKey casing quote).1, toLex (venueKey casing quote).2)))
  sorted (fun a b => key a ≤ key b) accepted

/-- `latest_by_instrument`. -/
abbrev LatestQuotes := Table (venueKey casing)

/-- The body of the loop over the accepted quotes. -/
def supersede (state : LatestQuotes casing × Counter) (quote : OptionQuote) :
    LatestQuotes casing × Counter :=
  (state.1.upsert quote,
    if (state.1.find (venueKey casing quote)).isSome then state.2.add "superseded" 1 else state.2)

/-- The latest quote of each instrument. -/
def latestQuotes (accepted : List OptionQuote) (rejected : Counter) : List OptionQuote × Counter :=
  let out := (byReceipt casing accepted).foldl (supersede casing) (Table.empty, rejected)
  (out.1.rows, out.2)

end

/-- The gate of the underlying price. -/
def outlierRejection (quality : OptionSurfaceQuality) (reference : ℚ) (quote : OptionQuote) :
    Option String :=
  if quality.maxUnderlyingDeviationFraction < |quote.underlyingPrice / reference - 1| then
    some "underlying_outlier"
  else none

/-! ## Expiries -/

/-- `by_strike_right`. -/
def byStrikeRight (quotes : List OptionQuote) (strike : ℚ) (right : OptionRight) :
    Option OptionQuote :=
  (quotes.filter fun quote => quote.instrument.optionStrike = strike ∧
    quote.instrument.optionRight = right).getLast?

/-- `paired_strikes`. -/
def pairedStrikes (quotes : List OptionQuote) : List ℚ :=
  keysOf id (((quotes.filter fun quote => quote.instrument.optionRight = .call).map
    fun quote => quote.instrument.optionStrike).filter fun strike =>
      (byStrikeRight quotes strike .put).isSome)

/-- `_delta_quote`. -/
def deltaQuote (quotes : List OptionQuote) (right : OptionRight) (target : ℚ) : Option OptionQuote :=
  minOn (fun quote => |quote.delta.getD 0 - target|)
    (quotes.filter fun quote => quote.instrument.optionRight = right ∧ quote.delta.isSome)

/-- The volatility of the quote near to a delta. -/
def deltaIv (quality : OptionSurfaceQuality) (quotes : List OptionQuote) (right : OptionRight)
    (target : ℚ) : Option ℚ :=
  ((deltaQuote quotes right target).filter fun quote =>
    |quote.delta.getD 0 - target| ≤ quality.maxDeltaDistance).map OptionQuote.markIv

/-- `_expiry_features`. -/
def expiryFeatures (quotes : List OptionQuote) (expiry asOf : Instant) (underlying : ℚ)
    (quality : OptionSurfaceQuality) : Option OptionExpiryFeatures :=
  (minOn (fun strike : ℚ => toLex (|strike - underlying|, strike)) (pairedStrikes quotes)).map
    fun atmStrike =>
      let ivAt (right : OptionRight) : ℚ :=
        ((byStrikeRight quotes atmStrike right).map OptionQuote.markIv).getD 0
      let atmIv := (ivAt .call + ivAt .put) / 2
      let callIv := deltaIv quality quotes .call quality.targetDelta
      let putIv := deltaIv quality quotes .put (-quality.targetDelta)
      let skew := callIv.bind fun c => putIv.map fun p => p - c
      let openInterest (right : OptionRight) : ℚ :=
        ((quotes.filter fun quote => quote.instrument.optionRight = right).map
          OptionQuote.openInterest).sum
      { expiryUtc := expiry
        daysToExpiry := totalSeconds (expiry - asOf) / 86400
        atmStrike
        atmIv
        callIv
        putIv
        putCallSkew := skew
        riskReversal := skew.map fun s => -s
        butterfly := callIv.bind fun c => putIv.map fun p => (c + p) / 2 - atmIv
        callOpenInterest := openInterest .call
        putOpenInterest := openInterest .put
        putCallOiRatio :=
          if openInterest .call = 0 then none else some (openInterest .put / openInterest .call)
        quoteCount := quotes.length }

/-- The loop over the expiries. -/
def expiryLoop (features : Instant → List OptionQuote → Option OptionExpiryFeatures) :
    List (Instant × List OptionQuote) → Counter → List OptionExpiryFeatures × Counter
  | [], rejected => ([], rejected)
  | (expiry, quotes) :: rest, rejected =>
    match features expiry quotes with
    | none => expiryLoop features rest (rejected.add "missing_atm_pair" quotes.length)
    | some feature =>
      let out := expiryLoop features rest rejected
      (feature :: out.1, out.2)

/-- The sum of the open interest at a strike. -/
def openInterestAt (quotes : List OptionQuote) (strike : ℚ) : ℚ :=
  ((quotes.filter fun quote => quote.instrument.optionStrike = strike).map OptionQuote.openInterest).sum

/-- `term_structure_slope_per_year`. -/
def termSlope (expiries : List OptionExpiryFeatures) : Option ℚ :=
  match expiries.head?, expiries.getLast? with
  | some near, some far =>
    let yearFraction := (far.daysToExpiry - near.daysToExpiry) / 365
    if 2 ≤ expiries.length ∧ 0 < yearFraction then some ((far.atmIv - near.atmIv) / yearFraction)
    else none
  | _, _ => none

/-- The items of a list without its repetitions. -/
def distinct (values : List String) : List String := values.dedup

section

variable (casing : Casing) (asOf : Instant) (realizedVolatility : Option ℚ)
  (quality : OptionSurfaceQuality)

/-- The surface of the consistent quotes. -/
def surfaceOf (baseAsset quoteAsset : String) (reference : ℚ) (consistent : List OptionQuote)
    (rejected : Counter) : Except PyError OptionSurfaceSnapshot :=
  let out := expiryLoop
    (fun expiry quotes => expiryFeatures quotes expiry asOf reference quality)
    (groups (fun quote => quote.instrument.expiryUtc) consistent) rejected
  let strikes := keysOf id (consistent.map fun quote => quote.instrument.optionStrike)
  match out.1, (consistent.map OptionQuote.receivedAtUtc).max?,
    maxOn (fun strike : ℚ => toLex (openInterestAt consistent strike, -strike)) strikes with
  | near :: rest, some maxSource, some maxStrike => .ok {
      asOfUtc := asOf
      maxSourceTimestampUtc := maxSource
      baseAsset
      quoteAsset
      acceptedQuoteCount := consistent.length
      rejectedQuoteCount := out.2.total
      rejectionCounts := out.2.ordered
      expiries := near :: rest
      nearAtmIv := near.atmIv
      termStructureSlopePerYear := termSlope (near :: rest)
      impliedRealizedSpread := realizedVolatility.map fun volatility => near.atmIv - volatility
      maxOpenInterestStrike := maxStrike }
  | _, _, _ => .error (.valueError "no expiry contains a two-sided ATM call/put pair")

/-- The surface of the quotes that passed the individual gates. -/
def surfaceFrom (accepted : List OptionQuote) (rejected : Counter) :
    Except PyError OptionSurfaceSnapshot :=
  match distinct (accepted.map fun quote => casing.upper quote.instrument.baseAsset),
    distinct (accepted.map fun quote => casing.upper quote.instrument.quoteAsset),
    distinct (accepted.map fun quote => casing.lower quote.instrument.exchange) with
  | [baseAsset], [quoteAsset], [_] =>
    let latest := latestQuotes casing accepted rejected
    let reference := medianOf (latest.1.map OptionQuote.underlyingPrice)
    let consistent := sift (outlierRejection quality reference) latest.1 latest.2
    if consistent.1 = [] then
      .error (.valueError "all option quotes failed underlying consistency")
    else surfaceOf asOf realizedVolatility quality baseAsset quoteAsset reference consistent.1
      consistent.2
  | _, _, _ =>
    .error (.valueError "one surface cannot mix exchanges, underlyings, or quote assets")

/-- `build_option_surface_snapshot`. -/
def buildOptionSurfaceSnapshot (quotes : List OptionQuote) : Except PyError OptionSurfaceSnapshot :=
  if realizedVolatility.any (· ≤ 0) then
    .error (.valueError "realized volatility must be finite and positive")
  else
    let accepted := sift (individualRejection asOf quality) quotes []
    if accepted.1 = [] then
      .error (.valueError "no option quotes passed point-in-time quality gates")
    else surfaceFrom casing asOf realizedVolatility quality accepted.1 accepted.2

end

/-! ## Counters -/

variable {c c' : Counter} {reason : String}

theorem Counter.add_cons (r : String) (n : ℕ) (rest : Counter) (reason : String) (k : ℕ) :
    Counter.add ((r, n) :: rest) reason k =
      if r = reason then (r, n + k) :: rest else (r, n) :: Counter.add rest reason k := rfl

theorem Counter.total_add (c : Counter) (reason : String) (k : ℕ) :
    (c.add reason k).total = c.total + k := by
  induction c with
  | nil => simp [Counter.add, Counter.total]
  | cons entry rest ih =>
    obtain ⟨r, n⟩ := entry
    unfold Counter.total at ih ⊢
    unfold Counter.add
    split
    · rw [List.map_cons, List.map_cons, List.sum_cons, List.sum_cons]
      omega
    · rw [List.map_cons, List.map_cons, List.sum_cons, List.sum_cons, ih]
      omega

theorem Counter.total_ordered (c : Counter) : (c.ordered.map Prod.snd).sum = c.total :=
  ((List.perm_insertionSort _ c).map Prod.snd).sum_eq

/-- The counts of the other reasons. -/
def Counter.without (c : Counter) (reason : String) : Counter :=
  c.filter fun entry => decide (entry.1 ≠ reason)

theorem Counter.without_add (c : Counter) (other : String) (k : ℕ) :
    (c.add other k).without reason =
      if other = reason then c.without reason else (c.without reason).add other k := by
  unfold Counter.without
  induction c with
  | nil =>
    by_cases h : other = reason
    · simp [Counter.add, h]
    · simp [Counter.add, h]
  | cons entry rest ih =>
    obtain ⟨r, n⟩ := entry
    rw [Counter.add_cons]
    by_cases hr : r = other
    · rw [if_pos hr, hr]
      by_cases h : other = reason
      · rw [if_pos h, List.filter_cons_of_neg (by simpa using h),
          List.filter_cons_of_neg (by simpa using h)]
      · rw [if_neg h, List.filter_cons_of_pos (by simpa using h),
          List.filter_cons_of_pos (by simpa using h), Counter.add_cons, if_pos rfl]
    · rw [if_neg hr]
      by_cases h : r = reason
      · rw [List.filter_cons_of_neg (by simpa using h), List.filter_cons_of_neg (by simpa using h), ih]
      · rw [List.filter_cons_of_pos (by simpa using h), List.filter_cons_of_pos (by simpa using h), ih]
        split
        · rfl
        · rw [Counter.add_cons, if_neg hr]

theorem Counter.without_ordered (c : Counter) :
    c.ordered.without reason = (c.without reason).ordered := by
  have htotal : ∀ a b : String × ℕ,
      decide (toLex a ≤ toLex b) = true ∨ decide (toLex b ≤ toLex a) = true := by
    intro a b
    simpa using le_total (toLex a) (toLex b)
  have htrans : ∀ a b d : String × ℕ, decide (toLex a ≤ toLex b) = true →
      decide (toLex b ≤ toLex d) = true → decide (toLex a ≤ toLex d) = true := by
    intro a b d hab hbd
    simp only [decide_eq_true_eq] at hab hbd ⊢
    exact hab.trans hbd
  refine (sorted_eq_of_perm htotal htrans ?_ ?_ ?_).symm
  · exact ((List.perm_insertionSort _ c).filter _).symm
  · exact (pairwise_sorted _ htotal htrans c).sublist List.filter_sublist
  · intro a _ b _ hab hba
    exact toLex.injective (le_antisymm (of_decide_eq_true hab) (of_decide_eq_true hba))

/-- The counters agree on all other reasons. -/
def AgreeBut (reason : String) (c c' : Counter) : Prop := c.without reason = c'.without reason

theorem AgreeBut.add (h : AgreeBut reason c c') (other : String) (k : ℕ) :
    AgreeBut reason (c.add other k) (c'.add other k) := by
  unfold AgreeBut at h ⊢
  rw [Counter.without_add, Counter.without_add, h]

theorem agreeBut_add_self (c : Counter) (k : ℕ) : AgreeBut reason (c.add reason k) c := by
  unfold AgreeBut
  rw [Counter.without_add, if_pos rfl]

/-! ## Each stage counts what it takes away -/

theorem sift_fst (rejection : OptionQuote → Option String) (quotes : List OptionQuote) (c : Counter) :
    (sift rejection quotes c).1 = quotes.filter fun quote => (rejection quote).isNone := by
  induction quotes generalizing c with
  | nil => rfl
  | cons quote rest ih =>
    unfold sift
    cases h : rejection quote with
    | none =>
      rw [List.filter_cons_of_pos (by rw [h]; rfl)]
      exact congrArg (quote :: ·) (ih c)
    | some reason =>
      rw [List.filter_cons_of_neg (by rw [h]; simp)]
      exact ih _

theorem sift_total (rejection : OptionQuote → Option String) (quotes : List OptionQuote)
    (c : Counter) : (sift rejection quotes c).1.length + (sift rejection quotes c).2.total =
      quotes.length + c.total := by
  induction quotes generalizing c with
  | nil => rfl
  | cons quote rest ih =>
    unfold sift
    cases rejection quote with
    | none =>
      show (quote :: (sift rejection rest c).1).length + (sift rejection rest c).2.total = _
      rw [List.length_cons, List.length_cons]
      have := ih c
      omega
    | some reason =>
      show (sift rejection rest (c.add reason 1)).1.length +
        (sift rejection rest (c.add reason 1)).2.total = _
      rw [ih, Counter.total_add, List.length_cons]
      omega

theorem sift_agreeBut (rejection : OptionQuote → Option String) (quotes : List OptionQuote)
    (h : AgreeBut reason c c') :
    AgreeBut reason (sift rejection quotes c).2 (sift rejection quotes c').2 := by
  induction quotes generalizing c c' with
  | nil => exact h
  | cons quote rest ih =>
    unfold sift
    cases rejection quote with
    | none => exact ih h
    | some other => exact ih (h.add other 1)

/-- Quotes that are rejected for one reason do not change the other counts. -/
theorem sift_without (rejection : OptionQuote → Option String) {kept : OptionQuote → Bool}
    (hkept : ∀ quote, kept quote = false → rejection quote = some reason)
    (quotes : List OptionQuote) (c : Counter) :
    AgreeBut reason (sift rejection quotes c).2 (sift rejection (quotes.filter kept) c).2 := by
  induction quotes generalizing c with
  | nil => rfl
  | cons quote rest ih =>
    cases hquote : kept quote with
    | true =>
      rw [List.filter_cons_of_pos hquote]
      unfold sift
      cases rejection quote with
      | none => exact ih c
      | some other => exact ih _
    | false =>
      rw [List.filter_cons_of_neg (by rw [hquote]; simp)]
      have hreject : sift rejection (quote :: rest) c = sift rejection rest (c.add reason 1) := by
        rw [sift, hkept quote hquote]
      rw [hreject]
      exact (sift_agreeBut rejection rest (agreeBut_add_self c 1)).trans (ih c)

section

variable (casing : Casing)

theorem length_upsert (t : LatestQuotes casing) (quote : OptionQuote) :
    (t.upsert quote).rows.length =
      t.rows.length + if (t.find (venueKey casing quote)).isSome then 0 else 1 := by
  unfold Table.upsert
  cases hinsert : t.insert quote with
  | some u =>
    obtain ⟨hnone, hrows⟩ := Table.insert_eq_some.mp hinsert
    rw [hnone]
    show u.rows.length = t.rows.length + 1
    rw [hrows, List.length_append, List.length_singleton]
  | none =>
    have hsome : (t.find (venueKey casing quote)).isSome = true := by
      rw [Option.isSome_iff_ne_none]
      intro hnone
      obtain ⟨u, hu⟩ := Table.insert_isSome hnone
      rw [hinsert] at hu
      cases hu
    rw [hsome]
    exact List.length_map _

theorem supersede_total (quotes : List OptionQuote) (t : LatestQuotes casing) (c : Counter) :
    let out := quotes.foldl (supersede casing) (t, c)
    out.1.rows.length + out.2.total = quotes.length + t.rows.length + c.total := by
  induction quotes generalizing t c with
  | nil => simp
  | cons quote rest ih =>
    have hone := length_upsert casing t quote
    dsimp only at ih ⊢
    rw [List.foldl_cons, supersede, ih, List.length_cons, hone]
    cases (t.find (venueKey casing quote)).isSome with
    | true =>
      simp only [if_true, Counter.total_add]
      omega
    | false =>
      simp only [Bool.false_eq_true, if_false]
      omega

theorem supersede_fst (quotes : List OptionQuote) (t : LatestQuotes casing) (c : Counter) :
    (quotes.foldl (supersede casing) (t, c)).1 = quotes.foldl Table.upsert t := by
  induction quotes generalizing t c with
  | nil => rfl
  | cons quote rest ih =>
    rw [List.foldl_cons, List.foldl_cons, supersede]
    exact ih _ _

theorem supersede_agreeBut (quotes : List OptionQuote) (t : LatestQuotes casing)
    (h : AgreeBut reason c c') : AgreeBut reason (quotes.foldl (supersede casing) (t, c)).2
      (quotes.foldl (supersede casing) (t, c')).2 := by
  induction quotes generalizing t c c' with
  | nil => exact h
  | cons quote rest ih =>
    rw [List.foldl_cons, List.foldl_cons, supersede, supersede]
    refine ih _ ?_
    split
    · exact h.add "superseded" 1
    · exact h

theorem latestQuotes_total (accepted : List OptionQuote) (c : Counter) :
    (latestQuotes casing accepted c).1.length + (latestQuotes casing accepted c).2.total =
      accepted.length + c.total := by
  have htotal := supersede_total casing (byReceipt casing accepted) Table.empty c
  have hlength : (byReceipt casing accepted).length = accepted.length :=
    (List.perm_insertionSort _ accepted).length_eq
  rw [hlength] at htotal
  exact htotal

end

/-- The quotes of the expiries without features. -/
def missingPairs (features : Instant → List OptionQuote → Option OptionExpiryFeatures)
    (expiries : List (Instant × List OptionQuote)) : ℕ :=
  (expiries.map fun p => if (features p.1 p.2).isNone then p.2.length else 0).sum

theorem expiryLoop_total (features : Instant → List OptionQuote → Option OptionExpiryFeatures)
    (expiries : List (Instant × List OptionQuote)) (c : Counter) :
    (expiryLoop features expiries c).2.total = c.total + missingPairs features expiries := by
  induction expiries generalizing c with
  | nil => rfl
  | cons p rest ih =>
    obtain ⟨expiry, quotes⟩ := p
    unfold missingPairs at ih ⊢
    rw [List.map_cons, List.sum_cons]
    unfold expiryLoop
    cases features expiry quotes with
    | none =>
      show (expiryLoop features rest (c.add "missing_atm_pair" quotes.length)).2.total = _
      rw [ih, Counter.total_add]
      simp only [Option.isNone_none, if_true]
      omega
    | some feature =>
      show (expiryLoop features rest c).2.total = _
      rw [ih]
      simp only [Option.isNone_some, Bool.false_eq_true, if_false]
      omega

theorem expiryLoop_agreeBut (features : Instant → List OptionQuote → Option OptionExpiryFeatures)
    (expiries : List (Instant × List OptionQuote)) (h : AgreeBut reason c c') :
    (expiryLoop features expiries c).1 = (expiryLoop features expiries c').1 ∧
      AgreeBut reason (expiryLoop features expiries c).2 (expiryLoop features expiries c').2 := by
  induction expiries generalizing c c' with
  | nil => exact ⟨rfl, h⟩
  | cons p rest ih =>
    obtain ⟨expiry, quotes⟩ := p
    unfold expiryLoop
    cases features expiry quotes with
    | none => exact ih (h.add "missing_atm_pair" quotes.length)
    | some feature => exact ⟨congrArg (feature :: ·) (ih h).1, (ih h).2⟩

/-! ## The snapshot -/

/-- The snapshots differ only in the count of one reason, and so in the sum of the counts. -/
structure SameBut (reason : String) (snapshot snapshot' : OptionSurfaceSnapshot) : Prop where
  others : snapshot' = { snapshot with
    rejectedQuoteCount := snapshot'.rejectedQuoteCount
    rejectionCounts := snapshot'.rejectionCounts }
  counts : snapshot'.rejectionCounts.without reason = snapshot.rejectionCounts.without reason

section

variable {casing : Casing} {asOf : Instant} {realizedVolatility : Option ℚ}
  {quality : OptionSurfaceQuality} {quotes : List OptionQuote} {snapshot : OptionSurfaceSnapshot}

/-- The features of an expiry at a reference price. -/
def featuresAt (asOf : Instant) (quality : OptionSurfaceQuality) (reference : ℚ) (expiry : Instant)
    (quotes : List OptionQuote) : Option OptionExpiryFeatures :=
  expiryFeatures quotes expiry asOf reference quality

def expiryGroups (consistent : List OptionQuote) : List (Instant × List OptionQuote) :=
  groups (fun quote => quote.instrument.expiryUtc) consistent

variable {reference : ℚ}

variable {consistent : List OptionQuote} {baseAsset quoteAsset : String}

theorem surfaceOf_ok
    (h : surfaceOf asOf realizedVolatility quality baseAsset quoteAsset reference consistent c =
      .ok snapshot) :
    snapshot.acceptedQuoteCount = consistent.length ∧
      snapshot.rejectedQuoteCount = c.total +
        missingPairs (featuresAt asOf quality reference) (expiryGroups consistent) ∧
      snapshot.rejectedQuoteCount = (snapshot.rejectionCounts.map Prod.snd).sum := by
  have htotal := expiryLoop_total (featuresAt asOf quality reference) (expiryGroups consistent) c
  unfold surfaceOf at h
  dsimp only at h
  split at h
  · cases h
    exact ⟨rfl, htotal, (Counter.total_ordered _).symm⟩
  · cases h

theorem surfaceOf_agreeBut
    (hagree : AgreeBut reason c c')
    (h : surfaceOf asOf realizedVolatility quality baseAsset quoteAsset reference consistent c =
      .ok snapshot) :
    ∃ snapshot', surfaceOf asOf realizedVolatility quality baseAsset quoteAsset reference consistent
      c' = .ok snapshot' ∧ SameBut reason snapshot snapshot' := by
  obtain ⟨hexpiries, hcounts⟩ := expiryLoop_agreeBut (featuresAt asOf quality reference)
    (expiryGroups consistent) hagree
  unfold featuresAt expiryGroups at hexpiries hcounts
  unfold surfaceOf at h ⊢
  dsimp only at h ⊢
  rw [← hexpiries]
  split at h
  · cases h
    refine ⟨_, rfl, rfl, ?_⟩
    rw [Counter.without_ordered, Counter.without_ordered, hcounts]
  · cases h

/-- The latest of the accepted quotes. -/
def latestOf (casing : Casing) (accepted : List OptionQuote) : List OptionQuote :=
  ((byReceipt casing accepted).foldl Table.upsert (Table.empty : LatestQuotes casing)).rows

/-- The counter does not decide which quotes are the latest. -/
theorem latestQuotes_fst (accepted : List OptionQuote) (c : Counter) :
    (latestQuotes casing accepted c).1 = latestOf casing accepted :=
  congrArg Table.rows (supersede_fst casing (byReceipt casing accepted) Table.empty c)

theorem latestQuotes_agreeBut (accepted : List OptionQuote) (h : AgreeBut reason c c') :
    AgreeBut reason (latestQuotes casing accepted c).2 (latestQuotes casing accepted c').2 :=
  supersede_agreeBut casing (byReceipt casing accepted) Table.empty h

/-- The median price of the latest quotes. -/
def referenceOf (casing : Casing) (accepted : List OptionQuote) : ℚ :=
  medianOf ((latestOf casing accepted).map OptionQuote.underlyingPrice)

/-- The latest quotes whose price is near to the reference. -/
def consistentOf (casing : Casing) (quality : OptionSurfaceQuality) (accepted : List OptionQuote) :
    List OptionQuote :=
  (latestOf casing accepted).filter fun quote =>
    (outlierRejection quality (referenceOf casing accepted) quote).isNone

variable {accepted : List OptionQuote}

theorem surfaceFrom_ok
    (h : surfaceFrom casing asOf realizedVolatility quality accepted c = .ok snapshot) :
    snapshot.acceptedQuoteCount = (consistentOf casing quality accepted).length ∧
      snapshot.acceptedQuoteCount + snapshot.rejectedQuoteCount = accepted.length + c.total +
        missingPairs (featuresAt asOf quality (referenceOf casing accepted))
          (expiryGroups (consistentOf casing quality accepted)) ∧
      snapshot.rejectedQuoteCount = (snapshot.rejectionCounts.map Prod.snd).sum := by
  unfold surfaceFrom at h
  split at h
  · dsimp only at h
    rw [latestQuotes_fst] at h
    split at h
    · cases h
    · obtain ⟨haccepted, hrejected, hsum⟩ := surfaceOf_ok h
      have hlatest := latestQuotes_total casing accepted c
      have hsift := sift_total (outlierRejection quality (referenceOf casing accepted))
        (latestOf casing accepted) (latestQuotes casing accepted c).2
      rw [latestQuotes_fst] at hlatest
      rw [sift_fst] at haccepted hrejected hsift
      change snapshot.acceptedQuoteCount = (consistentOf casing quality accepted).length at haccepted
      change snapshot.rejectedQuoteCount =
        (sift (outlierRejection quality (referenceOf casing accepted)) (latestOf casing accepted)
          (latestQuotes casing accepted c).2).2.total +
            missingPairs (featuresAt asOf quality (referenceOf casing accepted))
              (expiryGroups (consistentOf casing quality accepted)) at hrejected
      change (consistentOf casing quality accepted).length + _ = _ at hsift
      exact ⟨haccepted, by omega, hsum⟩
  · cases h

theorem surfaceFrom_agreeBut (hagree : AgreeBut reason c c')
    (h : surfaceFrom casing asOf realizedVolatility quality accepted c = .ok snapshot) :
    ∃ snapshot', surfaceFrom casing asOf realizedVolatility quality accepted c' = .ok snapshot' ∧
      SameBut reason snapshot snapshot' := by
  have hcounts : AgreeBut reason (latestQuotes casing accepted c).2
      (latestQuotes casing accepted c').2 := latestQuotes_agreeBut accepted hagree
  unfold surfaceFrom at h ⊢
  split at h
  · dsimp only at h ⊢
    rw [latestQuotes_fst] at h ⊢
    split at h
    · cases h
    · next hconsistent =>
      rw [sift_fst] at hconsistent h
      rw [sift_fst, if_neg hconsistent]
      exact surfaceOf_agreeBut (sift_agreeBut _ _ hcounts) h
  · cases h

/-! ## Pairs -/

theorem ne_nil_iff_exists_mem {α : Type} {l : List α} : l ≠ [] ↔ ∃ x, x ∈ l :=
  ⟨List.exists_mem_of_ne_nil l, fun ⟨_, hx⟩ => List.ne_nil_of_mem hx⟩

theorem byStrikeRight_isSome {strike : ℚ} {right : OptionRight} :
    (byStrikeRight quotes strike right).isSome = true ↔
      ∃ quote ∈ quotes, quote.instrument.optionStrike = strike ∧
        quote.instrument.optionRight = right := by
  unfold byStrikeRight
  rw [List.getLast?_isSome, ne_nil_iff_exists_mem]
  simp only [List.mem_filter, decide_eq_true_eq]

theorem minOn_isNone {α κ : Type} [LinearOrder κ] {key : α → κ} {l : List α} :
    (minOn key l).isNone = true ↔ l = [] := by
  cases l with
  | nil => simp [minOn]
  | cons x xs => simp [minOn]

/-- A call and a put with one strike. -/
def HasPair (quotes : List OptionQuote) : Prop :=
  ∃ call ∈ quotes, ∃ put ∈ quotes, call.instrument.optionRight = .call ∧
    put.instrument.optionRight = .put ∧
      put.instrument.optionStrike = call.instrument.optionStrike

/-- An expiry has features when it has a pair. -/
theorem featuresAt_isNone {expiry : Instant} :
    (featuresAt asOf quality reference expiry quotes).isNone = true ↔ ¬ HasPair quotes := by
  unfold featuresAt expiryFeatures
  rw [Option.isNone_map, minOn_isNone, ← not_iff_not, not_not, ← ne_eq, ne_nil_iff_exists_mem]
  unfold pairedStrikes HasPair
  constructor
  · rintro ⟨strike, hstrike⟩
    obtain ⟨_, hmem, rfl⟩ := mem_keysOf.mp hstrike
    rw [List.mem_filter, List.mem_map] at hmem
    obtain ⟨⟨call, hcall, hstrike⟩, hput⟩ := hmem
    rw [List.mem_filter, decide_eq_true_eq] at hcall
    obtain ⟨put, hput, hsame, hright⟩ := byStrikeRight_isSome.mp hput
    exact ⟨call, hcall.1, put, hput, hcall.2, hright, hsame.trans hstrike.symm⟩
  · rintro ⟨call, hcall, put, hput, hright, hright', hsame⟩
    refine ⟨call.instrument.optionStrike, mem_keysOf.mpr ⟨_, List.mem_filter.mpr
      ⟨List.mem_map.mpr ⟨call, List.mem_filter.mpr ⟨hcall, decide_eq_true hright⟩, rfl⟩, ?_⟩, rfl⟩⟩
    exact byStrikeRight_isSome.mpr ⟨put, hput, hsame, hright'⟩

/-- Each expiry of the quotes has a pair. -/
def EachExpiryPaired (quotes : List OptionQuote) : Prop :=
  ∀ quote ∈ quotes, HasPair (quotes.filter fun other =>
    decide (other.instrument.expiryUtc = quote.instrument.expiryUtc))

/-- No quote is missing a pair exactly when each expiry has one. -/
theorem missingPairs_eq_zero :
    missingPairs (featuresAt asOf quality reference) (expiryGroups consistent) = 0 ↔
      EachExpiryPaired consistent := by
  unfold missingPairs expiryGroups EachExpiryPaired
  rw [List.sum_eq_zero_iff_forall_eq_nat]
  constructor
  · intro h quote hquote
    have hgroup := h _ (List.mem_map.mpr ⟨(quote.instrument.expiryUtc, _),
      mem_groups.mpr ⟨⟨quote, hquote, rfl⟩, rfl⟩, rfl⟩)
    by_contra hnone
    rw [if_pos (featuresAt_isNone.mpr hnone), List.length_eq_zero_iff,
      List.filter_eq_nil_iff] at hgroup
    exact hgroup quote hquote (decide_eq_true rfl)
  · intro h n hn
    obtain ⟨⟨expiry, group⟩, hgroup, rfl⟩ := List.mem_map.mp hn
    obtain ⟨⟨quote, hquote, rfl⟩, rfl⟩ := mem_groups.mp hgroup
    exact if_neg fun hnone => featuresAt_isNone.mp hnone (h quote hquote)

/-! ## Accounting and causality -/

/-- The quotes without a reason for rejection of their own. -/
def acceptedOf (asOf : Instant) (quality : OptionSurfaceQuality) (quotes : List OptionQuote) :
    List OptionQuote :=
  quotes.filter fun quote => (individualRejection asOf quality quote).isNone

/-- The quotes that are available. -/
def available (asOf : Instant) (quotes : List OptionQuote) : List OptionQuote :=
  quotes.filter fun quote => decide (quote.receivedAtUtc ≤ asOf)

theorem individualRejection_future {quote : OptionQuote}
    (h : decide (quote.receivedAtUtc ≤ asOf) = false) :
    individualRejection asOf quality quote = some "future" := by
  unfold individualRejection
  rw [if_pos (not_le.mp (of_decide_eq_false h))]

theorem acceptedOf_available (quotes : List OptionQuote) :
    acceptedOf asOf quality (available asOf quotes) = acceptedOf asOf quality quotes := by
  unfold acceptedOf available
  rw [List.filter_filter]
  refine List.filter_congr fun quote _ => ?_
  cases hreceived : decide (quote.receivedAtUtc ≤ asOf) with
  | true => rw [Bool.and_true]
  | false => rw [individualRejection_future hreceived]; rfl

/-- What a snapshot is to say about the quotes, and not to say. -/
structure IsAccounted (casing : Casing) (asOf : Instant) (realizedVolatility : Option ℚ)
    (quality : OptionSurfaceQuality) (quotes : List OptionQuote) (snapshot : OptionSurfaceSnapshot) :
    Prop where
  once : snapshot.acceptedQuoteCount + snapshot.rejectedQuoteCount = quotes.length
  summed : snapshot.rejectedQuoteCount = (snapshot.rejectionCounts.map Prod.snd).sum
  /-- Quotes that were received later change only the count of these. -/
  causal : ∀ quotes', available asOf quotes' = available asOf quotes →
    ∃ snapshot', buildOptionSurfaceSnapshot casing asOf realizedVolatility quality quotes' =
      .ok snapshot' ∧ SameBut "future" snapshot snapshot'

end

/-! ## An expiry without a pair -/

/-- Right about names in the usual case. -/
def sameCasing : Casing := ⟨id, id⟩

def sampleOption (venueSymbol : String) (expiryUtc : Instant) (right : OptionRight) :
    OptionInstrument where
  exchange := "deribit"
  marketType := "option"
  venueSymbol
  baseAsset := "BTC"
  quoteAsset := "USD"
  expiryUtc
  optionStrike := 100
  optionRight := right
  optionStrike_pos := by norm_num

theorem sampleQuote_event_le : (0 : Instant) ≤ 0 := le_refl 0

def sampleQuote (instrument : OptionInstrument) : OptionQuote where
  instrument
  eventAtUtc := 0
  receivedAtUtc := 0
  underlyingPrice := 100
  markIv := 50
  bidIv := some 49
  askIv := some 51
  openInterest := 10
  delta := none
  event_le := sampleQuote_event_le
  underlyingPrice_pos := by norm_num
  markIv_pos := by norm_num
  openInterest_nonneg := by norm_num
  bidIv_pos := by simp
  askIv_pos := by simp
  delta_mem := by simp

/-- A pair, and a call of a later expiry. -/
def unpairedQuotes : List OptionQuote :=
  [sampleQuote (sampleOption "BTC-C" 864000000000 .call),
    sampleQuote (sampleOption "BTC-P" 864000000000 .put),
    sampleQuote (sampleOption "BTC-LATER-C" 1728000000000 .call)]

def unpairedSnapshot : OptionSurfaceSnapshot where
  asOfUtc := 0
  maxSourceTimestampUtc := 0
  baseAsset := "BTC"
  quoteAsset := "USD"
  acceptedQuoteCount := 3
  rejectedQuoteCount := 1
  rejectionCounts := [("missing_atm_pair", 1)]
  expiries := [⟨864000000000, 10, 100, 50, none, none, none, none, none, 10, 10, some 1, 2⟩]
  nearAtmIv := 50
  termStructureSlopePerYear := none
  impliedRealizedSpread := none
  maxOpenInterestStrike := 100

theorem unpairedQuotes_built :
    buildOptionSurfaceSnapshot sameCasing 0 none {} unpairedQuotes = .ok unpairedSnapshot := by
  decide +kernel

end Greenfield.Features
