import Greenfield.Lib.AsOf
import Greenfield.Paper.Store
import Mathlib.Data.List.Forall2
import Mathlib.Data.Prod.Lex

/-!
# The join of orders and quotes

`join_orders_to_prior_quotes` of `src/execution/calibration.py`. The quotes of a market are sorted
once and searched by bisection; each order gets the latest quote of its market at or before its
decision (`join_latest`). `str.lower` is a parameter.
-/

namespace Greenfield.Execution

open AsOf Paper Py

-- the order of the integers that computes, whatever is imported
local instance quoteIntLinearOrder : LinearOrder ℤ := Int.instLinearOrder

structure TopOfBookQuote where
  symbol : String
  venue : String
  timestampUtc : Instant
  sourceSequence : ℤ
  bidPrice : ℚ
  askPrice : ℚ
  bidQuantity : ℚ
  askQuantity : ℚ
  named : isBlank symbol = false ∧ isBlank venue = false
  sequenced : 0 ≤ sourceSequence
  positive : 0 < bidPrice ∧ 0 < askPrice ∧ 0 < bidQuantity ∧ 0 < askQuantity
  uncrossed : bidPrice < askPrice

structure PaperOrderObservation where
  orderId : String
  symbol : String
  venue : String
  side : IntentSide
  requestedQuantity : ℚ
  decisionTimestampUtc : Instant
  submittedAtUtc : Instant
  resolvedAtUtc : Instant
  filledPrice : ℚ
  filledQuantity : ℚ
  rejected : Bool
  feeCostQuote : ℚ
  fundingCostQuote : ℚ
  named : isBlank orderId = false ∧ isBlank symbol = false ∧ isBlank venue = false
  monotonic : decisionTimestampUtc ≤ submittedAtUtc ∧ submittedAtUtc ≤ resolvedAtUtc
  requested : 0 < requestedQuantity
  unfilled : rejected = true → filledPrice = 0 ∧ filledQuantity = 0
  filled : rejected = false →
    0 < filledPrice ∧ 0 < filledQuantity ∧ filledQuantity ≤ requestedQuantity

inductive JoinIssue where
  | missingQuote
  | staleQuote
  deriving DecidableEq

structure JoinedExecutionObservation where
  order : PaperOrderObservation
  quote : Option TopOfBookQuote
  quoteAgeSeconds : Option ℚ
  issue : Option JoinIssue

/-- `valid_for_cost_calibration`. -/
def JoinedExecutionObservation.validForCostCalibration (o : JoinedExecutionObservation) : Bool :=
  !o.order.rejected && o.quote.isSome && o.issue.isNone

/-- `(symbol, venue.lower())`. -/
abbrev Market := String × String

def TopOfBookQuote.market (lower : String → String) (q : TopOfBookQuote) : Market :=
  (q.symbol, lower q.venue)

def PaperOrderObservation.market (lower : String → String) (o : PaperOrderObservation) : Market :=
  (o.symbol, lower o.venue)

/-- `(timestamp_utc, source_sequence)`. -/
def TopOfBookQuote.identity (q : TopOfBookQuote) : ℤ ×ₗ ℤ := toLex (q.timestampUtc, q.sourceSequence)

def quoteLe (a b : TopOfBookQuote) : Bool := a.identity ≤ b.identity

/-- The quotes of a market, in their order in the input. -/
def marketQuotes (lower : String → String) (quotes : List TopOfBookQuote) (market : Market) :
    List TopOfBookQuote :=
  quotes.filter fun q => q.market lower = market

/-- A group of `_group_and_sort_quotes`; a market without quotes has none. -/
def quoteGroup (lower : String → String) (quotes : List TopOfBookQuote) (market : Market) :
    List TopOfBookQuote :=
  sorted quoteLe (marketQuotes lower quotes market)

/-- The check of `_group_and_sort_quotes`. -/
def identitiesUnique (lower : String → String) (quotes : List TopOfBookQuote) : Bool :=
  quotes.all fun q => ((marketQuotes lower quotes (q.market lower)).map (·.identity)).Nodup

/-- `(decision - quote.timestamp_utc).total_seconds()`. -/
def quoteAge (order : PaperOrderObservation) (quote : TopOfBookQuote) : ℚ :=
  (order.decisionTimestampUtc - quote.timestampUtc : ℤ) / microsPerSecond

/-- The body of the loop over the orders. -/
def joinOrder (lower : String → String) (quotes : List TopOfBookQuote)
    (maximumQuoteAgeSeconds : ℚ) (order : PaperOrderObservation) : JoinedExecutionObservation :=
  let group := quoteGroup lower quotes (order.market lower)
  let index := bisectRight (group.map fun q => (q.timestampUtc : ℤ)) order.decisionTimestampUtc
  -- `index - 1 < 0`
  match if index = 0 then none else group[index - 1]? with
  | none => ⟨order, none, none, some .missingQuote⟩
  | some quote =>
    let age := quoteAge order quote
    ⟨order, some quote, some age, if maximumQuoteAgeSeconds < age then some .staleQuote else none⟩

/-- `join_orders_to_prior_quotes`. -/
def joinOrdersToPriorQuotes (lower : String → String) (orders : List PaperOrderObservation)
    (quotes : List TopOfBookQuote) (maximumQuoteAgeSeconds : ℚ) :
    Except PyError (List JoinedExecutionObservation) :=
  if maximumQuoteAgeSeconds ≤ 0 then
    .error (.valueError "maximum quote age must be finite and positive")
  else if ¬ (orders.map (·.orderId)).Nodup then .error (.valueError "paper order ids must be unique")
  else if !identitiesUnique lower quotes then
    .error (.valueError "top-of-book timestamp and sequence must be unique per market")
  else .ok (orders.map (joinOrder lower quotes maximumQuoteAgeSeconds))

/-! ## The naive join -/

/-- The quotes of the order's market that are known when it is decided. -/
def priorQuotes (lower : String → String) (quotes : List TopOfBookQuote)
    (order : PaperOrderObservation) : List TopOfBookQuote :=
  quotes.filter fun q =>
    q.market lower = order.market lower ∧ q.timestampUtc ≤ order.decisionTimestampUtc

/-- What is joined: the latest of the prior quotes with its age, or none. -/
inductive JoinedWith (lower : String → String) (quotes : List TopOfBookQuote)
    (maximumQuoteAgeSeconds : ℚ) (order : PaperOrderObservation) :
    JoinedExecutionObservation → Prop where
  | missing (h : priorQuotes lower quotes order = []) :
      JoinedWith lower quotes maximumQuoteAgeSeconds order ⟨order, none, none, some .missingQuote⟩
  | prior (q : TopOfBookQuote)
      (h : Latest TopOfBookQuote.identity (priorQuotes lower quotes order) q) :
      JoinedWith lower quotes maximumQuoteAgeSeconds order
        ⟨order, some q, some (quoteAge order q),
          if maximumQuoteAgeSeconds < quoteAge order q then some .staleQuote else none⟩

variable {lower : String → String} {quotes : List TopOfBookQuote}

theorem quoteLe_total (a b : TopOfBookQuote) : quoteLe a b = true ∨ quoteLe b a = true := by
  simpa [quoteLe] using le_total a.identity b.identity

theorem quoteLe_trans (a b c : TopOfBookQuote) (h : quoteLe a b = true) (h' : quoteLe b c = true) :
    quoteLe a c = true := by
  simp only [quoteLe, decide_eq_true_eq] at *
  exact h.trans h'

theorem pairwise_quoteGroup (lower : String → String) (quotes : List TopOfBookQuote)
    (market : Market) :
    (quoteGroup lower quotes market).Pairwise fun a b => a.identity ≤ b.identity :=
  (pairwise_sorted quoteLe quoteLe_total quoteLe_trans _).imp fun h => by simpa [quoteLe] using h

/-- Identities rise with the time. -/
theorem timestamp_le {a b : TopOfBookQuote} (h : a.identity ≤ b.identity) :
    (a.timestampUtc : ℤ) ≤ b.timestampUtc := by
  rcases (Prod.Lex.le_iff ..).mp h with h | ⟨h, -⟩
  · exact h.le
  · exact h.le

/-- The quotes of the group up to the decision are the prior quotes. -/
theorem mem_upTo_quoteGroup {order : PaperOrderObservation} {q : TopOfBookQuote} :
    q ∈ upTo (fun q : TopOfBookQuote => (q.timestampUtc : ℤ))
        (quoteGroup lower quotes (order.market lower)) order.decisionTimestampUtc ↔
      q ∈ priorQuotes lower quotes order := by
  rw [mem_upTo, quoteGroup, mem_sorted]
  unfold marketQuotes priorQuotes
  simp only [List.mem_filter, decide_eq_true_eq]
  exact and_assoc

/-- **Bisection finds the latest prior quote.** -/
theorem joinedWith_joinOrder (lower : String → String) (quotes : List TopOfBookQuote)
    (maximumQuoteAgeSeconds : ℚ) (order : PaperOrderObservation) :
    JoinedWith lower quotes maximumQuoteAgeSeconds order
      (joinOrder lower quotes maximumQuoteAgeSeconds order) := by
  have hsorted := pairwise_quoteGroup lower quotes (order.market lower)
  unfold joinOrder
  dsimp only
  rw [← backward_eq_getElem (hsorted.imp timestamp_le), backward]
  split
  · next hnone =>
    refine .missing (List.eq_nil_iff_forall_not_mem.mpr fun q hq => ?_)
    rw [List.getLast?_eq_none_iff] at hnone
    exact absurd (mem_upTo_quoteGroup.mpr hq) (by rw [hnone]; exact List.not_mem_nil)
  · next q hlast =>
    have hlatest : Latest TopOfBookQuote.identity _ q :=
      latest_getLast (hsorted.sublist List.filter_sublist) hlast
    exact .prior q (hlatest.congr fun _ => mem_upTo_quoteGroup)

/-! ## The order of the input -/

/-- The keys are distinct, and the age is one. -/
structure Joinable (lower : String → String) (orders : List PaperOrderObservation)
    (quotes : List TopOfBookQuote) (maximumQuoteAgeSeconds : ℚ) : Prop where
  age : 0 < maximumQuoteAgeSeconds
  orders : (orders.map (·.orderId)).Nodup
  quotes : ∀ market, ((marketQuotes lower quotes market).map (·.identity)).Nodup

theorem identitiesUnique_iff : identitiesUnique lower quotes = true ↔
    ∀ market, ((marketQuotes lower quotes market).map (·.identity)).Nodup := by
  unfold identitiesUnique
  simp only [List.all_eq_true, decide_eq_true_eq]
  constructor
  · intro h market
    cases hquotes : marketQuotes lower quotes market with
    | nil => exact List.nodup_nil
    | cons q rest =>
      have hq : q ∈ marketQuotes lower quotes market := by
        rw [hquotes]
        exact List.mem_cons_self
      obtain ⟨hmem, hmarket⟩ := List.mem_filter.mp hq
      rw [← hquotes, ← of_decide_eq_true hmarket]
      exact h q hmem
  · exact fun h q _ => h _

variable {orders orders' : List PaperOrderObservation} {quotes' : List TopOfBookQuote}
  {maximumQuoteAgeSeconds : ℚ}

theorem join_ok (h : Joinable lower orders quotes maximumQuoteAgeSeconds) :
    joinOrdersToPriorQuotes lower orders quotes maximumQuoteAgeSeconds =
      .ok (orders.map (joinOrder lower quotes maximumQuoteAgeSeconds)) := by
  unfold joinOrdersToPriorQuotes
  rw [if_neg (not_le.mpr h.age), if_neg (not_not.mpr h.orders),
    identitiesUnique_iff.mpr h.quotes]
  rfl

theorem join_refused (h : ¬ Joinable lower orders quotes maximumQuoteAgeSeconds) :
    ∃ e, joinOrdersToPriorQuotes lower orders quotes maximumQuoteAgeSeconds = .error e := by
  unfold joinOrdersToPriorQuotes
  split
  · exact ⟨_, rfl⟩
  · next hage =>
    split
    · exact ⟨_, rfl⟩
    · next horders =>
      split
      · exact ⟨_, rfl⟩
      · next hquotes =>
        refine absurd ⟨not_le.mp hage, not_not.mp horders, identitiesUnique_iff.mp ?_⟩ h
        simpa using hquotes

theorem Joinable.perm (h : Joinable lower orders quotes maximumQuoteAgeSeconds)
    (horders : orders.Perm orders') (hquotes : quotes.Perm quotes') :
    Joinable lower orders' quotes' maximumQuoteAgeSeconds :=
  ⟨h.age, (horders.map _).nodup_iff.mp h.orders,
    fun market => (((hquotes.filter _).map _).nodup_iff).mp (h.quotes market)⟩

/-- Where identities are distinct, the group does not depend on the order of the quotes. -/
theorem quoteGroup_perm (h : Joinable lower orders quotes maximumQuoteAgeSeconds)
    (hquotes : quotes.Perm quotes') (market : Market) :
    quoteGroup lower quotes' market = quoteGroup lower quotes market := by
  have hperm : (marketQuotes lower quotes' market).Perm (quoteGroup lower quotes market) :=
    (hquotes.symm.filter _).trans (List.perm_insertionSort _ _).symm
  refine sorted_eq_of_perm quoteLe_total quoteLe_trans hperm
    (pairwise_sorted quoteLe quoteLe_total quoteLe_trans _) fun a ha b hb hab hba => ?_
  simp only [quoteLe, decide_eq_true_eq] at hab hba
  exact List.inj_on_of_nodup_map (h.quotes market) (mem_sorted.mp ha) (mem_sorted.mp hb)
    (le_antisymm hab hba)

/-- **The join** gives each order the latest quote of its market at or before its decision, or none
where there is none, whatever the order of the orders and of the quotes; it refuses keys that are
not distinct. -/
theorem join_latest (lower : String → String) (orders : List PaperOrderObservation)
    (quotes : List TopOfBookQuote) (maximumQuoteAgeSeconds : ℚ) :
    (Joinable lower orders quotes maximumQuoteAgeSeconds →
      ∃ joined, joinOrdersToPriorQuotes lower orders quotes maximumQuoteAgeSeconds = .ok joined ∧
        List.Forall₂ (JoinedWith lower quotes maximumQuoteAgeSeconds) orders joined ∧
        ∀ orders' quotes', orders.Perm orders' → quotes.Perm quotes' →
          ∃ joined',
            joinOrdersToPriorQuotes lower orders' quotes' maximumQuoteAgeSeconds = .ok joined' ∧
            joined.Perm joined' ∧ (orders' = orders → joined' = joined)) ∧
    (¬ Joinable lower orders quotes maximumQuoteAgeSeconds →
      ∃ e, joinOrdersToPriorQuotes lower orders quotes maximumQuoteAgeSeconds = .error e) := by
  refine ⟨fun h => ⟨_, join_ok h, ?_, fun orders' quotes' horders hquotes => ?_⟩, join_refused⟩
  · rw [List.forall₂_map_right_iff, List.forall₂_same]
    exact fun order _ => joinedWith_joinOrder lower quotes maximumQuoteAgeSeconds order
  · have hsame : joinOrder lower quotes' maximumQuoteAgeSeconds =
        joinOrder lower quotes maximumQuoteAgeSeconds := by
      funext order
      unfold joinOrder
      rw [quoteGroup_perm h hquotes]
    refine ⟨_, join_ok (h.perm horders hquotes), ?_, ?_⟩
    · rw [hsame]
      exact horders.map _
    · rintro rfl
      rw [hsame]

end Greenfield.Execution
