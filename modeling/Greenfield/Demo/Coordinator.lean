import Greenfield.Demo.World
import Greenfield.Risk.Portfolio

/-!
# Submitting a proposal

`DemoPaperCoordinator.submit_proposal` of `src/execution/demo_paper_coordinator.py` and
`validate_order_grid` of `src/backtesting/instruments.py`. Calls for one proposal key
share an order and a link id. A call places its order after it wrote `SUBMITTED`, and the
write accepts an order that is already `SUBMITTED`: two calls that both read
`PENDING_SUBMIT` both place (`race_places_twice`). While every write of `SUBMITTED` finds
the order pending, at most one call is past its write (`Exclusive`).
-/

namespace Greenfield.Demo

open Keyed Py Paper Effects Risk

/-- The grid of a symbol. -/
structure SymbolInstrumentSpecs where
  symbol : String
  priceIncrement : ℚ
  sizeIncrement : ℚ
  positive : 0 < priceIncrement ∧ 0 < sizeIncrement

structure DemoPaperConfig where
  allowedSymbols : List String := ["BTCUSDT", "ETHUSDT", "SOLUSDT"]
  maximumDemoNotionalQuote : ℚ := 250
  maximumLimitDeviationBps : ℚ := 500
  maximumProposalAgeSeconds : ℚ := 30
  named : allowedSymbols ≠ [] ∧ ∀ s ∈ allowedSymbols, s ≠ "" ∧ s.toUpper = s
  unique : allowedSymbols.Nodup
  limits : 0 < maximumDemoNotionalQuote ∧ 0 < maximumLimitDeviationBps ∧
    0 < maximumProposalAgeSeconds

structure DemoPaperCoordinator where
  instrumentSpecs : Table SymbolInstrumentSpecs.symbol
  config : DemoPaperConfig

/-- The keyword arguments of `submit_proposal`. -/
structure SubmissionArgs where
  demoNotionalQuote : ℚ
  referencePrice : ℚ
  limitPrice : ℚ
  nowUtc : Datetime

structure DemoSubmissionResult where
  paperOrder : PaperOrderRecord
  orderLinkId : String
  acknowledgement : Option DemoOrderAck
  submittedNow : Bool

/-! ## Validation -/

def validateOrderGrid (symbol : String) (specs : Table SymbolInstrumentSpecs.symbol)
    (price quantity : ℚ) : Except PyError Unit :=
  match specs.find symbol with
  | none => .error (.valueError ("no instrument grid configured for symbol " ++ quoted symbol))
  | some spec => do
    require (0 < price ∧ (price / spec.priceIncrement).isInt)
      (.valueError ("price does not align with " ++ symbol ++ "'s price increment"))
    require (0 < quantity ∧ (quantity / spec.sizeIncrement).isInt)
      (.valueError ("quantity does not align with " ++ symbol ++ "'s size increment"))

/-- The parts around the last occurrence of `sep`. -/
def rpartition (sep : List Char) : List Char → Option (List Char × List Char)
  | [] => none
  | c :: cs =>
    match rpartition sep cs with
    | some (head, tail) => some (c :: head, tail)
    | none => if sep.isPrefixOf (c :: cs) then some ([], (c :: cs).drop sep.length) else none

/-- `_leg_group_id`, for keys with ASCII digits. -/
def legGroupId (proposalKey : String) : Option String :=
  match rpartition ":leg-".toList proposalKey.toList with
  | some (head, tail) =>
    if head ≠ [] ∧ tail ≠ [] ∧ tail.all Char.isDigit then some (String.ofList head) else none
  | none => none

namespace DemoPaperCoordinator

variable (D : Digests) (self : DemoPaperCoordinator)

/-- `_validate_proposal`. -/
def validateProposal (proposal : PortfolioEntryProposal) (args : SubmissionArgs) (now : Instant) :
    Except PyError Unit := do
  require (proposal.venue.toList.map Char.toLower = "bybit".toList)
    (.valueError "Demo PAPER accepts only Bybit proposals")
  require (proposal.symbol ∈ self.config.allowedSymbols)
    (.valueError "Demo PAPER proposal symbol is not allowed")
  require (self.instrumentSpecs.find proposal.symbol).isSome
    (.valueError "Demo PAPER proposal has no instrument grid")
  require (0 < args.demoNotionalQuote ∧
      args.demoNotionalQuote ≤ self.config.maximumDemoNotionalQuote ∧
      args.demoNotionalQuote ≤ |proposal.signedNotional|)
    (.valueError "Demo PAPER notional exceeds its bounded allocation")
  require (0 < args.referencePrice ∧ 0 < args.limitPrice)
    (.valueError "Demo PAPER prices must be finite and positive")
  let deviationBps := |args.limitPrice - args.referencePrice| / args.referencePrice * 10000
  require (deviationBps ≤ self.config.maximumLimitDeviationBps)
    (.valueError "Demo PAPER limit price exceeds the deviation gate")
  require (!(0 < proposal.signedNotional ∧ args.referencePrice ≤ args.limitPrice))
    (.valueError "Demo PAPER BUY smoke limit must be below its reference price")
  require (!(proposal.signedNotional < 0 ∧ args.limitPrice ≤ args.referencePrice))
    (.valueError "Demo PAPER SELL smoke limit must be above its reference price")
  let proposedAt ← utc proposal.proposedAtUtc "Demo PAPER proposal timestamp"
  let age := now - proposedAt
  require (0 ≤ age) (.valueError "Demo PAPER proposal cannot come from the future")
  require ((age : ℚ) ≤ self.config.maximumProposalAgeSeconds * microsPerSecond)
    (.valueError "Demo PAPER proposal is stale")

/-- The part of `submit_proposal` before the first transaction: its time and quantity. -/
def plan (proposal : PortfolioEntryProposal) (args : SubmissionArgs) :
    Except PyError (Instant × ℚ) := do
  let now ← utc args.nowUtc "Demo PAPER submission timestamp"
  self.validateProposal proposal args now
  match self.instrumentSpecs.find proposal.symbol with
  | none => .error (.keyError proposal.symbol)
  | some symbolSpec =>
    let rawQuantity := args.demoNotionalQuote / args.referencePrice
    let quantity := roundDown (rawQuantity / symbolSpec.sizeIncrement) * symbolSpec.sizeIncrement
    require (0 < quantity)
      (.valueError "Demo PAPER notional is below one configured quantity increment")
    validateOrderGrid proposal.symbol self.instrumentSpecs args.limitPrice quantity
    let maximumNotional := max args.referencePrice args.limitPrice * quantity
    require (maximumNotional ≤ self.config.maximumDemoNotionalQuote)
      (.valueError "Demo PAPER quantized order exceeds the notional cap")
    .ok (now, quantity)

/-- `f"{proposal.key}:bybit-demo-v1"`. -/
def idempotencyKeyOf (key : String) : String := key ++ ":bybit-demo-v1"

def sideOf (proposal : PortfolioEntryProposal) : IntentSide :=
  if 0 < proposal.signedNotional then .buy else .sell

/-- The order of a proposal. -/
def orderRequest (proposal : PortfolioEntryProposal) (args : SubmissionArgs) (quantity : ℚ) :
    OrderRequest where
  idempotencyKey := idempotencyKeyOf proposal.key
  symbol := proposal.symbol
  side := sideOf proposal
  quantity
  referencePrice := args.referencePrice
  legGroupId := legGroupId proposal.key

/-- `submit_proposal` once its order is begun. -/
def submitOrder (proposal : PortfolioEntryProposal) (args : SubmissionArgs) (now : Instant)
    (quantity : ℚ) (paperOrder : PaperOrderRecord) : DemoProg DemoSubmissionResult := do
  let orderLinkId ← Prog.lift (demoOrderLinkIdFor D paperOrder.clientOrderId)
  if paperOrder.state ≠ .pendingSubmit then
    return { paperOrder, orderLinkId, acknowledgement := none, submittedNow := false }
  else
    -- Write-ahead before the network call.
    let paperOrder ← askOrders (.markSubmitted paperOrder.clientOrderId (.ofInstant now))
    let acknowledgement ← place now paperOrder.clientOrderId
      { orderLinkId, symbol := proposal.symbol, side := sideOf proposal, quantity
        orderType := .postOnly args.limitPrice }
    Prog.check (acknowledgement.orderLinkId = orderLinkId)
      (.bybitDemoGateway "Demo acknowledgement identity mismatch")
    return { paperOrder, orderLinkId, acknowledgement := some acknowledgement, submittedNow := true }

def submitProposal (proposal : PortfolioEntryProposal) (args : SubmissionArgs) :
    DemoProg DemoSubmissionResult := do
  let (now, quantity) ← Prog.lift (self.plan proposal args)
  let paperOrder ← askOrders (.beginOrder (orderRequest proposal args quantity) (.ofInstant now))
  submitOrder D proposal args now quantity paperOrder

end DemoPaperCoordinator

/-! ## Calls for one proposal -/

section

variable (D : Digests) (key : String)

/-- The client order id of a proposal key. -/
def clientIdOf : String :=
  "paper-" ++ D.uuid5Hex clientOrderIdNamespace (DemoPaperCoordinator.idempotencyKeyOf key)

/-- Any call of `submit_proposal` for the key. -/
def Submitting (p : DemoProg DemoSubmissionResult) : Prop :=
  ∃ (self : DemoPaperCoordinator) (proposal : PortfolioEntryProposal) (args : SubmissionArgs),
    proposal.key = key ∧ p = self.submitProposal D proposal args

/-- Operations that answer anything, where `SUBMITTED` is written only over
`PENDING_SUBMIT`. -/
def firstMark : Sem Op Op.Res PyError World := fun o w r w' =>
  exec D (fun _ _ _ => True) o w r w' ∧
    match o with
    | .orders (.markSubmitted c _) =>
      ∃ o, w.orders.orders.find c = some o ∧ o.state = .pendingSubmit
    | _ => True

variable {D key} {α : Type}

/-! ### Stages of a call -/

/-- The call has ended. -/
def Ended : DemoProg α → Prop
  | .call _ _ => False
  | _ => True

/-- The next operation places the order with link `l`. -/
def poised (l : String) : DemoProg α → Bool
  | .call (.place _ _ request) _ => request.orderLinkId = l
  | _ => false

inductive Stage (D : Digests) (c : String) (key : String) : DemoProg α → Prop where
  | ended {p : DemoProg α} (h : Ended p) : Stage D c key p
  | place {now : Instant} {c' : String} {request : PlaceRequest}
      {k : Except PyError DemoOrderAck → DemoProg α} (hl : request.orderLinkId = linkOf D c)
      (hk : ∀ r, Ended (k r)) : Stage D c key (.call (.place now c' request) k)
  | mark {now : Datetime} {k : Except PyError PaperOrderRecord → DemoProg α}
      (hok : ∀ r, Stage D c key (k (.ok r))) (herr : ∀ e, Ended (k (.error e))) :
      Stage D c key (.call (.orders (.markSubmitted c now)) k)
  | begin {req : OrderRequest} {now : Datetime} {k : Except PyError PaperOrderRecord → DemoProg α}
      (hreq : req.idempotencyKey = key)
      (hok : ∀ r, r.clientOrderId = c → Stage D c key (k (.ok r)))
      (hnot : ∀ r, poised (linkOf D c) (k r) = false)
      (herr : ∀ e, Ended (k (.error e))) :
      Stage D c key (.call (.orders (.beginOrder req now)) k)

variable {l : String}

theorem poised_of_ended {p : DemoProg α} (h : Ended p) : poised l p = false := by
  cases p with
  | ret a => rfl
  | raise e => rfl
  | call o k => exact h.elim

theorem isBlank_clientIdOf : isBlank (clientIdOf D key) = false := by
  simp [clientIdOf, isBlank, isSpace, String.toList_append]

variable {proposal : PortfolioEntryProposal} {args : SubmissionArgs} {quantity : ℚ}

variable {r : PaperOrderRecord} {now : Instant}

/-- A begun order is marked and placed under its link, or nothing more is done. -/
theorem stage_submitOrder
    (hr : r.clientOrderId = clientIdOf D key) :
    Stage D (clientIdOf D key) (DemoPaperCoordinator.idempotencyKeyOf key)
      (DemoPaperCoordinator.submitOrder D proposal args now quantity r) := by
  have hlink : demoOrderLinkIdFor D r.clientOrderId = .ok (linkOf D (clientIdOf D key)) :=
    demoOrderLinkIdFor_eq_ok.mpr ⟨hr ▸ isBlank_clientIdOf, hr ▸ rfl⟩
  unfold DemoPaperCoordinator.submitOrder
  rw [hlink, Prog.lift_ok_bind]
  split
  · exact .ended trivial
  · rw [hr]
    refine .mark (fun r => .place rfl fun ack => ?_) fun e => trivial
    cases ack with
    | error e => exact trivial
    | ok ack =>
      change Ended (Prog.check _ _ >>= _)
      unfold Prog.check
      split <;> exact trivial

theorem poised_submitOrder
    :
    poised l (DemoPaperCoordinator.submitOrder D proposal args now quantity r) = false := by
  unfold DemoPaperCoordinator.submitOrder
  cases demoOrderLinkIdFor D r.clientOrderId with
  | error e => rfl
  | ok l =>
    rw [Prog.lift_ok_bind]
    split <;> rfl

/-- Every call starts before its `begin_order`, or raises. -/
theorem stage_submitProposal {p : DemoProg DemoSubmissionResult} (h : Submitting D key p) :
    Stage D (clientIdOf D key) (DemoPaperCoordinator.idempotencyKeyOf key) p ∧
      poised (linkOf D (clientIdOf D key)) p = false := by
  obtain ⟨self, proposal, args, hkey, rfl⟩ := h
  unfold DemoPaperCoordinator.submitProposal
  cases hplan : self.plan proposal args with
  | error e => exact ⟨.ended trivial, rfl⟩
  | ok nq =>
    refine ⟨.begin (hkey ▸ rfl) (fun r hr => stage_submitOrder hr) (fun r => ?_) (fun e => trivial),
      rfl⟩
    cases r with
    | error e => rfl
    | ok r => exact poised_submitOrder

/-! ### At most one call past its write -/

/-- The calls that were made for the link `l`. -/
def placements (l : String) (w : World) : Nat :=
  w.calls.countP fun x => x.request.orderLinkId = l

/-- One call at most is past its write, and none while the order is pending. -/
structure Exclusive (D : Digests) (c key : String) (pool : World × List (DemoProg α)) : Prop where
  stages : ∀ p ∈ pool.2, Stage D c key p
  once : placements (linkOf D c) pool.1 + pool.2.countP (poised (linkOf D c)) ≤ 1
  unmarked : ¬ pool.1.orders.Marked c →
    placements (linkOf D c) pool.1 + pool.2.countP (poised (linkOf D c)) = 0

variable {w w' : World}

variable {ps qs : List (DemoProg α)} {p p' : DemoProg α}

/-- How the count changes when one program of the pool moves. -/
theorem count_move {n : Nat}
    (hw : placements l w' = placements l w + n) :
    placements l w' + (ps ++ p' :: qs).countP (poised l) + (poised l p).toNat =
      placements l w + (ps ++ p :: qs).countP (poised l) + n + (poised l p').toNat := by
  have hsplit : ∀ x : DemoProg α, (ps ++ x :: qs).countP (poised l) =
      ps.countP (poised l) + qs.countP (poised l) + (poised l x).toNat := by
    intro x
    rw [List.countP_append, List.countP_cons]
    cases poised l x with
    | true => exact (Nat.add_assoc _ _ _).symm
    | false => rfl
  have hp := hsplit p
  have hp' := hsplit p'
  omega

/-- The program of a pool that moved keeps the others' stages. -/
theorem stages_split {c key : String}
    (h : ∀ q ∈ ps ++ p :: qs, Stage D c key q) (hp : Stage D c key p') :
    ∀ q ∈ ps ++ p' :: qs, Stage D c key q := by
  intro q hq
  rcases List.mem_append.mp hq with hq | hq
  · exact h q (List.mem_append_left _ hq)
  · rcases List.mem_cons.mp hq with rfl | hq
    · exact hp
    · exact h q (List.mem_append_right _ (List.mem_cons_of_mem _ hq))

variable {obs : Answers} {now : Datetime} {r : Except PyError PaperOrderRecord}

open PaperOrderStore in
/-- A begun order has the id of its key, and no order became pending again. -/
theorem exec_beginOrder {req : OrderRequest}
    (h : exec D obs (.orders (.beginOrder req now)) w r w') :
    w'.calls = w.calls ∧ (∀ c, w.orders.Marked c → w'.orders.Marked c) ∧
      ∀ a, r = .ok a → a.clientOrderId =
        "paper-" ++ D.uuid5Hex clientOrderIdNamespace req.idempotencyKey := by
  obtain ⟨s', ho, rfl⟩ := h
  refine ⟨rfl, ?_⟩
  rcases outcome_cases ho with ⟨a, rfl, hok⟩ | ⟨e, rfl, -, rfl⟩
  · refine ⟨fun c hm => ?_, fun b hb => ?_⟩
    · rcases change_of_beginOrder hok with rfl | hc
      · exact hm
      · exact marked_change hc hm
    · cases hb
      obtain ⟨c, now', hv, hor⟩ := beginOrder_eq_ok.mp hok
      have hc := (clientOrderIdFor_eq_ok.mp hv.2.2.2.1).2
      rcases hor with ⟨hf, -, -⟩ | ⟨-, -, rfl, -⟩
      · obtain ⟨o, hfind, rfl⟩ := fetch_eq_some.mp hf
        exact (Table.find_key hfind).trans hc
      · exact hc
  · exact ⟨fun c hm => hm, fun b hb => by cases hb⟩

open PaperOrderStore in
theorem exec_markSubmitted {c : String}
    (h : exec D obs (.orders (.markSubmitted c now)) w r w') :
    w'.calls = w.calls ∧ (∀ a, r = .ok a → w'.orders.Marked c) ∧
      ∀ e, r = .error e → w'.orders = w.orders := by
  obtain ⟨s', ho, rfl⟩ := h
  refine ⟨rfl, ?_⟩
  rcases outcome_cases ho with ⟨a, rfl, hok⟩ | ⟨e, rfl, -, rfl⟩
  · refine ⟨fun _ _ => ?_, fun _ he => by cases he⟩
    obtain ⟨now', o, -, hfind, -, -, rfl⟩ := markSubmitted_eq_ok.mp hok
    exact ⟨submitRow now' o, by rw [find_updateOrder, if_pos rfl, hfind]; rfl, nofun⟩
  · exact ⟨fun _ ha => (by cases ha), fun _ _ => rfl⟩

section

variable {w w' : World} {ps qs : List (DemoProg α)} {p p' : DemoProg α} {c : String}

/-- A program moves without a call, and is not poised after. -/
theorem Exclusive.quiet (h : Exclusive D c key (w, ps ++ p :: qs)) (hst : Stage D c key p')
    (hcalls : w'.calls = w.calls) (hmono : w.orders.Marked c → w'.orders.Marked c)
    (hp' : poised (linkOf D c) p' = false) : Exclusive D c key (w', ps ++ p' :: qs) := by
  have hplace : placements (linkOf D c) w' = placements (linkOf D c) w + 0 := by
    rw [placements, hcalls]; rfl
  have hmove := @count_move _ _ _ _ ps qs p p' _ hplace
  rw [hp', Bool.toNat_false] at hmove
  refine ⟨stages_split h.stages hst, ?_, fun hm => ?_⟩
  · have := h.once
    simp only at this ⊢
    omega
  · have := h.unmarked fun hmark => hm (hmono hmark)
    simp only at this ⊢
    omega

/-- The first write of `SUBMITTED`, when nothing is past it. -/
theorem Exclusive.mark (h : Exclusive D c key (w, ps ++ p :: qs)) (hst : Stage D c key p')
    (hcalls : w'.calls = w.calls) (hpend : ¬ w.orders.Marked c) (hmark : w'.orders.Marked c) :
    Exclusive D c key (w', ps ++ p' :: qs) := by
  have hplace : placements (linkOf D c) w' = placements (linkOf D c) w + 0 := by
    rw [placements, hcalls]; rfl
  have hmove := @count_move _ _ _ _ ps qs p p' _ hplace
  have hzero := h.unmarked hpend
  have hle := Bool.toNat_le (poised (linkOf D c) p')
  refine ⟨stages_split h.stages hst, ?_, fun hm => absurd hmark hm⟩
  simp only at hzero ⊢
  omega

/-- A poised program places. -/
theorem Exclusive.place (h : Exclusive D c key (w, ps ++ p :: qs)) (hst : Stage D c key p')
    (hplace : placements (linkOf D c) w' = placements (linkOf D c) w + 1)
    (horders : w'.orders = w.orders) (hp : poised (linkOf D c) p = true)
    (hp' : poised (linkOf D c) p' = false) : Exclusive D c key (w', ps ++ p' :: qs) := by
  have hmove := @count_move _ _ _ _ ps qs p p' _ hplace
  rw [hp, hp', Bool.toNat_true, Bool.toNat_false] at hmove
  refine ⟨stages_split h.stages hst, ?_, fun hm => ?_⟩
  · have := h.once
    simp only at this ⊢
    omega
  · have := h.unmarked (horders ▸ hm)
    simp only at this ⊢
    omega

end

/-- **Every step of a pool keeps the calls exclusive.** -/
theorem exclusive_step {pool pool' : World × List (DemoProg DemoSubmissionResult)}
    (hs : PoolStep (firstMark D) (Submitting D key) pool pool')
    (h : Exclusive D (clientIdOf D key) (DemoPaperCoordinator.idempotencyKeyOf key) pool) :
    Exclusive D (clientIdOf D key) (DemoPaperCoordinator.idempotencyKeyOf key) pool' := by
  cases hs with
  | @spawn w ps p hp =>
    obtain ⟨hp, hnot⟩ := stage_submitProposal hp
    have hcount : (p :: ps).countP (poised (linkOf D (clientIdOf D key))) =
        ps.countP (poised (linkOf D (clientIdOf D key))) := by
      rw [List.countP_cons, hnot]; rfl
    refine ⟨fun q hq => ?_, ?_, fun hm => ?_⟩
    · rcases List.mem_cons.mp hq with rfl | hq
      · exact hp
      · exact h.stages q hq
    · rw [hcount]; exact h.once
    · rw [hcount]; exact h.unmarked hm
  | @op w w' o k r ps qs hx =>
    obtain ⟨hx, hfirst⟩ := hx
    cases h.stages _ (List.mem_append_right _ List.mem_cons_self) with
    | ended h => exact h.elim
    | @begin req now k hreq hok hnot herr =>
      obtain ⟨hcalls, hmono, hid⟩ := exec_beginOrder hx
      have hnext : Stage D (clientIdOf D key) (DemoPaperCoordinator.idempotencyKeyOf key) (k r) := by
        cases r with
        | error e => exact .ended (herr e)
        | ok a => exact hok a ((hid a rfl).trans (by rw [hreq]; rfl))
      exact h.quiet hnext hcalls (hmono _) (hnot r)
    | @mark now k hok herr =>
      obtain ⟨hcalls, hmarked, hsame⟩ := exec_markSubmitted hx
      obtain ⟨x, hfind, hpend⟩ := hfirst
      cases r with
      | error e =>
        exact h.quiet (.ended (herr e)) hcalls (fun hm => hsame e rfl ▸ hm) (poised_of_ended (herr e))
      | ok a =>
        refine h.mark (hok a) hcalls ?_ (hmarked a rfl)
        rintro ⟨y, hy, hne⟩
        rw [hfind] at hy
        cases hy
        exact hne hpend
    | @place now c' request k hl hk =>
      obtain ⟨received, rfl, -⟩ := hx
      refine h.place (.ended (hk r)) ?_ rfl (decide_eq_true hl) (poised_of_ended (hk r))
      rw [placements, List.countP_append, List.countP_singleton, if_pos (decide_eq_true hl)]
      rfl

/-- **One placement for each proposal.** Whatever calls for a key do, in any order and
stopped anywhere, at most one of them places, as long as `SUBMITTED` is written only over
`PENDING_SUBMIT`. -/
theorem one_placement (D : Digests) (key : String) (init : World) (hinit : init.calls = [])
    (pool : World × List (DemoProg DemoSubmissionResult))
    (h : PoolReach (firstMark D) (Submitting D key) init pool) :
    placements (linkOf D (clientIdOf D key)) pool.1 ≤ 1 := by
  have h0 : Exclusive D (clientIdOf D key) (DemoPaperCoordinator.idempotencyKeyOf key)
      (init, ([] : List (DemoProg DemoSubmissionResult))) := by
    have hnone : placements (linkOf D (clientIdOf D key)) init = 0 := by rw [placements, hinit]; rfl
    exact ⟨nofun, by rw [hnone]; exact Nat.zero_le 1, fun _ => by rw [hnone]; rfl⟩
  have hex := PoolReach.invariant h0 (fun _ _ hs hc => exclusive_step hs hc) h
  exact Nat.le_of_add_right_le hex.once

end

/-! ### Two calls at once -/

def smokeProposal : PortfolioEntryProposal := sampleProposal "smoke:leg-0" "BTCUSDT" (by decide)

def smokeCoordinator : DemoPaperCoordinator where
  instrumentSpecs := ⟨[⟨"BTCUSDT", 1 / 10, 1 / 1000, by decide +kernel⟩], by decide⟩
  config :=
    { named := by decide +kernel
      unique := by decide
      limits := by decide +kernel }

/-- A limit buy of 0.002 below the reference price. -/
def smokeSubmission : DemoProg DemoSubmissionResult :=
  smokeCoordinator.submitProposal sampleDigests smokeProposal ⟨100, 50000, 49990, .ofInstant 0⟩

theorem submitting_smoke : ∀ p ∈ [smokeSubmission, smokeSubmission],
    Submitting sampleDigests "smoke:leg-0" p := by
  intro p hp
  have hp : p = smokeSubmission := by simpa using hp
  exact ⟨smokeCoordinator, smokeProposal, _, rfl, hp⟩

/-- No query is answered. -/
def unanswered (_ : World) (q : Query) : Except PyError q.Res :=
  .error (.bybitDemoGateway "unavailable")

/-- The condition of `firstMark`, decided. -/
def pendingAtMark (o : Op) (w : World) : Bool :=
  match o with
  | .orders (.markSubmitted c _) =>
    ((w.orders.orders.find c).map OrderRow.state) = some .pendingSubmit
  | _ => true

theorem firstMark_handle (o : Op) (w : World) (h : pendingAtMark o w = true) :
    firstMark sampleDigests o w (handle sampleDigests unanswered o w).1
      (handle sampleDigests unanswered o w).2 := by
  refine ⟨exec_handle (fun _ _ => trivial) o w, ?_⟩
  split
  · simpa [pendingAtMark, Option.map_eq_some_iff] using h
  · trivial

/-- The second call finds the order submitted and does not place. -/
theorem one_placement_smoke :
    placements (linkOf sampleDigests (clientIdOf sampleDigests "smoke:leg-0"))
        (runPool pendingAtMark (handle sampleDigests unanswered) [0, 0, 1, 0] .empty
          [smokeSubmission, smokeSubmission]).1 ≤ 1 ∧
      (runPool pendingAtMark (handle sampleDigests unanswered) [0, 0, 1, 0] .empty
        [smokeSubmission, smokeSubmission]).1.calls.length = 1 :=
  ⟨one_placement sampleDigests "smoke:leg-0" .empty rfl _
    (poolReach_runPool pendingAtMark (handle sampleDigests unanswered) firstMark_handle
      submitting_smoke [0, 0, 1, 0]), by decide +kernel⟩

/-- Both calls read the pending order before either places: both place. -/
theorem race_places_twice : ¬ ∀ (key : String) (init : World)
    (pool : World × List (DemoProg DemoSubmissionResult)), init.calls = [] →
    PoolReach (exec sampleDigests fun _ _ _ => True) (Submitting sampleDigests key) init pool →
    placements (linkOf sampleDigests (clientIdOf sampleDigests key)) pool.1 ≤ 1 := by
  intro h
  have htwo : placements (linkOf sampleDigests (clientIdOf sampleDigests "smoke:leg-0"))
      (runPool (fun _ _ => true) (handle sampleDigests unanswered) [0, 1, 0, 1, 0, 1] .empty
        [smokeSubmission, smokeSubmission]).1 = 2 := by decide +kernel
  have hone := h "smoke:leg-0" .empty _ rfl (poolReach_runPool (fun _ _ => true)
    (handle sampleDigests unanswered) (fun o w _ => exec_handle (fun _ _ => trivial) o w)
    submitting_smoke [0, 1, 0, 1, 0, 1])
  rw [htwo] at hone
  omega

end Greenfield.Demo
