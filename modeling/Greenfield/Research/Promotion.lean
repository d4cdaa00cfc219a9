import Greenfield.Lib.Run
import Greenfield.Lib.Table
import Greenfield.Py.Basic
import Mathlib.Data.List.Induction

/-!
# Promotion

The registry of candidates of `src/research/promotion.py`. Every operation appends one event
to the history of one candidate, or two where a degraded candidate is retired, or it raises
and changes nothing (`apply_moves`). So every history is a chain, a champion was approved by
a human, and a challenger of two or more families has passed the independence gate
(`promotion_history`).
-/

namespace Greenfield.Research

open Keyed Py

/-! ## Candidates -/

/-- `STATUSES`. -/
inductive PromotionStatus where
  | rejected
  | researchCandidate
  | paperChallenger
  | paperChampion
  | degraded
  | retired
  deriving DecidableEq, Repr

inductive ConfirmationFamily where
  | priceAuction
  | orderFlow
  | derivatives
  | volatilityOptions
  | crossMarket
  | regimeAnalog
  deriving DecidableEq, Repr

structure TransitionEvent where
  fromStatus : Option PromotionStatus
  toStatus : PromotionStatus
  reason : String
  /-- `at`. -/
  madeAt : Instant
  humanApprovedBy : Option String
  deriving DecidableEq, Repr

structure CandidateState where
  candidateId : String
  status : PromotionStatus
  history : List TransitionEvent := []
  paperStartedAt : Option Instant := none
  consecutiveDegradedReviews : Int := 0
  confirmationFamilies : List ConfirmationFamily := []
  deriving DecidableEq, Repr

/-- What `_load` reads and `_save` writes: a dictionary by candidate. -/
abbrev PromotionRegistry := Table CandidateState.candidateId

/-- What the operations raise. -/
inductive PromotionError where
  /-- `cannot move {candidate_id!r} to {new_status} from {current_status!r}; allowed from
  {allowed_from}`. -/
  | cannotMove (candidateId : String) (newStatus : PromotionStatus)
      (currentStatus : Option PromotionStatus) (allowedFrom : List PromotionStatus)
  | invalidTransition (msg : String)
  /-- `only {paper_weeks_elapsed} paper weeks elapsed, need >= {config.min_paper_weeks}`. -/
  | paperWeeks (elapsed : ℚ) (minimum : Int)
  /-- `only {paper_trades} paper trades, need >= {config.min_paper_trades}`. -/
  | paperTrades (trades minimum : Int)
  /-- `{risk_limit_violations} risk limit violations during paper - refusing to promote`. -/
  | riskLimitViolations (violations : Int)
  | confirmationIndependence (msg : String)
  deriving DecidableEq, Repr

/-- The answer of an operation, and the registry after it. -/
abbrev RegistryResult := Except PromotionError CandidateState × PromotionRegistry

namespace PromotionRegistry

variable (states : PromotionRegistry)

def status (candidateId : String) : Option PromotionStatus :=
  (states.find candidateId).map (·.status)

def history (candidateId : String) : List TransitionEvent :=
  ((states.find candidateId).map (·.history)).getD []

def families (candidateId : String) : List ConfirmationFamily :=
  ((states.find candidateId).map (·.confirmationFamilies)).getD []

/-- `_transition`. -/
def transition (candidateId : String) (newStatus : PromotionStatus)
    (allowedFrom : Option (List PromotionStatus)) (reason : String)
    (humanApprovedBy : Option String) (now : Instant) : RegistryResult :=
  let currentStatus := states.status candidateId
  let allowed := allowedFrom.getD []
  if allowedFrom.isSome && !allowed.any (fun status => some status = currentStatus) then
    (.error (.cannotMove candidateId newStatus currentStatus allowed), states)
  else
    let current := ((states.find candidateId).getD { candidateId, status := newStatus })
    let event : TransitionEvent :=
      ⟨currentStatus, newStatus, reason, now, humanApprovedBy⟩
    let state : CandidateState :=
      { current with status := newStatus, history := current.history ++ [event] }
    (.ok state, states.upsert state)

/-- What several operations do after `_transition`: they change the state, and save again. -/
def andSave (result : RegistryResult) (f : CandidateState → CandidateState) : RegistryResult :=
  match result with
  | (.error err, states) => (.error err, states)
  | (.ok state, states) => (.ok (f state), states.upsert (f state))

def registerResearchCandidate (candidateId reason : String)
    (confirmationFamilies : List ConfirmationFamily) (now : Instant) : RegistryResult :=
  -- `tuple(dict.fromkeys(...))`
  let families := confirmationFamilies.eraseDups
  if families = [] then
    (.error (.invalidTransition "research candidate requires confirmation-family metadata"), states)
  else
    andSave (states.transition candidateId .researchCandidate none reason none now)
      fun state => { state with confirmationFamilies := families }

def reject (candidateId reason : String) (now : Instant) : RegistryResult :=
  states.transition candidateId .rejected none reason none now

end PromotionRegistry

/-- `ConfirmationIndependenceReport`. -/
structure ConfirmationIndependenceReport where
  families : List ConfirmationFamily
  status : String
  deriving DecidableEq, Repr

/-- `require_independence_for_promotion`. -/
def requireIndependenceForPromotion (report : ConfirmationIndependenceReport)
    (requiredFamilies : List ConfirmationFamily) : Except PromotionError Unit :=
  if report.status ≠ "PASS" then
    .error (.confirmationIndependence
      ("confirmation independence is not promotion-eligible: " ++ report.status))
  else if !requiredFamilies.all (report.families.contains ·) then
    .error (.confirmationIndependence "independence report does not cover every family")
  else .ok ()

/-- The fields of `PaperPromotionConfig` that a promotion reads. -/
structure PaperPromotionConfig where
  minPaperWeeks : Int
  minPaperTrades : Int
  noRiskLimitViolations : Bool
  requiresHumanApproval : Bool
  deriving DecidableEq, Repr

structure RetirementConfig where
  consecutiveDegradedReviewsBeforeRetirement : Int
  deriving DecidableEq, Repr

namespace PromotionRegistry

variable (states : PromotionRegistry)

def promoteToChallenger (candidateId reason : String)
    (independenceReport : Option ConfirmationIndependenceReport) (now startedAt : Instant) :
    RegistryResult :=
  let families := states.families candidateId
  if families = [] then
    (.error (.invalidTransition "candidate confirmation-family metadata is missing"), states)
  else
    let gate : Except PromotionError Unit :=
      if 2 ≤ families.length then
        match independenceReport with
        | none => .error (.invalidTransition "multi-family candidate requires an independence report")
        | some report => requireIndependenceForPromotion report families
      else .ok ()
    match gate with
    | .error err => (.error err, states)
    | .ok () =>
      andSave (states.transition candidateId .paperChallenger (some [.researchCandidate]) reason
        none now) fun state => { state with paperStartedAt := some startedAt }

def promoteMultiFamilyToChallenger (candidateId reason : String)
    (independenceReport : ConfirmationIndependenceReport)
    (requiredFamilies : List ConfirmationFamily) (now startedAt : Instant) : RegistryResult :=
  if requiredFamilies.eraseDups.length < 2 then
    (.error (.invalidTransition "multi-family promotion requires at least two families"), states)
  else
    let sameSet (families : List ConfirmationFamily) : Bool :=
      families.all (requiredFamilies.contains ·) && requiredFamilies.all (families.contains ·)
    if !(states.find candidateId).any (fun state => sameSet state.confirmationFamilies) then
      (.error (.invalidTransition "required families do not match registered candidate metadata"),
        states)
    else states.promoteToChallenger candidateId reason (some independenceReport) now startedAt

def promoteToChampion (candidateId : String) (paperWeeksElapsed : ℚ)
    (paperTrades riskLimitViolations : Int) (humanApprovedBy : String)
    (config : PaperPromotionConfig) (reason : String) (now : Instant) : RegistryResult :=
  if !config.requiresHumanApproval then
    (.error (.invalidTransition ("paper_promotion.requires_human_approval is False in the " ++
      "protocol - this is a misconfiguration, not a valid state; refusing to promote")), states)
  else if isBlank humanApprovedBy then
    (.error (.invalidTransition
      "promote_to_champion requires a non-empty human_approved_by identifier"), states)
  else if paperWeeksElapsed < config.minPaperWeeks then
    (.error (.paperWeeks paperWeeksElapsed config.minPaperWeeks), states)
  else if paperTrades < config.minPaperTrades then
    (.error (.paperTrades paperTrades config.minPaperTrades), states)
  else if 0 < riskLimitViolations ∧ config.noRiskLimitViolations then
    (.error (.riskLimitViolations riskLimitViolations), states)
  else
    states.transition candidateId .paperChampion (some [.paperChallenger]) reason
      (some humanApprovedBy) now

def retire (candidateId reason : String) (now : Instant) : RegistryResult :=
  states.transition candidateId .retired (some [.paperChallenger, .paperChampion, .degraded])
    reason none now

def markDegraded (candidateId reason : String) (config : RetirementConfig)
    (now retiredAt : Instant) : RegistryResult :=
  let marked := andSave (states.transition candidateId .degraded
    (some [.paperChallenger, .paperChampion, .degraded]) reason none now) fun state =>
      { state with consecutiveDegradedReviews := state.consecutiveDegradedReviews + 1 }
  match marked with
  | (.error err, states) => (.error err, states)
  | (.ok state, states) =>
    if config.consecutiveDegradedReviewsBeforeRetirement ≤ state.consecutiveDegradedReviews then
      retire states candidateId ("auto-retired after " ++
        toString state.consecutiveDegradedReviews ++ " consecutive degraded reviews") retiredAt
    else (.ok state, states)

def killPaper (candidateId reason : String) (now : Instant) : RegistryResult :=
  states.transition candidateId .retired (some [.paperChallenger, .paperChampion])
    ("AUTO_KILL: " ++ reason) none now

end PromotionRegistry

/-! ## Operations -/

/-- A call of the registry, with its arguments and the readings of the clock. -/
inductive RegistryOp where
  | registerResearchCandidate (candidateId reason : String)
      (confirmationFamilies : List ConfirmationFamily) (now : Instant)
  | reject (candidateId reason : String) (now : Instant)
  | promoteToChallenger (candidateId reason : String)
      (independenceReport : Option ConfirmationIndependenceReport) (now startedAt : Instant)
  | promoteMultiFamilyToChallenger (candidateId reason : String)
      (independenceReport : ConfirmationIndependenceReport)
      (requiredFamilies : List ConfirmationFamily) (now startedAt : Instant)
  | promoteToChampion (candidateId : String) (paperWeeksElapsed : ℚ)
      (paperTrades riskLimitViolations : Int) (humanApprovedBy : String)
      (config : PaperPromotionConfig) (reason : String) (now : Instant)
  | markDegraded (candidateId reason : String) (config : RetirementConfig)
      (now retiredAt : Instant)
  | retire (candidateId reason : String) (now : Instant)
  | killPaper (candidateId reason : String) (now : Instant)

namespace RegistryOp

def candidateId : RegistryOp → String
  | registerResearchCandidate id .. | reject id .. | promoteToChallenger id ..
  | promoteMultiFamilyToChallenger id .. | promoteToChampion id .. | markDegraded id ..
  | retire id .. | killPaper id .. => id

def apply (states : PromotionRegistry) : RegistryOp → RegistryResult
  | registerResearchCandidate id reason families now =>
    states.registerResearchCandidate id reason families now
  | reject id reason now => states.reject id reason now
  | promoteToChallenger id reason report now startedAt =>
    states.promoteToChallenger id reason report now startedAt
  | promoteMultiFamilyToChallenger id reason report required now startedAt =>
    states.promoteMultiFamilyToChallenger id reason report required now startedAt
  | promoteToChampion id weeks trades violations human config reason now =>
    states.promoteToChampion id weeks trades violations human config reason now
  | markDegraded id reason config now retiredAt =>
    states.markDegraded id reason config now retiredAt
  | retire id reason now => states.retire id reason now
  | killPaper id reason now => states.killPaper id reason now

/-- The registry after an operation, whether it raised or not. -/
def step (states : PromotionRegistry) (op : RegistryOp) : PromotionRegistry :=
  (op.apply states).2

end RegistryOp

/-! ## Moves -/

/-- The candidate gets one more event, and its status. -/
structure Move (s : PromotionRegistry) (candidateId : String) (event : TransitionEvent)
    (s' : PromotionRegistry) : Prop where
  starts : event.fromStatus = s.status candidateId
  ends : s'.status candidateId = some event.toStatus
  appends : s'.history candidateId = s.history candidateId ++ [event]
  other : ∀ id, id ≠ candidateId → s'.find id = s.find id

/-- The report passes the gate, if the families need one. -/
def Passed (families : List ConfirmationFamily) (report : Option ConfirmationIndependenceReport) :
    Prop :=
  2 ≤ families.length →
    ∃ r, report = some r ∧ requireIndependenceForPromotion r families = .ok ()

/-- The report that an operation is given. -/
def RegistryOp.report : RegistryOp → Option ConfirmationIndependenceReport
  | promoteToChallenger _ _ report _ _ => report
  | promoteMultiFamilyToChallenger _ _ report _ _ _ => some report
  | _ => none

/-- The statuses from which an operation moves a candidate, if they are limited, and the status
to which it does. -/
def RegistryOp.edge : RegistryOp → Option (List PromotionStatus) × PromotionStatus
  | registerResearchCandidate .. => (none, .researchCandidate)
  | reject .. => (none, .rejected)
  | promoteToChallenger .. | promoteMultiFamilyToChallenger .. =>
    (some [.researchCandidate], .paperChallenger)
  | promoteToChampion .. => (some [.paperChallenger], .paperChampion)
  | markDegraded .. => (some [.paperChallenger, .paperChampion, .degraded], .degraded)
  | retire .. => (some [.paperChallenger, .paperChampion, .degraded], .retired)
  | killPaper .. => (some [.paperChallenger, .paperChampion], .retired)

/-- What an operation requires of the event that it makes. -/
structure RegistryOp.Makes (op : RegistryOp) (s : PromotionRegistry) (event : TransitionEvent) :
    Prop where
  ends : event.toStatus = op.edge.2
  starts : ∀ allowed, op.edge.1 = some allowed →
    ∃ status ∈ allowed, s.status op.candidateId = some status
  passed : event.toStatus = .paperChallenger → Passed (s.families op.candidateId) op.report
  approved : event.toStatus = .paperChampion →
    ∃ who, event.humanApprovedBy = some who ∧ isBlank who = false

/-- What an operation does: it changes nothing, or it moves its candidate, and retires it after
that if it was degraded too often. -/
inductive Change (op : RegistryOp) (s s' : PromotionRegistry) : Prop where
  | same (h : s' = s)
  | moved {event : TransitionEvent} (hmakes : op.Makes s event)
      (h : Move s op.candidateId event s')
  | retired {event last : TransitionEvent} {mid : PromotionRegistry} (hmakes : op.Makes s event)
      (hevent : event.toStatus = .degraded) (h : Move s op.candidateId event mid)
      (hlast : last.toStatus = .retired) (h' : Move mid op.candidateId last s')

namespace PromotionRegistry

variable {s s' : PromotionRegistry} {id reason : String} {newStatus : PromotionStatus}
  {allowedFrom : Option (List PromotionStatus)} {human : Option String} {now : Instant}

/-- Writing a state with one more event is a move. -/
theorem move_upsert {event : TransitionEvent} {state : CandidateState}
    (hid : state.candidateId = id) (hstatus : state.status = event.toStatus)
    (hhistory : state.history = s.history id ++ [event]) (hfrom : event.fromStatus = s.status id) :
    Move s id event (s.upsert state) where
  starts := hfrom
  ends := by rw [status, Table.find_upsert, if_pos hid.symm, Option.map_some, hstatus]
  appends := by
    rw [history, Table.find_upsert, if_pos hid.symm, Option.map_some, Option.getD_some, hhistory]
  other j hj := by rw [Table.find_upsert, if_neg (hid ▸ hj)]

/-- A transition raises, or it writes a state with one more event. -/
theorem transition_cases (s : PromotionRegistry) (id : String) (newStatus : PromotionStatus)
    (allowedFrom : Option (List PromotionStatus)) (reason : String) (human : Option String)
    (now : Instant) :
    (allowedFrom ≠ none ∧
      ∃ err, s.transition id newStatus allowedFrom reason human now = (.error err, s)) ∨
    (∀ allowed, allowedFrom = some allowed → ∃ status ∈ allowed, s.status id = some status) ∧
      ∃ state event, s.transition id newStatus allowedFrom reason human now =
          (.ok state, s.upsert state) ∧
        state.candidateId = id ∧ state.status = newStatus ∧
        state.history = s.history id ++ [event] ∧ state.confirmationFamilies = s.families id ∧
        event.fromStatus = s.status id ∧ event.toStatus = newStatus ∧
        event.humanApprovedBy = human := by
  unfold transition
  simp only
  split
  · next hnot =>
    refine .inl ⟨?_, _, rfl⟩
    rintro rfl
    cases hnot
  · next hallowed =>
    refine .inr ⟨?_, _, ⟨s.status id, newStatus, reason, now, human⟩, rfl, ?_⟩
    · rintro allowed rfl
      simp only [Option.isSome_some, Option.getD_some, Bool.true_and, Bool.not_eq_true',
        Bool.not_eq_false, List.any_eq_true, decide_eq_true_eq] at hallowed
      obtain ⟨status, hmem, hstatus⟩ := hallowed
      exact ⟨status, hmem, hstatus.symm⟩
    · cases hfind : s.find id with
      | none =>
        refine ⟨rfl, rfl, ?_, ?_, rfl, rfl, rfl⟩
        · rw [history, hfind]
          rfl
        · rw [families, hfind]
          rfl
      | some current =>
        have hid : current.candidateId = id := Table.find_key hfind
        refine ⟨hid, rfl, ?_, ?_, rfl, rfl, rfl⟩
        · rw [history, hfind]
          rfl
        · rw [families, hfind]
          rfl

end PromotionRegistry

variable {id : String} {event : TransitionEvent}

theorem Move.of_find {s s' s'' : PromotionRegistry}
    (h : Move s id event s') (hfind : ∀ j, s''.find j = s'.find j) : Move s id event s'' where
  starts := h.starts
  ends := by rw [PromotionRegistry.status, hfind]; exact h.ends
  appends := by rw [PromotionRegistry.history, hfind]; exact h.appends
  other j hj := (hfind j).trans (h.other j hj)

/-- The outcome of a transition: it raises, or it moves the candidate. -/
def Transits (s : PromotionRegistry) (id : String) (edge : Option (List PromotionStatus) × PromotionStatus)
    (human : Option String) (families : List ConfirmationFamily) (result : RegistryResult) : Prop :=
  (edge.1 ≠ none ∧ ∃ err, result = (.error err, s)) ∨
    (∀ allowed, edge.1 = some allowed → ∃ status ∈ allowed, s.status id = some status) ∧
      ∃ state event s', result = (.ok state, s') ∧ s'.find id = some state ∧
        state.confirmationFamilies = families ∧ Move s id event s' ∧ event.toStatus = edge.2 ∧
        event.humanApprovedBy = human

namespace PromotionRegistry

section

variable (s : PromotionRegistry) (id : String) (newStatus : PromotionStatus)
  (allowedFrom : Option (List PromotionStatus)) (reason : String) (human : Option String)
  (now : Instant)

theorem transition_transits : Transits s id (allowedFrom, newStatus) human (s.families id)
    (s.transition id newStatus allowedFrom reason human now) := by
  rcases transition_cases s id newStatus allowedFrom reason human now with herr | ⟨hallowed,
    state, event, heq, hsame, hnew, happends, hfamilies, hfrom, hto, hhuman⟩
  · exact .inl herr
  · refine .inr ⟨hallowed, state, event, _, heq, ?_, hfamilies,
      move_upsert hsame (hnew.trans hto.symm) happends hfrom, hto, hhuman⟩
    rw [Table.find_upsert, if_pos hsame.symm]

/-- A transition after which the state is changed and saved again. -/
theorem andSave_transits {f : CandidateState → CandidateState}
    {families : List ConfirmationFamily}
    (hid : ∀ state, (f state).candidateId = state.candidateId)
    (hstatus : ∀ state, (f state).status = state.status)
    (hhistory : ∀ state, (f state).history = state.history)
    (hfamilies : ∀ state, state.confirmationFamilies = s.families id →
      (f state).confirmationFamilies = families) :
    Transits s id (allowedFrom, newStatus) human families
      (andSave (s.transition id newStatus allowedFrom reason human now) f) := by
  rcases transition_cases s id newStatus allowedFrom reason human now with ⟨hsome, err, heq⟩ |
    ⟨hallowed, state, event, heq, hsame, hnew, happends, hkept, hfrom, hto, hhuman⟩
  · rw [heq]
    exact .inl ⟨hsome, err, rfl⟩
  · rw [heq]
    have hmove : Move s id event (s.upsert (f state)) :=
      move_upsert ((hid state).trans hsame) ((hstatus state).trans (hnew.trans hto.symm))
        ((hhistory state).trans happends) hfrom
    refine .inr ⟨hallowed, f state, event, _, rfl, ?_, hfamilies state hkept,
      hmove.of_find fun j => ?_, hto, hhuman⟩
    · rw [Table.find_upsert, if_pos ((hid state).trans hsame).symm]
    · rw [Table.find_upsert, Table.find_upsert, Table.find_upsert, hid]
      split <;> rfl

end

/-- An operation of which the outcome is a transition. -/
theorem change_of_transits {op : RegistryOp} {families : List ConfirmationFamily}
    (hpassed : op.edge.2 = .paperChallenger → Passed (s.families op.candidateId) op.report)
    (happroved : op.edge.2 = .paperChampion → ∃ who, human = some who ∧ isBlank who = false)
    (h : Transits s op.candidateId op.edge human families (op.apply s)) :
    Change op s (op.step s) := by
  unfold RegistryOp.step
  rcases h with ⟨-, err, heq⟩ | ⟨hallowed, state, event, s', heq, -, -, hmove, hto, hhuman⟩
  · rw [heq]
    exact .same rfl
  · rw [heq]
    refine .moved ⟨hto, hallowed, ?_, ?_⟩ hmove
    · rw [hto]
      exact hpassed
    · rw [hto, hhuman]
      exact happroved

/-! ### Each operation -/

section

variable (s : PromotionRegistry) (id reason : String) (now later : Instant)

theorem registerResearchCandidate_transits (fams : List ConfirmationFamily)
    (hne : fams.eraseDups ≠ []) :
    Transits s id (none, .researchCandidate) none fams.eraseDups
      (s.registerResearchCandidate id reason fams now) := by
  unfold registerResearchCandidate
  simp only [if_neg hne]
  exact andSave_transits s id _ _ _ _ _ (fun _ => rfl) (fun _ => rfl) (fun _ => rfl) fun _ _ => rfl

/-- A promotion raises, or its report passes and it is a transition. -/
theorem promoteToChallenger_cases (report : Option ConfirmationIndependenceReport) :
    (∃ err, s.promoteToChallenger id reason report now later = (.error err, s)) ∨
      Passed (s.families id) report ∧ Transits s id (some [.researchCandidate], .paperChallenger)
        none (s.families id) (s.promoteToChallenger id reason report now later) := by
  have htransits := andSave_transits s id .paperChallenger (some [.researchCandidate]) reason none
    now (f := fun state => { state with paperStartedAt := some later }) (fun _ => rfl)
    (fun _ => rfl) (fun _ => rfl) fun _ h => h
  unfold promoteToChallenger
  simp only
  split
  · exact .inl ⟨_, rfl⟩
  · split
    · exact .inl ⟨_, rfl⟩
    · next hgate =>
      refine .inr ⟨fun htwo => ?_, htransits⟩
      rw [if_pos htwo] at hgate
      split at hgate
      · cases hgate
      · next r => exact ⟨r, rfl, hgate⟩

theorem promoteMultiFamilyToChallenger_cases (report : ConfirmationIndependenceReport)
    (required : List ConfirmationFamily) :
    (∃ err, s.promoteMultiFamilyToChallenger id reason report required now later =
        (.error err, s)) ∨
      s.promoteMultiFamilyToChallenger id reason report required now later =
        s.promoteToChallenger id reason (some report) now later := by
  unfold promoteMultiFamilyToChallenger
  simp only
  split
  · exact .inl ⟨_, rfl⟩
  · split
    · exact .inl ⟨_, rfl⟩
    · exact .inr rfl

theorem promoteToChampion_cases (weeks : ℚ) (trades violations : Int) (who : String)
    (config : PaperPromotionConfig) :
    (∃ err, s.promoteToChampion id weeks trades violations who config reason now =
        (.error err, s)) ∨
      isBlank who = false ∧ s.promoteToChampion id weeks trades violations who config reason now =
        s.transition id .paperChampion (some [.paperChallenger]) reason (some who) now := by
  unfold promoteToChampion
  split
  · exact .inl ⟨_, rfl⟩
  · split
    · exact .inl ⟨_, rfl⟩
    · next hblank =>
      split
      · exact .inl ⟨_, rfl⟩
      · split
        · exact .inl ⟨_, rfl⟩
        · split
          · exact .inl ⟨_, rfl⟩
          · exact .inr ⟨by simpa using hblank, rfl⟩

/-- A candidate that is marked is degraded, and may be retired at once. -/
theorem markDegraded_change (config : RetirementConfig) :
    Change (.markDegraded id reason config now later) s
        (RegistryOp.step s (.markDegraded id reason config now later)) ∧
      (RegistryOp.step s (.markDegraded id reason config now later)).families id =
        s.families id := by
  set op : RegistryOp := .markDegraded id reason config now later with hop
  have hmarked := andSave_transits s id .degraded
    (some [.paperChallenger, .paperChampion, .degraded]) reason none now
    (f := fun state =>
      { state with consecutiveDegradedReviews := state.consecutiveDegradedReviews + 1 })
    (fun _ => rfl) (fun _ => rfl) (fun _ => rfl) fun _ h => h
  unfold RegistryOp.step
  show Change op s (s.markDegraded id reason config now later).2 ∧
    (s.markDegraded id reason config now later).2.families id = s.families id
  unfold markDegraded
  simp only
  rcases hmarked with ⟨-, err, heq⟩ | ⟨hallowed, state, event, mid, heq, hfind, hfamilies, hmove, hto,
    hhuman⟩
  · rw [heq]
    exact ⟨.same rfl, rfl⟩
  · rw [heq]
    have hmakes : op.Makes s event := by
      refine ⟨hto, hallowed, fun hpc => ?_, fun hpc => ?_⟩
      · cases hto.symm.trans hpc
      · cases hto.symm.trans hpc
    have hmid : mid.families id = s.families id := by
      rw [families, hfind, Option.map_some, Option.getD_some, hfamilies]
    simp only
    split
    · rcases transition_transits mid id .retired (some [.paperChallenger, .paperChampion, .degraded])
        ("auto-retired after " ++ toString state.consecutiveDegradedReviews ++
          " consecutive degraded reviews") none later with ⟨-, err, hretire⟩ | ⟨-, state', last, s',
          hretire, hfind', hfamilies', hmove', hto', -⟩
      · unfold retire
        rw [hretire]
        exact ⟨.moved hmakes hmove, hmid⟩
      · unfold retire
        rw [hretire]
        refine ⟨.retired hmakes hto hmove hto' hmove', ?_⟩
        rw [families, hfind', Option.map_some, Option.getD_some, hfamilies', hmid]
    · exact ⟨.moved hmakes hmove, hmid⟩

end

end PromotionRegistry

/-- The families that an operation registers for a candidate. -/
def RegistryOp.registers (id : String) : RegistryOp → Option (List ConfirmationFamily)
  | registerResearchCandidate id' _ families _ =>
    if id' = id ∧ families.eraseDups ≠ [] then some families.eraseDups else none
  | _ => none

variable {s : PromotionRegistry}

theorem Transits.families
    {edge : Option (List PromotionStatus) × PromotionStatus} {human : Option String}
    {families : List ConfirmationFamily} {result : RegistryResult}
    (h : Transits s id edge human families result) :
    result.2.families id = s.families id ∨ result.2.families id = families := by
  rcases h with ⟨-, err, rfl⟩ | ⟨-, state, event, s', rfl, hfind, hfamilies, -⟩
  · exact .inl rfl
  · refine .inr ?_
    rw [PromotionRegistry.families, hfind, Option.map_some, Option.getD_some, hfamilies]

variable {op : RegistryOp}

/-- An operation that raises before it writes changes nothing. -/
theorem change_of_error {err : PromotionError}
    (h : op.apply s = (.error err, s)) : Change op s (op.step s) ∧
      (op.step s).families op.candidateId = s.families op.candidateId := by
  unfold RegistryOp.step
  rw [h]
  exact ⟨.same rfl, rfl⟩

open PromotionRegistry in
/-- **Inversion.** What each operation does. -/
theorem apply_moves (s : PromotionRegistry) (op : RegistryOp) : Change op s (op.step s) ∧
    (op.step s).families op.candidateId =
      (op.registers op.candidateId).getD (s.families op.candidateId) := by
  have hkept : ∀ {op : RegistryOp} {human},
      Transits s op.candidateId op.edge human (s.families op.candidateId) (op.apply s) →
      (op.step s).families op.candidateId = s.families op.candidateId := fun h =>
    h.families.elim id id
  cases op with
  | registerResearchCandidate id reason fams now =>
    by_cases hne : fams.eraseDups = []
    · have hnone : (RegistryOp.registerResearchCandidate id reason fams now).registers id = none :=
        if_neg fun h => h.2 hne
      rw [RegistryOp.candidateId, hnone]
      have hraises : s.registerResearchCandidate id reason fams now =
          (.error (.invalidTransition "research candidate requires confirmation-family metadata"),
            s) := by
        unfold registerResearchCandidate
        simp only [hne, if_true]
      exact change_of_error hraises
    · have hsome : (RegistryOp.registerResearchCandidate id reason fams now).registers id =
          some fams.eraseDups := if_pos ⟨rfl, hne⟩
      have h := registerResearchCandidate_transits s id reason now fams hne
      refine ⟨change_of_transits (fun hto => by cases hto) (fun hto => by cases hto) h, ?_⟩
      rw [RegistryOp.candidateId, hsome, Option.getD_some]
      rcases h with ⟨hsome, -⟩ | ⟨-, state, event, s', heq, hfind, hfamilies, -⟩
      · exact absurd rfl hsome
      · show (s.registerResearchCandidate id reason fams now).2.families id = _
        rw [heq, families, hfind, Option.map_some, Option.getD_some, hfamilies]
  | reject id reason now =>
    have h := transition_transits s id .rejected none reason none now
    exact ⟨change_of_transits (fun hto => by cases hto) (fun hto => by cases hto) h, hkept h⟩
  | promoteToChallenger id reason report now later =>
    rcases promoteToChallenger_cases s id reason now later report with ⟨err, heq⟩ | ⟨hpassed, h⟩
    · exact change_of_error heq
    · exact ⟨change_of_transits (fun _ => hpassed) (fun hto => by cases hto) h, hkept h⟩
  | promoteMultiFamilyToChallenger id reason report required now later =>
    rcases promoteMultiFamilyToChallenger_cases s id reason now later report required with
      ⟨err, heq⟩ | hsame
    · exact change_of_error heq
    · rcases promoteToChallenger_cases s id reason now later (some report) with ⟨err, heq⟩ |
        ⟨hpassed, h⟩
      · exact change_of_error (hsame.trans heq)
      · rw [← hsame] at h
        exact ⟨change_of_transits (fun _ => hpassed) (fun hto => by cases hto) h, hkept h⟩
  | promoteToChampion id weeks trades violations who config reason now =>
    rcases promoteToChampion_cases s id reason now weeks trades violations who config with
      ⟨err, heq⟩ | ⟨hwho, hsame⟩
    · exact change_of_error heq
    · have h := transition_transits s id .paperChampion (some [.paperChallenger]) reason (some who)
        now
      rw [← hsame] at h
      exact ⟨change_of_transits (fun hto => by cases hto) (fun _ => ⟨who, rfl, hwho⟩) h, hkept h⟩
  | markDegraded id reason config now later =>
    exact markDegraded_change s id reason now later config
  | retire id reason now =>
    have h := transition_transits s id .retired
      (some [.paperChallenger, .paperChampion, .degraded]) reason none now
    exact ⟨change_of_transits (fun hto => by cases hto) (fun hto => by cases hto) h, hkept h⟩
  | killPaper id reason now =>
    have h := transition_transits s id .retired (some [.paperChallenger, .paperChampion])
      ("AUTO_KILL: " ++ reason) none now
    exact ⟨change_of_transits (fun hto => by cases hto) (fun hto => by cases hto) h, hkept h⟩

variable {s s' : PromotionRegistry}

theorem Move.other_status {id j : String}
    (h : Move s id event s') (hj : j ≠ id) : s'.status j = s.status j ∧
      s'.history j = s.history j ∧ s'.families j = s.families j := by
  unfold PromotionRegistry.status PromotionRegistry.history PromotionRegistry.families
  rw [h.other j hj]
  exact ⟨rfl, rfl, rfl⟩

/-! ## Runs -/

/-- Each event starts where the one before it ends. -/
def Chained : Option PromotionStatus → List TransitionEvent → Option PromotionStatus → Prop
  | start, [], stop => start = stop
  | start, event :: events, stop =>
    event.fromStatus = start ∧ Chained (some event.toStatus) events stop

theorem Chained.append {start stop : Option PromotionStatus} {events : List TransitionEvent}
    (h : Chained start events stop) (hfrom : event.fromStatus = stop) :
    Chained start (events ++ [event]) (some event.toStatus) := by
  induction events generalizing start with
  | nil => exact ⟨hfrom.trans h.symm, rfl⟩
  | cons first events ih => exact ⟨h.1, ih h.2⟩

/-- A champion's last event is the approval of a challenger by a human. -/
def Approved (events : List TransitionEvent) : Prop :=
  ∃ event, events.getLast? = some event ∧ event.fromStatus = some .paperChallenger ∧
    ∃ who, event.humanApprovedBy = some who ∧ isBlank who = false

/-- What holds of a candidate's history and status. -/
structure Orderly (s : PromotionRegistry) (id : String) : Prop where
  chained : Chained none (s.history id) (s.status id)
  approved : s.status id = some .paperChampion → Approved (s.history id)

theorem Move.orderly
    (h : Move s id event s') (hs : ∀ j, Orderly s j)
    (happroved : event.toStatus = .paperChampion → event.fromStatus = some .paperChallenger ∧
      ∃ who, event.humanApprovedBy = some who ∧ isBlank who = false) (j : String) :
    Orderly s' j := by
  by_cases hj : j = id
  · subst hj
    constructor
    · rw [h.appends, h.ends]
      exact (hs j).chained.append h.starts
    · intro hchampion
      rw [h.ends] at hchampion
      rw [h.appends]
      exact ⟨event, by rw [List.getLast?_concat], happroved (Option.some.inj hchampion)⟩
  · obtain ⟨hstatus, hhistory, -⟩ := h.other_status hj
    constructor
    · rw [hstatus, hhistory]
      exact (hs j).chained
    · rw [hstatus, hhistory]
      exact (hs j).approved

/-- The one operation that makes a champion moves a challenger. -/
theorem RegistryOp.Makes.challenger
    (h : op.Makes s event) (hto : event.toStatus = .paperChampion) :
    s.status op.candidateId = some .paperChallenger := by
  have hedge : op.edge.2 = .paperChampion := h.ends.symm.trans hto
  have hfrom : op.edge.1 = some [.paperChallenger] := by
    cases op <;> first | rfl | cases hedge
  obtain ⟨status, hmem, hstatus⟩ := h.starts _ hfrom
  rw [List.mem_singleton.mp hmem] at hstatus
  exact hstatus

theorem orderly_step (s : PromotionRegistry) (op : RegistryOp) (hs : ∀ j, Orderly s j) :
    ∀ j, Orderly (op.step s) j := by
  have hmade : ∀ {event mid}, op.Makes s event → Move s op.candidateId event mid →
      ∀ j, Orderly mid j := fun hmakes hmove => hmove.orderly hs fun hto =>
    ⟨hmove.starts.trans (hmakes.challenger hto), hmakes.approved hto⟩
  cases (apply_moves s op).1 with
  | same h =>
    rw [h]
    exact hs
  | moved hmakes h => exact hmade hmakes h
  | retired hmakes hevent h hlast h' =>
    exact h'.orderly (hmade hmakes h) fun hto => by cases hlast.symm.trans hto

/-- The families that a candidate is registered with after the operations. -/
def registered (ops : List RegistryOp) (id : String) : List ConfirmationFamily :=
  (ops.filterMap (RegistryOp.registers id)).getLast?.getD []

theorem registers_other (h : id ≠ op.candidateId) :
    op.registers id = none := by
  cases op with
  | registerResearchCandidate id' reason families now =>
    exact if_neg fun hid => h hid.1.symm
  | _ => rfl

theorem families_step (s : PromotionRegistry) (op : RegistryOp) (id : String) :
    (op.step s).families id = (op.registers id).getD (s.families id) := by
  by_cases hid : id = op.candidateId
  · subst hid
    exact (apply_moves s op).2
  · rw [registers_other hid, Option.getD_none]
    cases (apply_moves s op).1 with
    | same h => rw [h]
    | moved _ h => exact (h.other_status hid).2.2
    | retired _ _ h _ h' => exact (h'.other_status hid).2.2.trans (h.other_status hid).2.2

theorem families_run (ops : List RegistryOp) (id : String) :
    (Runs.run RegistryOp.step Table.empty ops).families id = registered ops id := by
  induction ops using List.reverseRecOn with
  | nil => rfl
  | append_singleton ops op ih =>
    rw [Runs.run_append, Runs.run_cons, Runs.run_nil, families_step, ih]
    unfold registered
    rw [List.filterMap_append]
    cases hregisters : op.registers id with
    | none => simp [hregisters]
    | some families => simp [hregisters]

/-- The operation made the event, with a report that passes if the families then registered
need one. -/
def GateOf (ops : List RegistryOp) (id : String) (history : List TransitionEvent)
    (event : TransitionEvent) : Prop :=
  ∃ before op after, ops = before ++ op :: after ∧ op.candidateId = id ∧
    (Runs.run RegistryOp.step Table.empty before).history id = history ∧
    (Runs.run RegistryOp.step Table.empty (before ++ [op])).history id = history ++ [event] ∧
    Passed (registered before id) op.report

theorem GateOf.later {ops : List RegistryOp} {history : List TransitionEvent}
    (h : GateOf ops id history event) (last : RegistryOp) :
    GateOf (ops ++ [last]) id history event := by
  obtain ⟨before, op, after, rfl, hid, hbefore, hafter, hpassed⟩ := h
  exact ⟨before, op, after ++ [last], by simp, hid, hbefore, hafter, hpassed⟩

/-- Every event that makes a challenger was made at the gate. -/
theorem gate_run (ops : List RegistryOp) (id : String) {history rest : List TransitionEvent}
    (h : (Runs.run RegistryOp.step Table.empty ops).history id = history ++ event :: rest)
    (hto : event.toStatus = .paperChallenger) : GateOf ops id history event := by
  induction ops using List.reverseRecOn generalizing rest with
  | nil => cases history <;> cases h
  | append_singleton ops op ih =>
    have hstep : Runs.run RegistryOp.step Table.empty (ops ++ [op]) =
        op.step (Runs.run RegistryOp.step Table.empty ops) := by
      rw [Runs.run_append, Runs.run_cons, Runs.run_nil]
    have hold : ∀ {last : TransitionEvent} {rest' : List TransitionEvent},
        (Runs.run RegistryOp.step Table.empty ops).history id ++ [last] =
          history ++ event :: rest' → rest' ≠ [] → GateOf (ops ++ [op]) id history event := by
      intro last rest' heq hne
      obtain ⟨rest'', x, rfl⟩ := List.eq_nil_or_concat' rest' |>.resolve_left hne
      rw [← List.cons_append, ← List.append_assoc] at heq
      exact (ih (List.append_inj' heq rfl).1).later op
    rw [hstep] at h
    by_cases hid : id = op.candidateId
    · subst hid
      have hmoved : ∀ {last mid rest'}, op.Makes (Runs.run RegistryOp.step Table.empty ops) last →
          Move (Runs.run RegistryOp.step Table.empty ops) op.candidateId last mid →
          mid.history op.candidateId = history ++ event :: rest' →
          (rest' = [] → GateOf (ops ++ [op]) op.candidateId history event) →
          GateOf (ops ++ [op]) op.candidateId history event := by
        intro last mid rest' hmakes hmove heq hnil
        rw [hmove.appends] at heq
        by_cases hrest : rest' = []
        · exact hnil hrest
        · exact hold heq hrest
      cases (apply_moves (Runs.run RegistryOp.step Table.empty ops) op).1 with
      | same hsame =>
        rw [hsame] at h
        exact (ih h).later op
      | @moved last hmakes hmove =>
        refine hmoved hmakes hmove h fun hrest => ?_
        subst hrest
        rw [hmove.appends] at h
        obtain ⟨hhistory, hlast⟩ := List.append_inj' h rfl
        have hevent : last = event := List.singleton_inj.mp hlast
        subst hevent
        refine ⟨ops, op, [], rfl, rfl, hhistory, ?_, ?_⟩
        · rw [hstep, hmove.appends, hhistory]
        · rw [← families_run]
          exact hmakes.passed hto
      | @retired last final mid hmakes hlast hmove hfinal hmove' =>
        rw [hmove'.appends] at h
        rcases List.eq_nil_or_concat' rest with rfl | ⟨rest, x, rfl⟩
        · have hevent := List.singleton_inj.mp (List.append_inj' h rfl).2
          rw [← hevent, hfinal] at hto
          cases hto
        · rw [← List.cons_append, ← List.append_assoc] at h
          have hmid := (List.append_inj' h rfl).1
          refine hmoved hmakes hmove hmid fun hrest => ?_
          subst hrest
          rw [hmove.appends] at hmid
          have hevent := List.singleton_inj.mp (List.append_inj' hmid rfl).2
          rw [← hevent, hlast] at hto
          cases hto
    · have hsame : (op.step (Runs.run RegistryOp.step Table.empty ops)).history id =
          (Runs.run RegistryOp.step Table.empty ops).history id := by
        cases (apply_moves (Runs.run RegistryOp.step Table.empty ops) op).1 with
        | same hsame => rw [hsame]
        | moved _ hmove => exact (hmove.other_status hid).2.1
        | retired _ _ hmove _ hmove' =>
          exact (hmove'.other_status hid).2.1.trans (hmove.other_status hid).2.1
      rw [hsame] at h
      exact (ih h).later op

/-- **Promotion history.** After any operations, raising ones included: every candidate's
history is a chain that ends in its status; a champion's last event is the approval of a
challenger by a human; and every event that makes a challenger was made by an operation that
was given a report that passes, if the candidate was then registered with two or more
families. -/
theorem promotion_history (ops : List RegistryOp) (state : CandidateState)
    (hstate : state ∈ (Runs.run RegistryOp.step Table.empty ops).rows) :
    Chained none state.history (some state.status) ∧
      (state.status = .paperChampion → Approved state.history) ∧
      ∀ history event rest, state.history = history ++ event :: rest →
        event.toStatus = .paperChallenger → GateOf ops state.candidateId history event := by
  have hfind := Table.find_of_mem hstate
  have horderly : ∀ j, Orderly (Runs.run RegistryOp.step Table.empty ops) j :=
    Runs.run_invariant (I := fun s => ∀ j, Orderly s j) orderly_step ops
      fun j => ⟨rfl, fun h => by cases h⟩
  have hhistory : (Runs.run RegistryOp.step Table.empty ops).history state.candidateId =
      state.history := by
    rw [PromotionRegistry.history, hfind]
    rfl
  have hstatus : (Runs.run RegistryOp.step Table.empty ops).status state.candidateId =
      some state.status := by
    rw [PromotionRegistry.status, hfind]
    rfl
  obtain ⟨hchained, happroved⟩ := horderly state.candidateId
  rw [hhistory, hstatus] at hchained happroved
  refine ⟨hchained, fun h => happroved (by rw [h]), fun history event rest heq hto => ?_⟩
  exact gate_run ops state.candidateId (hhistory.trans heq) hto

/-- A candidate of two families that becomes a challenger and a champion. -/
def championOps : List RegistryOp :=
  [.registerResearchCandidate "c" "cleared" [.orderFlow, .priceAuction] 0,
    .promoteToChallenger "c" "independent" (some ⟨[.orderFlow, .priceAuction], "PASS"⟩) 1 1,
    .promoteToChampion "c" 10 50 0 "operator" ⟨4, 20, true, true⟩ "reviewed" 2]

theorem promotion_history_champion :
    ∃ state ∈ (Runs.run RegistryOp.step Table.empty championOps).rows,
      state.status = .paperChampion ∧ Approved state.history := by
  have hany : (Runs.run RegistryOp.step Table.empty championOps).rows.any
      (fun state => state.status = .paperChampion) = true := by decide +kernel
  obtain ⟨state, hstate, hchampion⟩ := List.any_eq_true.mp hany
  have hstatus := of_decide_eq_true hchampion
  exact ⟨state, hstate, hstatus, (promotion_history championOps state hstate).2.1 hstatus⟩

end Greenfield.Research
