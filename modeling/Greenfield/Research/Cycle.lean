import Greenfield.Research.Promotion
import Greenfield.Research.Queue

/-!
# Research cycles and the promotion diagram

A cycle of `src/research/orchestrator.py` registers the best hypothesis that passes the gate
in the registry that the other operations use. Its names are those of every cycle before, and
a registration moves a candidate from any status, as a rejection does. So the diagram is kept
exactly by the runs that register and reject no candidate that has left it behind
(`diagram_respected`).
-/

namespace Greenfield.Research

open Keyed Py PromotionRegistry

/-! ## Cycles -/

/-- What the cycle finds for a hypothesis that it has run: whether `evaluate_candidate` passes
it, and its deflated Sharpe ratio. -/
structure CandidateEvidence where
  passed : Bool
  deflatedSharpeRatio : ℚ

/-- The best of the hypotheses that pass: the first one with the greatest ratio. -/
def selectBest (evidence : QueuedHypothesis → Option CandidateEvidence) :
    List QueuedHypothesis → Option (QueuedHypothesis × CandidateEvidence) →
      Option (QueuedHypothesis × CandidateEvidence)
  | [], best => best
  | qh :: rest, best =>
    match evidence qh with
    | none => selectBest evidence rest best
    | some e =>
      if e.passed then
        let better := match best with
          | none => true
          | some (_, b) => decide (b.deflatedSharpeRatio < e.deflatedSharpeRatio)
        selectBest evidence rest (if better then some (qh, e) else best)
      else selectBest evidence rest best

/-- `selected_id`, with the queue of the protocol. -/
def selectedId (protocol : ResearchProtocol)
    (evidence : QueuedHypothesis → Option CandidateEvidence) : Option String :=
  (selectBest evidence (buildHypothesisQueue protocol 1).queued none).map (·.1.hypothesisId)

/-- The registration of `run_cycle`. A cycle that is skipped or aborted has no evidence. -/
def runCycle (states : PromotionRegistry) (protocol : ResearchProtocol)
    (evidence : QueuedHypothesis → Option CandidateEvidence) (now : Instant) : PromotionRegistry :=
  match selectedId protocol evidence with
  | some id => (states.registerResearchCandidate id "cleared full promotion gate this cycle"
      [.priceAuction] now).2
  | none => states

/-- An operation of the registry, or a cycle. -/
inductive ResearchOp where
  | registry (op : RegistryOp)
  | cycle (protocol : ResearchProtocol) (evidence : QueuedHypothesis → Option CandidateEvidence)
      (now : Instant)

def ResearchOp.step (states : PromotionRegistry) : ResearchOp → PromotionRegistry
  | registry op => op.step states
  | cycle protocol evidence now => runCycle states protocol evidence now

/-! ## The diagram -/

/-- The edges of the diagram: `REJECTED -> RESEARCH_CANDIDATE -> PAPER_CHALLENGER ->
PAPER_CHAMPION`, with `DEGRADED` and `RETIRED` after them. -/
def documentedEdge : PromotionStatus → PromotionStatus → Bool
  | .rejected, .researchCandidate => true
  | .researchCandidate, .paperChallenger => true
  | .paperChallenger, .paperChampion => true
  | .paperChallenger, .degraded | .paperChampion, .degraded => true
  | .paperChallenger, .retired | .paperChampion, .retired | .degraded, .retired => true
  | _, _ => false

/-- An event that begins a history, changes nothing, or follows the diagram. -/
def Drawn (event : TransitionEvent) : Prop :=
  ∀ status, event.fromStatus = some status →
    status = event.toStatus ∨ documentedEdge status event.toStatus = true

/-- Every change of a status follows the diagram. -/
def DiagramRespected (s : PromotionRegistry) : Prop :=
  ∀ id, ∀ event ∈ s.history id, Drawn event

/-- The status from which a registration or a rejection follows the diagram. -/
def mayRegister (status : Option PromotionStatus) : Prop :=
  status = none ∨ status = some .rejected ∨ status = some .researchCandidate

def mayReject (status : Option PromotionStatus) : Prop :=
  status = none ∨ status = some .rejected

/-- The operation registers and rejects no candidate from another status. -/
def FollowsDiagram (s : PromotionRegistry) : ResearchOp → Prop
  | .registry (.registerResearchCandidate id _ families _) =>
    families.eraseDups ≠ [] → mayRegister (s.status id)
  | .registry (.reject id _ _) => mayReject (s.status id)
  | .registry _ => True
  | .cycle protocol evidence _ =>
    ∀ id, selectedId protocol evidence = some id → mayRegister (s.status id)

/-! ## Steps -/

variable {event : TransitionEvent}

theorem drawn_iff_register (hto : event.toStatus = .researchCandidate) :
    Drawn event ↔ mayRegister event.fromStatus := by
  unfold Drawn mayRegister
  rw [hto]
  cases event.fromStatus with
  | none => simp
  | some status => cases status <;> simp [documentedEdge]

theorem drawn_iff_reject (hto : event.toStatus = .rejected) :
    Drawn event ↔ mayReject event.fromStatus := by
  unfold Drawn mayReject
  rw [hto]
  cases event.fromStatus with
  | none => simp
  | some status => cases status <;> simp [documentedEdge]

variable {s : PromotionRegistry}

/-- An operation that moves a candidate from given statuses moves it along the diagram. -/
theorem RegistryOp.Makes.drawn {op : RegistryOp}
    (h : op.Makes s event) (hfrom : event.fromStatus = s.status op.candidateId)
    {allowed : List PromotionStatus} (hedge : op.edge.1 = some allowed) : Drawn event := by
  intro status hstatus
  obtain ⟨start, hmem, hstart⟩ := h.starts allowed hedge
  have hsame : status = start := Option.some.inj (hstatus.symm.trans (hfrom.trans hstart))
  subst hsame
  rw [h.ends]
  cases op <;> cases hedge <;> simp only [List.mem_cons, List.not_mem_nil, or_false] at hmem
  all_goals rcases hmem with rfl | rfl | rfl <;> first | exact .inl rfl | exact .inr rfl

theorem Move.respected_iff {s s' : PromotionRegistry} {id : String}
    (h : Move s id event s') (hs : DiagramRespected s) : DiagramRespected s' ↔ Drawn event := by
  constructor
  · intro hs'
    refine hs' id event ?_
    rw [h.appends]
    exact List.mem_append_right _ List.mem_cons_self
  · intro hevent j e he
    by_cases hj : j = id
    · subst hj
      rw [h.appends] at he
      rcases List.mem_append.mp he with he | he
      · exact hs j e he
      · rw [List.mem_singleton.mp he]
        exact hevent
    · rw [(h.other_status hj).2.1] at he
      exact hs j e he

theorem respected_register (hs : DiagramRespected s) (id reason : String)
    (families : List ConfirmationFamily) (now : Instant) :
    DiagramRespected (s.registerResearchCandidate id reason families now).2 ↔
      (families.eraseDups ≠ [] → mayRegister (s.status id)) := by
  by_cases hne : families.eraseDups = []
  · have hsame : (s.registerResearchCandidate id reason families now).2 = s := by
      simp only [registerResearchCandidate, hne, if_true]
    rw [hsame]
    exact ⟨fun _ h => absurd hne h, fun _ => hs⟩
  · rcases registerResearchCandidate_transits s id reason now families hne with ⟨hsome, -⟩ |
      ⟨-, state, event, s', heq, -, -, hmove, hto, -⟩
    · exact absurd rfl hsome
    · rw [heq, hmove.respected_iff hs, drawn_iff_register hto, hmove.starts]
      exact ⟨fun h _ => h, fun h => h hne⟩

theorem respected_step (s : PromotionRegistry) (op : ResearchOp) (hs : DiagramRespected s) :
    DiagramRespected (op.step s) ↔ FollowsDiagram s op := by
  cases op with
  | cycle protocol evidence now =>
    show DiagramRespected (runCycle s protocol evidence now) ↔
      ∀ id, selectedId protocol evidence = some id → mayRegister (s.status id)
    unfold runCycle
    cases selectedId protocol evidence with
    | none =>
      refine ⟨fun _ id h => ?_, fun _ => hs⟩
      cases h
    | some id =>
      simp only [Option.some.injEq]
      rw [respected_register hs]
      exact ⟨fun h j hj => hj ▸ h (by decide), fun h _ => h id rfl⟩
  | registry op =>
    have hgiven : ∀ {allowed}, op.edge.1 = some allowed → DiagramRespected (op.step s) := by
      intro allowed hedge
      cases (apply_moves s op).1 with
      | same h =>
        rw [h]
        exact hs
      | moved hmakes h => exact (h.respected_iff hs).mpr (hmakes.drawn h.starts hedge)
      | retired hmakes hevent h hlast h' =>
        refine (h'.respected_iff ((h.respected_iff hs).mpr (hmakes.drawn h.starts hedge))).mpr ?_
        intro status hstatus
        rw [h'.starts, h.ends, hevent] at hstatus
        cases hstatus
        rw [hlast]
        exact .inr rfl
    cases op with
    | registerResearchCandidate id reason families now =>
      exact respected_register hs id reason families now
    | reject id reason now =>
      rcases transition_transits s id .rejected none reason none now with ⟨hsome, -⟩ |
        ⟨-, state, event, s', heq, -, -, hmove, hto, -⟩
      · exact absurd rfl hsome
      · show DiagramRespected (s.transition id .rejected none reason none now).2 ↔ _
        rw [heq, hmove.respected_iff hs, drawn_iff_reject hto, hmove.starts]
        exact Iff.rfl
    | _ => exact ⟨fun _ => trivial, fun _ => hgiven rfl⟩

/-- **The diagram.** In a run of operations and cycles, every change of a status in every state
follows the diagram exactly when no registration, by hand or by a cycle, and no rejection is of
a candidate that has left it behind. -/
theorem diagram_respected (ops : List ResearchOp) :
    Runs.Always ResearchOp.step DiagramRespected Table.empty ops ↔
      Runs.Meets ResearchOp.step FollowsDiagram Table.empty ops :=
  Runs.always_iff_meets (I := fun _ => True) (fun _ _ _ => trivial)
    (fun s op _ hs => respected_step s op hs) ops trivial fun _ _ he => (List.not_mem_nil he).elim

/-! ## Two cycles -/

/-- A protocol with one family, symbol and timeframe. -/
def sampleProtocol : ResearchProtocol where
  market := ⟨["BTCUSDT"], ["4h"]⟩
  hypothesisBudget := ⟨1, 1⟩
  hypothesisFamilies := [⟨"momentum_trend", true⟩]

/-- Two cycles select the same hypothesis, which is promoted and retired between them. -/
def twoCycles : List ResearchOp :=
  [.cycle sampleProtocol (fun _ => some ⟨true, 1⟩) 0,
    .registry (.promoteToChallenger "HYP-momentum_trend-000001" "cleared" none 1 1),
    .registry (.retire "HYP-momentum_trend-000001" "degraded" 2),
    .cycle sampleProtocol (fun _ => some ⟨true, 1⟩) 3]

theorem retired_reset : ¬ ∀ ops : List ResearchOp,
    Runs.Always ResearchOp.step DiagramRespected Table.empty ops := by
  intro hclaim
  have hrespected := (hclaim twoCycles).run
  have hlast : ((Runs.run ResearchOp.step Table.empty twoCycles).history
      "HYP-momentum_trend-000001").getLast? = some ⟨some .retired, .researchCandidate,
        "cleared full promotion gate this cycle", 3, none⟩ := by decide +kernel
  rcases hrespected _ _ (List.mem_of_getLast? hlast) .retired rfl with h | h
  · cases h
  · cases h

end Greenfield.Research
