import Greenfield.Shadow.Producer
import Greenfield.Shadow.Runtime

/-!
# The producer and the runtime

The producer maps a decision to proposals, and the runtime validates the map by rules of its
own: keys, legs, times and notionals. What the producer enqueues passes them all
(`producer_accepted`), so an observation of it raises only where the journal or the risk engine
does.
-/

namespace Greenfield.Shadow

open Py Risk Json ShadowRuntime

/-! ## The terms of the proposals -/

section Terms

variable {observationId : String} {decision : MetaDecision} {setup : SetupDecision}
  {proposals : List PortfolioEntryProposal} (lower : String → String)

/-- What is read of the terms is read of the legs. -/
theorem map_of_terms {β : Type} {f : PortfolioEntryProposal → β}
    (g : String × String × String × ℚ × Datetime → β) (hf : ∀ p, f p = g (proposalTerms p))
    (h : proposals.map proposalTerms = setup.legs.zipIdx.map (legTerms observationId decision setup)) :
    proposals.map f = setup.legs.zipIdx.map fun x => g (legTerms observationId decision setup x) := by
  calc proposals.map f = (proposals.map proposalTerms).map g := by
        rw [List.map_map]
        exact List.map_congr_left fun p _ => hf p
    _ = _ := by
        rw [h, List.map_map]
        rfl

/-- The index keeps the keys apart. -/
theorem keys_nodup
    (h : proposals.map proposalTerms = setup.legs.zipIdx.map (legTerms observationId decision setup)) :
    (proposals.map PortfolioEntryProposal.key).Nodup := by
  have hkeys : proposals.map PortfolioEntryProposal.key =
      (setup.legs.zipIdx.map Prod.snd).map fun index =>
        observationId ++ ":leg-" ++ toString index := by
    rw [List.map_map]
    exact map_of_terms (·.1) (fun _ => rfl) h
  rw [hkeys, List.zipIdx_map_snd]
  refine List.Nodup.map ?_ List.nodup_range'
  intro i j hij
  exact toString_injective (String.append_right_inj _ |>.mp hij)

/-- The legs that the proposals name are those of the setup. -/
theorem legKeys_eq (hpos : 0 < perLegNotional decision setup)
    (h : proposals.map proposalTerms = setup.legs.zipIdx.map (legTerms observationId decision setup)) :
    proposals.map (proposalKey lower) = setup.legs.map (legKey lower) := by
  refine (map_of_terms (f := proposalKey lower)
    (fun t => (t.2.1, lower t.2.2.1, if t.2.2.2.1 > 0 then (1 : Int) else -1))
    (fun _ => rfl) h).trans ?_
  conv_rhs => rw [← List.zipIdx_map_fst 0 setup.legs, List.map_map]
  refine List.map_congr_left fun x _ => ?_
  have hsign : (if (if x.1.side = .buy then perLegNotional decision setup
      else -perLegNotional decision setup) > 0 then (1 : Int) else -1) =
        if x.1.side = .buy then 1 else -1 := by
    by_cases hside : x.1.side = .buy
    · rw [if_pos hside, if_pos hside, if_pos hpos]
    · rw [if_neg hside, if_neg hside, if_neg (by linarith)]
  exact congrArg (fun side => (x.1.symbol, lower x.1.venue, side)) hsign

/-- A proposal has the notional of a leg and the time of the decision. -/
theorem notional_of_terms (hpos : 0 < perLegNotional decision setup)
    (h : proposals.map proposalTerms = setup.legs.zipIdx.map (legTerms observationId decision setup))
    {p : PortfolioEntryProposal} (hp : p ∈ proposals) :
    |p.signedNotional| = perLegNotional decision setup ∧
      p.proposedAtUtc = decision.decisionTimestampUtc := by
  have hmem : proposalTerms p ∈ setup.legs.zipIdx.map (legTerms observationId decision setup) :=
    h ▸ List.mem_map_of_mem hp
  obtain ⟨x, -, hx⟩ := List.mem_map.mp hmem
  have hnotional : p.signedNotional = if x.1.side = .buy then perLegNotional decision setup
      else -perLegNotional decision setup := congrArg (·.2.2.2.1) hx.symm
  refine ⟨?_, congrArg (·.2.2.2.2) hx.symm⟩
  rw [hnotional]
  by_cases hside : x.1.side = .buy
  · rw [if_pos hside, abs_of_pos hpos]
  · rw [if_neg hside, abs_neg, abs_of_pos hpos]

end Terms

/-! ## Validation -/

variable {observationId : String} {decision : MetaDecision}
  {proposals : List PortfolioEntryProposal}

/-- Proposals that carry the terms of the legs are validated. -/
theorem validateActionable_of_terms (lower : String → String)
    {setup : SetupDecision}
    (hsetup : decision.selectedSetup = some setup) (hallocated : 0 < decision.allocatedNotional)
    (hne : proposals ≠ [])
    (h : proposals.map proposalTerms =
      setup.legs.zipIdx.map (legTerms observationId decision setup)) :
    validateActionable lower decision proposals = .ok () := by
  have hwait : decision.action ≠ .wait := fun heq => hallocated.ne' (decision.wait heq).2.2.2
  obtain ⟨hengine, -⟩ := decision.actionable hwait
  obtain ⟨engineId, hengine⟩ := Option.ne_none_iff_exists'.mp hengine
  have hlength : proposals.length = setup.legs.length := by
    simpa using congrArg List.length h
  have hone : (1 : ℚ) ≤ setup.legs.length := by
    exact_mod_cast hlength ▸ List.length_pos_iff.mpr hne
  -- a leg has its share of the allocation, or all of it
  have hper : 0 < perLegNotional decision setup ∧
      perLegNotional decision setup ≤ decision.allocatedNotional ∧
      (decision.action = .arbitrage ∨
        setup.legs.length * perLegNotional decision setup = decision.allocatedNotional) := by
    unfold perLegNotional
    by_cases harbitrage : decision.action = .arbitrage
    · rw [if_pos harbitrage]
      exact ⟨hallocated, le_refl _, .inl harbitrage⟩
    · rw [if_neg harbitrage]
      refine ⟨div_pos hallocated (by linarith), ?_, .inr (mul_div_cancel₀ _ (by linarith))⟩
      rw [div_le_iff₀ (by linarith)]
      exact le_mul_of_one_le_right hallocated.le hone
  obtain ⟨hpos, hle, htotal⟩ := hper
  have hnotional : ∀ p ∈ proposals, |p.signedNotional| = perLegNotional decision setup :=
    fun p hp => (notional_of_terms hpos h hp).1
  unfold validateActionable
  rw [hsetup, hengine]
  simp only [bind_eq_ok, require_eq_ok, decide_eq_true_eq]
  refine ⟨(), ⟨hne, hlength⟩, (), keys_nodup h, (), ?_, (), ?_, (), ?_, (), ?_, ?_⟩
  · rw [legKeys_eq lower hpos h]
    exact List.isPerm_iff.mpr (List.Perm.refl _)
  · refine List.all_eq_true.mpr fun p hp => decide_eq_true ?_
    rw [(notional_of_terms hpos h hp).2]
  · refine List.all_eq_true.mpr fun p hp => decide_eq_true ?_
    rw [hnotional p hp]
    exact hle
  · refine htotal.imp_right fun heq => ?_
    have hsum := totalNotional_eq hnotional
    rw [hlength, heq] at hsum
    exact hsum.le
  · -- the legs of an arbitrage all have the same notional
    refine .inr (List.all_eq_true.mpr fun v hv => ?_)
    have hall : ∀ v ∈ proposals.map fun p => |p.signedNotional|,
        v = perLegNotional decision setup := by
      intro v hv
      obtain ⟨p, hp, rfl⟩ := List.mem_map.mp hv
      exact hnotional p hp
    cases proposals with
    | nil => exact absurd rfl hne
    | cons p ps =>
      rw [hall v (List.mem_of_mem_tail hv), List.map_cons, List.headD_cons,
        hnotional p (List.mem_cons_self ..)]
      exact isclose_self ..

/-- Where an observation of validated work can raise. -/
theorem observation_error {lower : String → String} {r : ShadowRuntime}
    {equity : ℚ} {e : PyError}
    (hvalid : decision.action ≠ .wait → validateActionable lower decision proposals = .ok ())
    (hwait : decision.action = .wait → proposals = [])
    (h : r.observation lower decision observationId proposals equity = .error e) :
    r.journal.ensureAvailable observationId = .error e ∨ r.staged = .error e ∨
      ∃ staged, r.staged = .ok staged ∧ evaluateAll equity staged [] proposals = .error e := by
  unfold observation at h
  cases havailable : r.journal.ensureAvailable observationId with
  | error e' =>
    rw [havailable] at h
    change Except.error e' = Except.error e at h
    cases h
    exact .inl rfl
  | ok u =>
    rw [havailable] at h
    refine .inr ?_
    by_cases haction : decision.action = .wait
    · rw [hwait haction] at h
      simp [haction, require, bind, Except.bind] at h
    · have hok := hvalid haction
      cases hstaged : r.staged with
      | error e' =>
        simp [haction, hok, hstaged, bind, Except.bind] at h
        exact .inl (h ▸ rfl)
      | ok staged =>
        refine .inr ⟨staged, rfl, ?_⟩
        simp only [bind, Except.bind, if_neg haction, hok, hstaged] at h
        split at h
        · next e' heq =>
          cases h
          exact heq
        · next staging heq =>
          split at h
          · cases h
          · split at h <;> cases h

/-- **The producer and the runtime agree**: the proposals of an actionable decision pass the
validation, a decision to wait has none, and an observation of the work raises only where the
journal or the risk engine does. -/
theorem producer_accepted (lower : String → String) {config : ShadowProducerConfig}
    {observationId : String} {candidates : List EngineCandidate} {portfolio : MetaPortfolioState}
    {decisionTimestampUtc producedAtUtc : Datetime} {equity : ℚ} {work : ShadowWork}
    (h : produce config observationId candidates portfolio decisionTimestampUtc producedAtUtc
      equity = .ok work) :
    (work.decision.action ≠ .wait →
      validateActionable lower work.decision work.proposals = .ok ()) ∧
    (work.decision.action = .wait → work.proposals = []) ∧
    ∀ (r : ShadowRuntime) (e : PyError),
      r.observation lower work.decision work.observationId work.proposals work.equity = .error e →
        r.journal.ensureAvailable work.observationId = .error e ∨ r.staged = .error e ∨
          ∃ staged, r.staged = .ok staged ∧
            evaluateAll work.equity staged [] work.proposals = .error e := by
  have hvalid : (work.decision.action ≠ .wait →
      validateActionable lower work.decision work.proposals = .ok ()) ∧
      (work.decision.action = .wait → work.proposals = []) := by
    rcases produce_eq_ok h with ⟨hwait, hnil⟩ |
      ⟨candidate, -, hsetup, -, -, hpos, hproposals, hne⟩
    · exact ⟨fun hne => absurd hwait hne, fun _ => hnil⟩
    · refine ⟨fun _ => ?_, fun hwait => ?_⟩
      · exact validateActionable_of_terms lower hsetup hpos hne
          (buildProposals_terms hsetup hproposals hne)
      · exact absurd (work.decision.wait hwait).2.2.2 hpos.ne'
  exact ⟨hvalid.1, hvalid.2, fun r e he => observation_error hvalid.1 hvalid.2 he⟩

/-- The arbitrage of two legs is enqueued and accepted. -/
theorem producer_accepted_arbitrage :
    ∃ work, produceOf "neutral-v1" .neutral arbitrageSetup (by decide) = .ok work ∧
      work.decision.action ≠ .wait ∧
      (work.decision.action ≠ .wait →
        validateActionable id work.decision work.proposals = .ok ()) ∧
      (work.decision.action = .wait → work.proposals = []) ∧
      ∀ (r : ShadowRuntime) (e : PyError),
        r.observation id work.decision work.observationId work.proposals work.equity = .error e →
          r.journal.ensureAvailable work.observationId = .error e ∨ r.staged = .error e ∨
            ∃ staged, r.staged = .ok staged ∧
              evaluateAll work.equity staged [] work.proposals = .error e := by
  have hsome : (produceOf "neutral-v1" .neutral arbitrageSetup (by decide)).toOption.any
      (fun work => decide (work.decision.action ≠ .wait)) = true := by decide +kernel
  cases hwork : produceOf "neutral-v1" .neutral arbitrageSetup (by decide) with
  | error e =>
    rw [hwork] at hsome
    cases hsome
  | ok work =>
    rw [hwork] at hsome
    exact ⟨work, rfl, of_decide_eq_true hsome, producer_accepted id hwork⟩

end Greenfield.Shadow
