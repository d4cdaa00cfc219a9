import Greenfield.Lib.Json
import Greenfield.Py.Time
import Greenfield.Research.Promotion

/-!
# The file of the registry

`_load` and `_save` of `src/research/promotion.py`. A save overwrites the file in place: it
truncates it and then writes the text, and some operations save twice (`saves`). A crash
leaves what the saves so far have left, or the beginning of a text (`Leaves`). So only a call
that is refused before its first save is atomic under crashes (`crash_atomic_iff`).
-/

namespace Greenfield.Research

open Keyed Py JsonText

/-! ## The text of a registry -/

/-- A JSON value without floats, its dictionaries in the order in which they are written. -/
abbrev RegistryJson := Json.Value Empty

/-- A line feed and two blanks for each level. -/
def newline (depth : ℕ) : List Char := '\n' :: List.replicate (2 * depth) ' '

mutual

/-- `json.dumps(value, indent=2)`, at a level. -/
def indented (depth : ℕ) : RegistryJson → List Char
  | .null => ['n', 'u', 'l', 'l']
  | .bool true => ['t', 'r', 'u', 'e']
  | .bool false => ['f', 'a', 'l', 's', 'e']
  | .int n => (NumberToken.ofInt n).text
  | .float x => x.elim
  | .str s => Json.writeString s
  | .arr [] => ['[', ']']
  | .arr (v :: vs) =>
    '[' :: (newline (depth + 1) ++ indented (depth + 1) v ++ indentedElems depth vs)
  | .obj [] => ['{', '}']
  | .obj ((k, v) :: items) =>
    '{' :: (newline (depth + 1) ++ Json.writeString k ++ [':', ' '] ++ indented (depth + 1) v ++
      indentedItems depth items)

/-- The elements after the first, and the bracket. -/
def indentedElems (depth : ℕ) : List RegistryJson → List Char
  | [] => newline depth ++ [']']
  | v :: vs => ',' :: (newline (depth + 1) ++ indented (depth + 1) v ++ indentedElems depth vs)

/-- The items after the first, and the brace. -/
def indentedItems (depth : ℕ) : List (String × RegistryJson) → List Char
  | [] => newline depth ++ ['}']
  | (k, v) :: items =>
    ',' :: (newline (depth + 1) ++ Json.writeString k ++ [':', ' '] ++ indented (depth + 1) v ++
      indentedItems depth items)

end

def PromotionStatus.text : PromotionStatus → String
  | .rejected => "REJECTED"
  | .researchCandidate => "RESEARCH_CANDIDATE"
  | .paperChallenger => "PAPER_CHALLENGER"
  | .paperChampion => "PAPER_CHAMPION"
  | .degraded => "DEGRADED"
  | .retired => "RETIRED"

def ConfirmationFamily.value : ConfirmationFamily → String
  | .priceAuction => "price_auction"
  | .orderFlow => "order_flow"
  | .derivatives => "derivatives"
  | .volatilityOptions => "volatility_options"
  | .crossMarket => "cross_market"
  | .regimeAnalog => "regime_analog"

def orNull : Option String → RegistryJson
  | some s => .str s
  | none => .null

/-- `now.isoformat(timespec="seconds")`. -/
def isoSeconds (now : Instant) : String := isoformat (now / microsPerSecond * microsPerSecond)

/-- `asdict(event)`. -/
def TransitionEvent.toDict (event : TransitionEvent) : RegistryJson :=
  .obj [("from_status", orNull (event.fromStatus.map PromotionStatus.text)),
    ("to_status", .str event.toStatus.text), ("reason", .str event.reason),
    ("at", .str (isoSeconds event.madeAt)), ("human_approved_by", orNull event.humanApprovedBy)]

/-- `to_dict`. -/
def CandidateState.toDict (state : CandidateState) : RegistryJson :=
  .obj [("candidate_id", .str state.candidateId), ("status", .str state.status.text),
    ("history", .arr (state.history.map TransitionEvent.toDict)),
    ("paper_started_at", orNull (state.paperStartedAt.map isoSeconds)),
    ("consecutive_degraded_reviews", .int state.consecutiveDegradedReviews),
    ("confirmation_families",
      .arr (state.confirmationFamilies.map fun family => .str family.value))]

/-- What `_save` writes. -/
def PromotionRegistry.text (states : PromotionRegistry) : List Char :=
  indented 0 (.obj (states.rows.map fun state => (state.candidateId, state.toDict)))

/-- `json.loads` and `from_dict` of a text, or `none` where they raise: no value has no text. -/
structure RegistryReader where
  loads : List Char → Option PromotionRegistry
  loads_nil : loads [] = none

/-- `_load`, or `none` where it raises. -/
def RegistryReader.load (reader : RegistryReader) : Option (List Char) → Option PromotionRegistry
  | none => some .empty
  | some text => reader.loads text

/-! ## Saves -/

/-- What a call saves that saves once, where it does not raise. -/
def savedOnce : RegistryResult → List PromotionRegistry
  | (.ok _, states) => [states]
  | (.error _, _) => []

/-- What `andSave` saves: the transition, and the state that was changed after it. -/
def savedTwice (transition : RegistryResult) (f : CandidateState → CandidateState) :
    List PromotionRegistry :=
  match transition with
  | (.ok state, states) => [states, states.upsert (f state)]
  | (.error _, _) => []

/-- What a call saves whose guards raise before its transition. -/
def savedAfter (answer : RegistryResult) (saves : List PromotionRegistry) :
    List PromotionRegistry :=
  match answer.1 with
  | .ok _ => saves
  | .error _ => []

namespace RegistryOp

/-- The registries that an operation saves, in order. -/
def saves (states : PromotionRegistry) : RegistryOp → List PromotionRegistry
  | registerResearchCandidate id reason families now =>
    savedAfter (states.registerResearchCandidate id reason families now)
      (savedTwice (states.transition id .researchCandidate none reason none now)
        fun state => { state with confirmationFamilies := families.eraseDups })
  | promoteToChallenger id reason report now startedAt =>
    savedAfter (states.promoteToChallenger id reason report now startedAt)
      (savedTwice (states.transition id .paperChallenger (some [.researchCandidate]) reason none now)
        fun state => { state with paperStartedAt := some startedAt })
  | promoteMultiFamilyToChallenger id reason report required now startedAt =>
    savedAfter (states.promoteMultiFamilyToChallenger id reason report required now startedAt)
      (savedTwice (states.transition id .paperChallenger (some [.researchCandidate]) reason none now)
        fun state => { state with paperStartedAt := some startedAt })
  | markDegraded id reason config now retiredAt =>
    let mark (state : CandidateState) : CandidateState :=
      { state with consecutiveDegradedReviews := state.consecutiveDegradedReviews + 1 }
    match states.transition id .degraded (some [.paperChallenger, .paperChampion, .degraded]) reason
        none now with
    | (.error _, _) => []
    | (.ok state, mid) =>
      [mid, mid.upsert (mark state)] ++
        if config.consecutiveDegradedReviewsBeforeRetirement ≤
            (mark state).consecutiveDegradedReviews then
          savedOnce (PromotionRegistry.retire (mid.upsert (mark state)) id ("auto-retired after " ++
            toString (mark state).consecutiveDegradedReviews ++ " consecutive degraded reviews")
            retiredAt)
        else []
  | op => savedOnce (op.apply states)

/-- The families of the call are those of the candidate. -/
def sameFamilies (required families : List ConfirmationFamily) : Prop :=
  ∀ family, family ∈ families ↔ family ∈ required

/-- The candidate has none of the statuses from which it may move, if they are limited. -/
def Blocked (states : PromotionRegistry) (id : String) (allowedFrom : Option (List PromotionStatus)) :
    Prop :=
  ∃ allowed, allowedFrom = some allowed ∧ ∀ status ∈ allowed, states.status id ≠ some status

/-- The call is refused: its candidate cannot move, or a guard of the operation fails. -/
def Refused (states : PromotionRegistry) (op : RegistryOp) : Prop :=
  Blocked states op.candidateId op.edge.1 ∨
  match op with
  | registerResearchCandidate _ _ families _ => families = []
  | promoteToChallenger id _ report _ _ =>
    states.families id = [] ∨ ¬ Passed (states.families id) report
  | promoteMultiFamilyToChallenger id _ report required _ _ =>
    required.eraseDups.length < 2 ∨ ¬ sameFamilies required (states.families id) ∨
      states.families id = [] ∨ ¬ Passed (states.families id) (some report)
  | promoteToChampion _ weeks trades violations human config _ _ =>
    config.requiresHumanApproval = false ∨ isBlank human = true ∨ weeks < config.minPaperWeeks ∨
      trades < config.minPaperTrades ∨ 0 < violations ∧ config.noRiskLimitViolations = true
  | _ => False

end RegistryOp

/-- What a crash can leave of a file with these saves to come. -/
inductive Leaves : Option (List Char) → List PromotionRegistry → Option (List Char) → Prop
  /-- It comes between two saves, or before the first or after the last. -/
  | between (file : Option (List Char)) (saves : List PromotionRegistry) : Leaves file saves file
  /-- The file was truncated, and a part of the text was written. -/
  | during (file : Option (List Char)) (states : PromotionRegistry)
      (saves : List PromotionRegistry) {part : List Char} (h : part <+: states.text) :
      Leaves file (states :: saves) (some part)
  | later (file : Option (List Char)) {states : PromotionRegistry} {saves : List PromotionRegistry}
      {left : Option (List Char)} (h : Leaves (some states.text) saves left) :
      Leaves file (states :: saves) left

/-- Every crash of the call leaves a file that is read as the registry before it or after it. -/
def CrashAtomic (reader : RegistryReader) (file : Option (List Char)) (states : PromotionRegistry)
    (op : RegistryOp) : Prop :=
  ∀ left, Leaves file (op.saves states) left →
    reader.load left = some states ∨ reader.load left = some (op.step states)

namespace PromotionRegistry

variable {s : PromotionRegistry} {id : String} {allowedFrom : Option (List PromotionStatus)}

theorem transition_blocked (h : RegistryOp.Blocked s id allowedFrom) (newStatus : PromotionStatus)
    (reason : String) (human : Option String) (now : Instant) :
    ∃ err, s.transition id newStatus allowedFrom reason human now = (.error err, s) := by
  obtain ⟨allowed, rfl, hnone⟩ := h
  rcases transition_cases s id newStatus (some allowed) reason human now with ⟨-, err, heq⟩ |
    ⟨hallowed, -⟩
  · exact ⟨err, heq⟩
  · obtain ⟨status, hmem, hstatus⟩ := hallowed allowed rfl
    exact absurd hstatus (hnone status hmem)

theorem transition_free (h : ¬ RegistryOp.Blocked s id allowedFrom) (newStatus : PromotionStatus)
    (reason : String) (human : Option String) (now : Instant) :
    ∃ state, s.transition id newStatus allowedFrom reason human now = (.ok state, s.upsert state) ∧
      state.candidateId = id ∧ state.status = newStatus := by
  unfold transition
  simp only
  split
  · next hnot =>
    refine absurd ?_ h
    cases allowedFrom with
    | none => cases hnot
    | some allowed =>
      refine ⟨allowed, rfl, fun status hmem hstatus => ?_⟩
      simp only [Option.isSome_some, Option.getD_some, Bool.true_and, Bool.not_eq_true',
        List.any_eq_false, decide_eq_true_eq] at hnot
      exact hnot status hmem hstatus.symm
  · refine ⟨_, rfl, ?_, rfl⟩
    cases hfind : s.find id with
    | none => rfl
    | some current =>
      have hkey : current.candidateId = id := Table.find_key hfind
      exact hkey

variable {reason : String} {now startedAt : Instant}
  {report : Option ConfirmationIndependenceReport}

theorem promoteToChallenger_passed (hfamilies : s.families id ≠ [])
    (hpassed : Passed (s.families id) report) :
    s.promoteToChallenger id reason report now startedAt =
      andSave (s.transition id .paperChallenger (some [.researchCandidate]) reason none now)
        fun state => { state with paperStartedAt := some startedAt } := by
  unfold promoteToChallenger
  simp only [if_neg hfamilies]
  split
  · next err hgate =>
    split at hgate
    · next hmany =>
      obtain ⟨r, rfl, hr⟩ := hpassed hmany
      exact nomatch hr.symm.trans hgate
    · cases hgate
  · rfl

theorem promoteToChallenger_guarded
    (h : s.families id = [] ∨ ¬ Passed (s.families id) report) :
    ∃ err, s.promoteToChallenger id reason report now startedAt = (.error err, s) := by
  unfold promoteToChallenger
  simp only
  split
  · exact ⟨_, rfl⟩
  · next hfamilies =>
    split
    · exact ⟨_, rfl⟩
    · next hgate =>
      refine absurd (fun htwo => ?_) (h.resolve_left hfamilies)
      rw [if_pos htwo] at hgate
      split at hgate
      · cases hgate
      · next r => exact ⟨r, rfl, hgate⟩

end PromotionRegistry

namespace RegistryOp

open PromotionRegistry

variable {s : PromotionRegistry} {op : RegistryOp}

/-- What an operation saves: nothing where it is refused, and else the registry that it leaves in
the end. -/
structure SavesAsItSays (s : PromotionRegistry) (op : RegistryOp) : Prop where
  refused : op.Refused s → op.saves s = [] ∧ op.step s = s
  saved : ¬ op.Refused s → (op.saves s).getLast? = some (op.step s)

variable {id reason : String}

variable {newStatus : PromotionStatus} {allowedFrom : Option (List PromotionStatus)}
  {now : Instant}

variable {human : Option String}

theorem savedOnce_transition
    :
    (Blocked s id allowedFrom →
      savedOnce (s.transition id newStatus allowedFrom reason human now) = [] ∧
        (s.transition id newStatus allowedFrom reason human now).2 = s) ∧
    (¬ Blocked s id allowedFrom →
      (savedOnce (s.transition id newStatus allowedFrom reason human now)).getLast? =
        some (s.transition id newStatus allowedFrom reason human now).2) := by
  constructor
  · intro hblocked
    obtain ⟨err, heq⟩ := transition_blocked hblocked newStatus reason human now
    rw [heq]
    exact ⟨rfl, rfl⟩
  · intro hfree
    obtain ⟨state, heq, -, -⟩ := transition_free hfree newStatus reason human now
    rw [heq]
    rfl

variable {answer : RegistryResult}

/-- A call that raises before it saves. -/
theorem savedAfter_error {saves : List PromotionRegistry}
    (h : ∃ err, answer = (.error err, s)) : savedAfter answer saves = [] ∧ answer.2 = s := by
  obtain ⟨err, rfl⟩ := h
  exact ⟨rfl, rfl⟩

/-- A call that changes the state after its transition, and saves it again. -/
theorem savedTwice_andSave
    {f : CandidateState → CandidateState}
    (h : answer = andSave (s.transition id newStatus allowedFrom reason none now) f) :
    (Blocked s id allowedFrom → ∃ err, answer = (.error err, s)) ∧
    (¬ Blocked s id allowedFrom → (savedAfter answer
      (savedTwice (s.transition id newStatus allowedFrom reason none now) f)).getLast? =
        some answer.2) := by
  subst h
  constructor
  · intro hblocked
    obtain ⟨err, heq⟩ := transition_blocked hblocked newStatus reason none now
    rw [heq]
    exact ⟨err, rfl⟩
  · intro hfree
    obtain ⟨state, heq, -, -⟩ := transition_free hfree newStatus reason none now
    rw [heq]
    rfl

theorem eraseDups_eq_nil {l : List ConfirmationFamily} : l.eraseDups = [] ↔ l = [] := by
  cases l with
  | nil => exact iff_of_true rfl rfl
  | cons x l => simp [List.eraseDups_cons]

theorem registers_saves (id reason : String) (families : List ConfirmationFamily) (now : Instant) :
    SavesAsItSays s (.registerResearchCandidate id reason families now) := by
  have hfree : ¬ Blocked s id none := by
    rintro ⟨allowed, hnone, -⟩
    cases hnone
  constructor
  · intro href
    obtain rfl := href.resolve_left hfree
    exact ⟨rfl, rfl⟩
  · intro hnot
    have hfamilies : families.eraseDups ≠ [] := fun hnil =>
      hnot (.inr (eraseDups_eq_nil.mp hnil))
    refine (savedTwice_andSave ?_).2 hfree
    unfold PromotionRegistry.registerResearchCandidate
    simp only [if_neg hfamilies]

theorem promoteToChallenger_refused
    {report : Option ConfirmationIndependenceReport} {now startedAt : Instant}
    (h : Blocked s id (some [.researchCandidate]) ∨ s.families id = [] ∨
      ¬ Passed (s.families id) report) :
    ∃ err, s.promoteToChallenger id reason report now startedAt = (.error err, s) := by
  by_cases hguard : s.families id = [] ∨ ¬ Passed (s.families id) report
  · exact promoteToChallenger_guarded hguard
  · have hblocked := h.resolve_right hguard
    rw [not_or, not_not] at hguard
    exact (savedTwice_andSave (promoteToChallenger_passed hguard.1 hguard.2)).1 hblocked

theorem challenger_saves (id reason : String) (report : Option ConfirmationIndependenceReport)
    (now startedAt : Instant) :
    SavesAsItSays s (.promoteToChallenger id reason report now startedAt) := by
  constructor
  · exact fun href => savedAfter_error (promoteToChallenger_refused href)
  · intro hnot
    obtain ⟨hfree, hguard⟩ := not_or.mp hnot
    rw [not_or, not_not] at hguard
    exact (savedTwice_andSave (promoteToChallenger_passed hguard.1 hguard.2)).2 hfree

theorem sameFamilies_iff {required families : List ConfirmationFamily} :
    (families.all (required.contains ·) && required.all (families.contains ·)) = true ↔
      sameFamilies required families := by
  rw [Bool.and_eq_true, List.all_eq_true, List.all_eq_true]
  simp only [List.contains_iff_mem]
  exact ⟨fun h family => ⟨h.1 family, h.2 family⟩,
    fun h => ⟨fun family => (h family).mp, fun family => (h family).mpr⟩⟩

section

variable {id reason : String} {report : ConfirmationIndependenceReport}
  {required : List ConfirmationFamily} {now startedAt : Instant}

theorem promoteMultiFamily_guarded
    (h : required.eraseDups.length < 2 ∨ ¬ sameFamilies required (s.families id)) :
    ∃ err, s.promoteMultiFamilyToChallenger id reason report required now startedAt =
      (.error err, s) := by
  unfold PromotionRegistry.promoteMultiFamilyToChallenger
  split
  · exact ⟨_, rfl⟩
  · next hlen =>
    simp only
    split
    · exact ⟨_, rfl⟩
    · next hsame =>
      refine absurd ?_ (h.resolve_left hlen)
      simp only [sameFamilies_iff, Bool.not_eq_true', Bool.not_eq_false, Option.any_eq_true] at hsame
      obtain ⟨state, hstate, hboth⟩ := hsame
      rw [PromotionRegistry.families, hstate]
      exact hboth

theorem promoteMultiFamily_passed (hlen : ¬ required.eraseDups.length < 2)
    (hsame : sameFamilies required (s.families id)) (hfamilies : s.families id ≠ []) :
    s.promoteMultiFamilyToChallenger id reason report required now startedAt =
      s.promoteToChallenger id reason (some report) now startedAt := by
  unfold PromotionRegistry.promoteMultiFamilyToChallenger
  rw [if_neg hlen]
  simp only
  rw [if_neg]
  cases hfind : s.find id with
  | none =>
    rw [PromotionRegistry.families, hfind] at hfamilies
    exact absurd rfl hfamilies
  | some state =>
    rw [PromotionRegistry.families, hfind] at hsame
    have hsame' : sameFamilies required state.confirmationFamilies := hsame
    simpa only [Option.any_some, Bool.not_eq_true', Bool.not_eq_false] using
      sameFamilies_iff.mpr hsame'

theorem multiFamily_saves :
    SavesAsItSays s (.promoteMultiFamilyToChallenger id reason report required now startedAt) := by
  by_cases hguard : required.eraseDups.length < 2 ∨ ¬ sameFamilies required (s.families id)
  · refine ⟨fun _ => savedAfter_error (promoteMultiFamily_guarded hguard), fun hnot => ?_⟩
    obtain ⟨-, hnot⟩ := not_or.mp hnot
    exact absurd (hguard.imp_right .inl) hnot
  · obtain ⟨hlen, hsame⟩ := not_or.mp hguard
    rw [not_not] at hsame
    constructor
    · intro href
      have hfamilies : s.families id ≠ [] := by
        intro hnil
        have hnone : required = [] := List.eq_nil_iff_forall_not_mem.mpr fun family hmem => by
          have hmem' := (hsame family).mpr hmem
          rw [hnil] at hmem'
          cases hmem'
        rw [hnone] at hlen
        exact hlen (by decide)
      refine savedAfter_error ?_
      rw [promoteMultiFamily_passed hlen hsame hfamilies]
      refine promoteToChallenger_refused (href.imp_right fun hguarded => ?_)
      exact (hguarded.resolve_left hlen).resolve_left (not_not.mpr hsame)
    · intro hnot
      obtain ⟨hfree, hrest⟩ := not_or.mp hnot
      simp only [not_or, not_not] at hrest
      obtain ⟨-, -, hfamilies, hpassed⟩ := hrest
      exact (savedTwice_andSave ((promoteMultiFamily_passed hlen hsame hfamilies).trans
        (promoteToChallenger_passed hfamilies hpassed))).2 hfree

end

/-- A call that saves once, and does what its transition does unless a guard fails. -/
theorem savedOnce_guarded
    {guarded : Prop}
    (herror : guarded → ∃ err, answer = (.error err, s))
    (hpassed : ¬ guarded → answer = s.transition id newStatus allowedFrom reason human now) :
    (Blocked s id allowedFrom ∨ guarded → savedOnce answer = [] ∧ answer.2 = s) ∧
    (¬ (Blocked s id allowedFrom ∨ guarded) → (savedOnce answer).getLast? = some answer.2) := by
  by_cases hguard : guarded
  · obtain ⟨err, rfl⟩ := herror hguard
    exact ⟨fun _ => ⟨rfl, rfl⟩, fun hnot => absurd (.inr hguard) hnot⟩
  · rw [hpassed hguard]
    exact ⟨fun h => savedOnce_transition.1 (h.resolve_right hguard),
      fun hnot => savedOnce_transition.2 fun hblocked => hnot (.inl hblocked)⟩

theorem champion_saves (id : String) (weeks : ℚ) (trades violations : Int) (human : String)
    (config : PaperPromotionConfig) (reason : String) (now : Instant) :
    SavesAsItSays s (.promoteToChampion id weeks trades violations human config reason now) := by
  have herror : (config.requiresHumanApproval = false ∨ isBlank human = true ∨
      weeks < config.minPaperWeeks ∨ trades < config.minPaperTrades ∨
      0 < violations ∧ config.noRiskLimitViolations = true) →
      ∃ err, s.promoteToChampion id weeks trades violations human config reason now =
        (.error err, s) := by
    intro hguard
    unfold PromotionRegistry.promoteToChampion
    split
    · exact ⟨_, rfl⟩
    next hhuman =>
    split
    · exact ⟨_, rfl⟩
    next hblank =>
    split
    · exact ⟨_, rfl⟩
    next hweeks =>
    split
    · exact ⟨_, rfl⟩
    next htrades =>
    split
    · exact ⟨_, rfl⟩
    next hviolations =>
    rcases hguard with h | h | h | h | h
    · exact absurd h (by simpa using hhuman)
    · exact absurd h hblank
    · exact absurd h hweeks
    · exact absurd h htrades
    · exact absurd h hviolations
  have hpassed : ¬ (config.requiresHumanApproval = false ∨ isBlank human = true ∨
      weeks < config.minPaperWeeks ∨ trades < config.minPaperTrades ∨
      0 < violations ∧ config.noRiskLimitViolations = true) →
      s.promoteToChampion id weeks trades violations human config reason now =
        s.transition id .paperChampion (some [.paperChallenger]) reason (some human) now := by
    intro hguard
    simp only [not_or] at hguard
    obtain ⟨hhuman, hblank, hweeks, htrades, hviolations⟩ := hguard
    unfold PromotionRegistry.promoteToChampion
    rw [if_neg (by simpa using hhuman), if_neg hblank, if_neg hweeks, if_neg htrades,
      if_neg hviolations]
  have h := savedOnce_guarded herror hpassed
  exact ⟨h.1, h.2⟩

theorem degraded_saves (id reason : String) (config : RetirementConfig) (now retiredAt : Instant) :
    SavesAsItSays s (.markDegraded id reason config now retiredAt) := by
  constructor
  · rintro (hblocked | hnever)
    · obtain ⟨err, heq⟩ := transition_blocked hblocked .degraded reason none now
      simp only [edge, candidateId] at heq
      simp only [saves, step, apply, PromotionRegistry.markDegraded, heq, andSave]
      exact ⟨trivial, trivial⟩
    · exact hnever.elim
  · intro hnot
    obtain ⟨state, heq, hid, hstatus⟩ := transition_free (not_or.mp hnot).1 .degraded reason none now
    simp only [edge, candidateId] at heq hid
    simp only [saves, step, apply, PromotionRegistry.markDegraded, heq, andSave]
    split
    · -- The candidate is degraded, so it can retire.
      have hfree : ∀ mark : CandidateState, mark.candidateId = id → mark.status = .degraded →
          ¬ Blocked ((s.upsert state).upsert mark) id
            (some [.paperChallenger, .paperChampion, .degraded]) := by
        rintro mark hmark hdegraded ⟨allowed, hallowed, hnone⟩
        cases hallowed
        refine hnone .degraded (by simp) ?_
        rw [PromotionRegistry.status, Table.find_upsert, if_pos hmark.symm, Option.map_some,
          hdegraded]
      rw [List.getLast?_append, PromotionRegistry.retire, savedOnce_transition.2 (hfree { state with
        consecutiveDegradedReviews := state.consecutiveDegradedReviews + 1 } hid hstatus)]
      rfl
    · rfl

theorem saves_spec (s : PromotionRegistry) (op : RegistryOp) : SavesAsItSays s op := by
  cases op with
  | registerResearchCandidate id reason families now => exact registers_saves ..
  | promoteToChallenger id reason report now startedAt => exact challenger_saves ..
  | promoteMultiFamilyToChallenger id reason report required now startedAt =>
    exact multiFamily_saves
  | promoteToChampion id weeks trades violations human config reason now => exact champion_saves ..
  | markDegraded id reason config now retiredAt => exact degraded_saves ..
  | reject id reason now | retire id reason now | killPaper id reason now =>
    exact ⟨fun href => savedOnce_transition.1 (href.resolve_right not_false),
      fun hnot => savedOnce_transition.2 fun hblocked => hnot (.inl hblocked)⟩

end RegistryOp

theorem text_ne_nil (states : PromotionRegistry) : states.text ≠ [] := by
  unfold PromotionRegistry.text
  cases states.rows.map fun state => (state.candidateId, state.toDict) with
  | nil => exact List.cons_ne_nil _ _
  | cons item items => exact List.cons_ne_nil _ _

/-- A reader of the texts of some registries. -/
def readerOf (registries : List PromotionRegistry) : RegistryReader where
  loads text := registries.find? fun states => states.text = text
  loads_nil := List.find?_eq_none.mpr fun states _ => by simpa using text_ne_nil states

theorem readerOf_head (states : PromotionRegistry) (registries : List PromotionRegistry) :
    (readerOf (states :: registries)).load (some states.text) = some states := by
  simp [readerOf, RegistryReader.load]

/-- **Atomic under crashes** is exactly a call that is refused: any other is stopped where its
first save has truncated the file, and an empty file is not read. -/
theorem crash_atomic_iff {reader : RegistryReader} {file : Option (List Char)}
    {states : PromotionRegistry} (hload : reader.load file = some states) (op : RegistryOp) :
    CrashAtomic reader file states op ↔ op.Refused states := by
  have hspec := op.saves_spec states
  constructor
  · intro hatomic
    by_contra hnot
    have hlast := hspec.saved hnot
    cases hsaves : op.saves states with
    | nil =>
      rw [hsaves] at hlast
      cases hlast
    | cons first saves =>
      have hempty : Leaves file (op.saves states) (some []) := by
        rw [hsaves]
        exact .during file first saves List.nil_prefix
      have hnone : reader.load (some []) = none := reader.loads_nil
      rcases hatomic _ hempty with h | h
      · rw [hnone] at h
        cases h
      · rw [hnone] at h
        cases h
  · intro href left hleft
    obtain ⟨hsaves, -⟩ := hspec.refused href
    rw [hsaves] at hleft
    cases hleft with
    | between => exact .inl hload

theorem crash_atomic_iff_unregistered :
    CrashAtomic (readerOf []) none .empty (.retire "c" "done" 0) ∧
      ¬ CrashAtomic (readerOf []) none .empty (.registerResearchCandidate "c" "new" [.orderFlow] 0) := by
  have hload : (readerOf []).load none = some .empty := rfl
  refine ⟨(crash_atomic_iff hload _).mpr (.inl ⟨_, rfl, fun status _ h => ?_⟩), fun h => ?_⟩
  · cases h
  · rcases (crash_atomic_iff hload _).mp h with ⟨allowed, hnone, -⟩ | hnil
    · cases hnone
    · exact List.cons_ne_nil _ _ hnil

/-- A challenger that was not degraded yet. -/
def challengerRegistry : PromotionRegistry :=
  Runs.run RegistryOp.step Table.empty
    [.registerResearchCandidate "c" "cleared" [.orderFlow] 0, .promoteToChallenger "c" "fit" none 0 0]

/-- A review that degrades it for the first time. -/
def firstReview : RegistryOp := .markDegraded "c" "drift" ⟨2⟩ 0 0

def reviewReader : RegistryReader :=
  readerOf (challengerRegistry :: firstReview.saves challengerRegistry)

/-- The status of the candidate, and its degraded reviews. -/
def reviewed (states : Option PromotionRegistry) : Option (PromotionStatus × ℤ) :=
  (states.bind fun states => states.find "c").map fun state =>
    (state.status, state.consecutiveDegradedReviews)

/-- The review is read as neither the challenger nor the degraded candidate: not at all after the
file was truncated, and with its status but the old count after the first save. -/
theorem review_torn :
    reviewReader.load (some challengerRegistry.text) = some challengerRegistry ∧
    (∃ left, Leaves (some challengerRegistry.text) (firstReview.saves challengerRegistry) left ∧
      reviewReader.load left = none) ∧
    (∃ left, Leaves (some challengerRegistry.text) (firstReview.saves challengerRegistry) left ∧
      reviewed (reviewReader.load left) = some (.degraded, 0)) ∧
    reviewed (some challengerRegistry) = some (.paperChallenger, 0) ∧
    reviewed (some (firstReview.step challengerRegistry)) = some (.degraded, 1) := by
  have hhead : reviewReader.load (some challengerRegistry.text) = some challengerRegistry :=
    readerOf_head challengerRegistry (firstReview.saves challengerRegistry)
  have hread : ((firstReview.saves challengerRegistry)[0]?.bind fun first =>
      reviewed (reviewReader.load (some first.text))) = some (.degraded, 0) := by decide +kernel
  have hends : reviewed (some challengerRegistry) = some (.paperChallenger, 0) ∧
      reviewed (some (firstReview.step challengerRegistry)) = some (.degraded, 1) := by
    decide +kernel
  cases hsaves : firstReview.saves challengerRegistry with
  | nil =>
    rw [hsaves] at hread
    cases hread
  | cons first saves =>
    rw [hsaves, List.getElem?_cons_zero, Option.bind_some] at hread
    exact ⟨hhead, ⟨some [], .during _ first saves List.nil_prefix, reviewReader.loads_nil⟩,
      ⟨some first.text, .later _ (.between _ saves), hread⟩, hends⟩

end Greenfield.Research
