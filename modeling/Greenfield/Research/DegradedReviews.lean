import Greenfield.Research.Promotion
import Mathlib.Data.List.DropRight

/-!
# Degraded reviews

`consecutive_degraded_reviews` of `src/research/promotion.py`. `mark_degraded` counts it up and
nothing sets it back. It is the run of degraded events at the end of the history as long as no
candidate is degraded a second time after it was promoted again (`booksRuns_iff`).
-/

namespace Greenfield.Research

open Keyed Py

/-! ## The counter -/

/-- `consecutive_degraded_reviews`. -/
def PromotionRegistry.reviews (states : PromotionRegistry) (candidateId : String) : ℤ :=
  ((states.find candidateId).map (·.consecutiveDegradedReviews)).getD 0

namespace PromotionRegistry

variable {s : PromotionRegistry} {id reason : String} {newStatus : PromotionStatus}
  {allowedFrom : Option (List PromotionStatus)} {human : Option String} {now : Instant}

theorem reviews_upsert (state : CandidateState) (j : String) : reviews (s.upsert state) j =
    if j = state.candidateId then state.consecutiveDegradedReviews else s.reviews j := by
  unfold reviews
  rw [Table.find_upsert]
  split <;> rfl

variable {s' : PromotionRegistry}

theorem reviews_of_find {j : String} (h : s'.find j = s.find j) :
    s'.reviews j = s.reviews j := by
  unfold reviews
  rw [h]

/-- A transition leaves the counter. -/
theorem transition_reviews {state : CandidateState}
    (h : s.transition id newStatus allowedFrom reason human now = (.ok state, s')) :
    state.candidateId = id ∧ state.consecutiveDegradedReviews = s.reviews id := by
  unfold transition at h
  dsimp only at h
  split at h
  · cases h
  · cases h
    unfold reviews
    cases hfind : s.find id with
    | none => exact ⟨rfl, rfl⟩
    | some current =>
      have hkey : current.candidateId = id := Table.find_key hfind
      exact ⟨hkey, rfl⟩

/-- From an allowed status a transition does not raise. -/
theorem transition_allowed {allowed : List PromotionStatus} {status : PromotionStatus}
    (hmem : status ∈ allowed) (hstatus : s.status id = some status) (err : PromotionError)
    (s' : PromotionRegistry) :
    s.transition id newStatus (some allowed) reason human now ≠ (.error err, s') := by
  have hany : allowed.any (fun status => some status = s.status id) = true :=
    List.any_eq_true.mpr ⟨status, hmem, decide_eq_true hstatus.symm⟩
  unfold transition
  simp [hany]

theorem transition_keeps (j : String) :
    (s.transition id newStatus allowedFrom reason human now).2.reviews j = s.reviews j := by
  rcases transition_cases s id newStatus allowedFrom reason human now with ⟨-, err, heq⟩ |
    ⟨-, state, event, heq, hid, -⟩
  · rw [heq]
  · have hcounter := (transition_reviews heq).2
    rw [heq, reviews_upsert, hid]
    split
    · next hj => rw [hj, hcounter]
    · rfl

theorem andSave_keeps {f : CandidateState → CandidateState}
    (hid : ∀ state, (f state).candidateId = state.candidateId)
    (hcounter : ∀ state, (f state).consecutiveDegradedReviews = state.consecutiveDegradedReviews)
    (j : String) :
    (andSave (s.transition id newStatus allowedFrom reason human now) f).2.reviews j =
      s.reviews j := by
  have hkeeps : (s.transition id newStatus allowedFrom reason human now).2.reviews j =
      s.reviews j := transition_keeps j
  rcases hresult : s.transition id newStatus allowedFrom reason human now with ⟨err | state, s'⟩
  · rw [hresult] at hkeeps
    exact hkeeps
  · rw [hresult] at hkeeps
    obtain ⟨hstate, hreviews⟩ := transition_reviews hresult
    show reviews (s'.upsert (f state)) j = s.reviews j
    rw [reviews_upsert, hid, hcounter, hstate, hreviews]
    split
    · next hj => rw [hj]
    · exact hkeeps

end PromotionRegistry

variable {s : PromotionRegistry}

variable {op : RegistryOp}

/-- `mark_degraded` is the one operation that changes the counter. -/
theorem reviews_step (hop : op.edge.2 ≠ .degraded)
    (j : String) : (op.step s).reviews j = s.reviews j := by
  have hpromote : ∀ {id reason : String} {report : Option ConfirmationIndependenceReport}
      {now later : Instant},
      (s.promoteToChallenger id reason report now later).2.reviews j = s.reviews j := by
    intro id reason report now later
    unfold PromotionRegistry.promoteToChallenger
    dsimp only
    split
    · rfl
    · split
      · rfl
      · refine PromotionRegistry.andSave_keeps ?_ ?_ j
        · exact fun _ => rfl
        · exact fun _ => rfl
  unfold RegistryOp.step
  cases op with
  | registerResearchCandidate id reason families now =>
    show (s.registerResearchCandidate id reason families now).2.reviews j = s.reviews j
    unfold PromotionRegistry.registerResearchCandidate
    dsimp only
    split
    · rfl
    · refine PromotionRegistry.andSave_keeps ?_ ?_ j
      · exact fun _ => rfl
      · exact fun _ => rfl
  | reject id reason now => exact PromotionRegistry.transition_keeps j
  | promoteToChallenger id reason report now later => exact hpromote
  | promoteMultiFamilyToChallenger id reason report required now later =>
    show (s.promoteMultiFamilyToChallenger id reason report required now later).2.reviews j = _
    rcases PromotionRegistry.promoteMultiFamilyToChallenger_cases s id reason now later report
      required with ⟨err, heq⟩ | hsame
    · rw [heq]
    · rw [hsame]
      exact hpromote
  | promoteToChampion id weeks trades violations who config reason now =>
    show (s.promoteToChampion id weeks trades violations who config reason now).2.reviews j = _
    rcases PromotionRegistry.promoteToChampion_cases s id reason now weeks trades violations who
      config with ⟨err, heq⟩ | ⟨-, hsame⟩
    · rw [heq]
    · rw [hsame]
      exact PromotionRegistry.transition_keeps j
  | markDegraded id reason config now later => exact absurd rfl hop
  | retire id reason now => exact PromotionRegistry.transition_keeps j
  | killPaper id reason now => exact PromotionRegistry.transition_keeps j

/-- The statuses of which a candidate can be marked as degraded. -/
def markable : List PromotionStatus := [.paperChallenger, .paperChampion, .degraded]

/-- The candidate is degraded once more, and retired after that if this was once too often. -/
structure Marked (s s' : PromotionRegistry) (id : String) (threshold : ℤ) : Prop where
  from_status : ∃ status ∈ markable, s.status id = some status
  moves : ∃ event mid, event.toStatus = .degraded ∧ Move s id event mid ∧
    (∀ j, s'.reviews j = if j = id then s.reviews id + 1 else s.reviews j) ∧
      ((¬ threshold ≤ s.reviews id + 1 ∧ s' = mid) ∨
        threshold ≤ s.reviews id + 1 ∧ ∃ last, last.toStatus = .retired ∧ Move mid id last s')

/-- A candidate is marked, or an exception is raised. -/
theorem markDegraded_cases (s : PromotionRegistry) (id reason : String) (config : RetirementConfig)
    (now later : Instant) :
    ((∀ status ∈ markable, s.status id ≠ some status) ∧
      (s.markDegraded id reason config now later).2 = s) ∨
      Marked s (s.markDegraded id reason config now later).2 id
        config.consecutiveDegradedReviewsBeforeRetirement := by
  unfold PromotionRegistry.markDegraded
  dsimp only
  rcases PromotionRegistry.transition_cases s id .degraded (some markable) reason none now with
    ⟨-, err, heq⟩ | ⟨hallowed, state, event, heq, hid, hnew, happends, -, hfrom, hto, -⟩
  · refine .inl ⟨fun status hmem hstatus => ?_, by rw [show ([.paperChallenger, .paperChampion,
      .degraded] : List PromotionStatus) = markable from rfl, heq]; rfl⟩
    exact PromotionRegistry.transition_allowed hmem hstatus err s heq
  · have hcounter := (PromotionRegistry.transition_reviews heq).2
    rw [show ([.paperChallenger, .paperChampion, .degraded] : List PromotionStatus) = markable
      from rfl, heq]
    refine .inr ⟨hallowed _ rfl, event, ?_⟩
    dsimp only [PromotionRegistry.andSave]
    set counted : CandidateState :=
      { state with consecutiveDegradedReviews := state.consecutiveDegradedReviews + 1 } with hcounted
    set mid : PromotionRegistry := (s.upsert state).upsert counted with hmid
    have hfind : ∀ j, mid.find j = (s.upsert counted).find j := by
      intro j
      rw [hmid, Table.find_upsert, Table.find_upsert, Table.find_upsert]
      split <;> rfl
    have hupsert : Move s id event (s.upsert counted) :=
      PromotionRegistry.move_upsert hid (hnew.trans hto.symm) happends hfrom
    have hmove : Move s id event mid := hupsert.of_find hfind
    have hreviews : ∀ j, mid.reviews j = if j = id then s.reviews id + 1 else s.reviews j := by
      intro j
      rw [PromotionRegistry.reviews_of_find (hfind j), PromotionRegistry.reviews_upsert,
        show counted.candidateId = id from hid,
        show counted.consecutiveDegradedReviews = s.reviews id + 1 from
          congrArg (· + 1) hcounter]
    refine ⟨mid, hto, hmove, ?_⟩
    rw [hcounter]
    split
    · next hoften =>
      refine ⟨fun j => (PromotionRegistry.transition_keeps j).trans (hreviews j),
        .inr ⟨hoften, ?_⟩⟩
      unfold PromotionRegistry.retire
      rcases PromotionRegistry.transition_transits mid id .retired (some markable)
          ("auto-retired after " ++ toString (s.reviews id + 1) ++ " consecutive degraded reviews")
          none later with
        ⟨-, err, hretire⟩ | ⟨-, state', last, s', hretire, -, -, hmove', hto', -⟩
      · have hstatus : mid.status id = some .degraded := hmove.ends.trans (congrArg some hto)
        exact absurd hretire
          (PromotionRegistry.transition_allowed (by decide) hstatus err mid)
      · exact ⟨last, hto', by rw [show (some [.paperChallenger, .paperChampion, .degraded] :
          Option (List PromotionStatus)) = some markable from rfl, hretire]; exact hmove'⟩
    · next hoften => exact ⟨hreviews, .inl ⟨hoften, rfl⟩⟩

/-! ## The run of degraded events -/

/-- The length of the run of degraded events at the end. -/
def degradedRun (events : List TransitionEvent) : ℕ :=
  (events.rtakeWhile fun event => decide (event.toStatus = .degraded)).length

theorem degradedRun_concat (events : List TransitionEvent) (event : TransitionEvent) :
    degradedRun (events ++ [event]) =
      if event.toStatus = .degraded then degradedRun events + 1 else 0 := by
  unfold degradedRun
  rw [List.rtakeWhile_concat]
  by_cases hto : event.toStatus = .degraded
  · simp [hto]
  · simp [hto]

variable {event : TransitionEvent}

theorem Chained.last {start stop : Option PromotionStatus} {events : List TransitionEvent}
    (h : Chained start (events ++ [event]) stop) :
    some event.toStatus = stop := by
  induction events generalizing start with
  | nil => exact h.2
  | cons first events ih => exact ih h.2

variable {id : String}

/-- There is no such run at the end of the history of a candidate that is not degraded. -/
theorem Orderly.degradedRun_eq_zero (h : Orderly s id)
    (hstatus : s.status id ≠ some .degraded) : degradedRun (s.history id) = 0 := by
  have hchained := h.chained
  rcases List.eq_nil_or_concat' (s.history id) with hnil | ⟨events, event, hconcat⟩
  · rw [hnil]
    rfl
  · rw [hconcat] at hchained ⊢
    rw [degradedRun_concat, if_neg]
    intro hto
    exact hstatus (hchained.last.symm.trans (congrArg some hto))

/-! ## The bookkeeping -/

/-- A degraded candidate's counter is the run of degraded events. -/
def Counted (s : PromotionRegistry) (id : String) : Prop :=
  s.status id = some .degraded → s.reviews id = degradedRun (s.history id)

/-- A candidate that is marked is retired exactly when the run reaches the threshold. -/
def RetiresAt (s : PromotionRegistry) (op : RegistryOp) : Prop :=
  match op with
  | .markDegraded id _ config _ _ => ∀ event, event.toStatus = .degraded →
      s.history id ++ [event] <+: (op.step s).history id →
      ((op.step s).status id = some .retired ↔
        config.consecutiveDegradedReviewsBeforeRetirement ≤ degradedRun (s.history id ++ [event]))
  | _ => True

/-- The counter counts a run, and the run decides. -/
structure BooksRun (s : PromotionRegistry) (op : RegistryOp) : Prop where
  counted : ∀ id, Counted (op.step s) id
  retires : RetiresAt s op

/-- A candidate that is degraded from paper was not degraded before, or once is too often. -/
def MarksFresh (s : PromotionRegistry) (op : RegistryOp) : Prop :=
  match op with
  | .markDegraded id _ config _ _ =>
    s.status id = some .paperChallenger ∨ s.status id = some .paperChampion →
      s.reviews id = 0 ∨ config.consecutiveDegradedReviewsBeforeRetirement ≤ 1
  | _ => True

/-- What the bookkeeping keeps. -/
structure Booked (s : PromotionRegistry) : Prop where
  orderly : ∀ id, Orderly s id
  nonneg : ∀ id, 0 ≤ s.reviews id
  counted : ∀ id, Counted s id

variable {s s' : PromotionRegistry}

theorem Move.counted_other {id j : String}
    (h : Move s id event s') (hj : j ≠ id) (hreviews : s'.reviews j = s.reviews j)
    (hs : Counted s j) : Counted s' j := by
  obtain ⟨hstatus, hhistory, -⟩ := h.other_status hj
  unfold Counted
  rw [hstatus, hhistory, hreviews]
  exact hs

theorem Booked.counted_step (hs : Booked s)
    (hop : op.edge.2 ≠ .degraded) (id : String) : Counted (op.step s) id := by
  have hreviews := reviews_step (s := s) hop id
  cases (apply_moves s op).1 with
  | same h =>
    rw [h]
    exact hs.counted id
  | moved hmakes hmove =>
    by_cases hid : id = op.candidateId
    · intro hstatus
      rw [hid, hmove.ends, hmakes.ends] at hstatus
      exact absurd (Option.some.inj hstatus) hop
    · exact hmove.counted_other hid hreviews (hs.counted id)
  | retired hmakes hevent _ _ _ => exact absurd (hmakes.ends.symm.trans hevent) hop

/-- **A marked candidate.** -/
theorem Marked.books_iff {threshold : ℤ} (hs : Booked s)
    (h : Marked s s' id threshold) :
    ((∀ j, Counted s' j) ∧ ∀ event, event.toStatus = .degraded →
        s.history id ++ [event] <+: s'.history id →
        (s'.status id = some .retired ↔ threshold ≤ degradedRun (s.history id ++ [event]))) ↔
      (s.status id = some .paperChallenger ∨ s.status id = some .paperChampion →
        s.reviews id = 0 ∨ threshold ≤ 1) := by
  obtain ⟨⟨status, hmem, hstatus⟩, event, mid, hto, hmove, hreviews, hafter⟩ := h
  have hnonneg := hs.nonneg id
  have hrun : ∀ event, event.toStatus = .degraded →
      degradedRun (s.history id ++ [event]) = degradedRun (s.history id) + 1 := by
    intro event hto
    rw [degradedRun_concat, if_pos hto]
  -- from paper the run is empty, and of a degraded candidate it is the counter
  have hbefore : (s.status id = some .paperChallenger ∨ s.status id = some .paperChampion) ∧
      degradedRun (s.history id) = 0 ∨
      ¬ (s.status id = some .paperChallenger ∨ s.status id = some .paperChampion) ∧
        s.reviews id = degradedRun (s.history id) := by
    simp only [markable, List.mem_cons, List.not_mem_nil, or_false] at hmem
    rcases hmem with rfl | rfl | rfl
    · exact .inl ⟨.inl hstatus, (hs.orderly id).degradedRun_eq_zero (by simp [hstatus])⟩
    · exact .inl ⟨.inr hstatus, (hs.orderly id).degradedRun_eq_zero (by simp [hstatus])⟩
    · exact .inr ⟨by simp [hstatus], hs.counted id hstatus⟩
  rcases hafter with ⟨hnot, rfl⟩ | ⟨hoften, last, hlast, hmove'⟩
  · have hend : s'.status id = some .degraded := hmove.ends.trans (congrArg some hto)
    have hcounted : (∀ j, Counted s' j) ↔ s.reviews id = degradedRun (s.history id) := by
      constructor
      · intro hall
        have hcounted := hall id hend
        rw [hreviews, if_pos rfl, hmove.appends, hrun event hto] at hcounted
        omega
      · intro heq j
        by_cases hj : j = id
        · subst hj
          intro _
          rw [hreviews, if_pos rfl, hmove.appends, hrun event hto]
          omega
        · exact hmove.counted_other hj ((hreviews j).trans (if_neg hj)) (hs.counted j)
    rw [hcounted]
    constructor
    · rintro ⟨heq, -⟩ hpaper
      rcases hbefore with ⟨-, hzero⟩ | ⟨hother, -⟩
      · exact .inl (by omega)
      · exact absurd hpaper hother
    · intro hfresh
      have heq : s.reviews id = degradedRun (s.history id) := by
        rcases hbefore with ⟨hpaper, hzero⟩ | ⟨-, heq⟩
        · rcases hfresh hpaper with h | h
          · omega
          · omega
        · exact heq
      refine ⟨heq, fun event' hto' _ => ⟨fun hretired => ?_, fun hle => ?_⟩⟩
      · rw [hend] at hretired
        cases hretired
      · rw [hrun event' hto'] at hle
        omega
  · have hend : s'.status id = some .retired := hmove'.ends.trans (congrArg some hlast)
    have hhistory : s'.history id = s.history id ++ [event] ++ [last] := by
      rw [hmove'.appends, hmove.appends]
    have hcounted : ∀ j, Counted s' j := by
      intro j
      by_cases hj : j = id
      · subst hj
        intro hdegraded
        rw [hend] at hdegraded
        cases hdegraded
      · have hreviews' := (hreviews j).trans (if_neg hj)
        obtain ⟨hstatus', hhistory', -⟩ := hmove'.other_status hj
        obtain ⟨hstatus'', hhistory'', -⟩ := hmove.other_status hj
        unfold Counted
        rw [hstatus', hstatus'', hhistory', hhistory'', hreviews']
        exact hs.counted j
    constructor
    · rintro ⟨-, hretires⟩ hpaper
      have hle := (hretires event hto ⟨[last], hhistory.symm⟩).mp hend
      rw [hrun event hto] at hle
      rcases hbefore with ⟨-, hzero⟩ | ⟨hother, -⟩
      · exact .inr (by omega)
      · exact absurd hpaper hother
    · intro hfresh
      refine ⟨hcounted, fun event' hto' _ => iff_of_true hend ?_⟩
      rw [hrun event' hto']
      rcases hbefore with ⟨hpaper, hzero⟩ | ⟨-, heq⟩
      · rcases hfresh hpaper with h | h
        · omega
        · omega
      · omega

/-- What a step has to meet. -/
theorem booksRun_step (hs : Booked s) (op : RegistryOp) :
    BooksRun s op ↔ MarksFresh s op := by
  cases op with
  | markDegraded id reason config now later =>
    rcases markDegraded_cases s id reason config now later with ⟨hnot, hsame⟩ | hmarked
    · refine iff_of_true ⟨?_, ?_⟩ ?_
      · intro j
        rw [show (RegistryOp.markDegraded id reason config now later).step s = s from hsame]
        exact hs.counted j
      · intro event hto hprefix
        have hlength := hprefix.length_le
        rw [show (RegistryOp.markDegraded id reason config now later).step s = s from hsame,
          List.length_append, List.length_singleton] at hlength
        omega
      · rintro (hstatus | hstatus)
        · exact absurd hstatus (hnot _ (by decide))
        · exact absurd hstatus (hnot _ (by decide))
    · exact (show BooksRun s (.markDegraded id reason config now later) ↔ _ from
        ⟨fun h => ⟨h.counted, h.retires⟩, fun h => ⟨h.1, h.2⟩⟩).trans (hmarked.books_iff hs)
  | _ => exact iff_of_true ⟨hs.counted_step (by simp [RegistryOp.edge]), trivial⟩ trivial

theorem Booked.step (hs : Booked s)
    (h : BooksRun s op) : Booked (op.step s) := by
  refine ⟨orderly_step s op hs.orderly, fun id => ?_, h.counted⟩
  cases op with
  | markDegraded id' reason config now later =>
    rcases markDegraded_cases s id' reason config now later with ⟨-, hsame⟩ | hmarked
    · show 0 ≤ (s.markDegraded id' reason config now later).2.reviews id
      rw [hsame]
      exact hs.nonneg id
    · obtain ⟨event, mid, -, -, hreviews, -⟩ := hmarked.moves
      have hnonneg := hs.nonneg id
      have hnonneg' := hs.nonneg id'
      have hreviews' := hreviews id
      show 0 ≤ (s.markDegraded id' reason config now later).2.reviews id
      rw [hreviews']
      split
      · omega
      · exact hnonneg
  | _ =>
    rw [reviews_step (by simp [RegistryOp.edge])]
    exact hs.nonneg id

/-- **Degraded reviews.** In a run of the registry the counter of a degraded candidate is always the
run of degraded events at the end of its history, and this run decides when it is retired, exactly if
each candidate that is degraded from paper was not degraded before, or is retired at the first time. -/
theorem booksRuns_iff (ops : List RegistryOp) :
    Runs.Meets RegistryOp.step BooksRun Table.empty ops ↔
      Runs.Meets RegistryOp.step MarksFresh Table.empty ops := by
  have hempty : Booked Table.empty := by
    refine ⟨fun id => ⟨rfl, fun h => ?_⟩, fun id => le_refl 0, fun id h => ?_⟩
    · cases h
    · cases h
  exact Runs.meets_congr (fun _ _ hs h => hs.step h) (fun _ op hs => booksRun_step hs op) ops hempty

/-- A candidate that is degraded, registered and promoted again, and degraded. -/
def degradedTwice : List RegistryOp :=
  [.registerResearchCandidate "c" "cleared" [.orderFlow] 0,
    .promoteToChallenger "c" "cleared" none 1 1,
    .markDegraded "c" "drift" ⟨3⟩ 2 2,
    .registerResearchCandidate "c" "cleared" [.orderFlow] 3,
    .promoteToChallenger "c" "cleared" none 4 4,
    .markDegraded "c" "drift" ⟨3⟩ 5 5]

/-- Its counter is 2, and the run 1. -/
theorem degradedTwice_counts :
    ¬ ∀ (ops : List RegistryOp) (id : String),
      Counted (Runs.run RegistryOp.step Table.empty ops) id := by
  intro hall
  have hdegraded : (Runs.run RegistryOp.step Table.empty degradedTwice).status "c" =
        some .degraded ∧
      (Runs.run RegistryOp.step Table.empty degradedTwice).reviews "c" ≠
        degradedRun ((Runs.run RegistryOp.step Table.empty degradedTwice).history "c") := by
    decide +kernel
  exact hdegraded.2 (hall degradedTwice "c" hdegraded.1)

end Greenfield.Research
