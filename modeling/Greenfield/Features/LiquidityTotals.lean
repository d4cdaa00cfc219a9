import Greenfield.Features.SnapshotReset
import Mathlib.Tactic.Linarith
import Mathlib.Tactic.Ring

/-!
# What the liquidity metrics add up to

A row of a delta adds or cancels what it changes at its price, so the total of a side changes by
what the update added less what it cancelled (`deltaRow_net`). Between two snapshots the updates
telescope (`liquidity_conserved`).
-/

namespace Greenfield.Features

open Py Data Depth Keyed Batches BookLiquidityAccumulator

def SideMetrics.net (m : SideMetrics) : ℚ := m.added - m.cancelled

/-- What is replenished is added, and nothing is negative. -/
structure SideMetrics.Sound (m : SideMetrics) : Prop where
  replenished : 0 ≤ m.replenished
  added : m.replenished ≤ m.added
  cancelled : 0 ≤ m.cancelled

theorem SideMetrics.sound_zero : ({} : SideMetrics).Sound :=
  ⟨le_refl 0, le_refl 0, le_refl 0⟩

def LiquidityRow.metrics (r : LiquidityRow) (bid : Bool) : SideMetrics := if bid then r.bid else r.ask

namespace BookLiquidityAccumulator

def DeltaState.metrics (s : DeltaState) (bid : Bool) : SideMetrics := if bid then s.bid else s.ask

/-- The bids or the asks. -/
def sideOf (s : Sides) (bid : Bool) : PriceSide := if bid then s.bids else s.asks

/-- The resting size of a side. -/
def resting (s : Sides) (bid : Bool) : ℚ := total (sideOf s bid)

theorem sideOf_onSide (s : Sides) (bid side : Bool) (f : PriceSide → PriceSide) :
    sideOf (onSide s bid f) side = if side = bid then f (sideOf s side) else sideOf s side := by
  cases bid with
  | false =>
    cases side with
    | false => rfl
    | true => rfl
  | true =>
    cases side with
    | false => rfl
    | true => rfl

@[simp] theorem DeltaState.metrics_onMetrics (s : DeltaState) (bid side : Bool)
    (f : SideMetrics → SideMetrics) : (s.onMetrics bid f).metrics side =
      if side = bid then f (s.metrics side) else s.metrics side := by
  cases bid with
  | false =>
    cases side with
    | false => rfl
    | true => rfl
  | true =>
    cases side with
    | false => rfl
    | true => rfl

section Row

variable {window counter : ℕ} {s next : DeltaState} {row : NormalizedMarketEvent}

/-- What is recorded of a change: it is added on the side of the row, or cancelled there, or it is
none. -/
theorem record_cases (window counter : ℕ) (row : NormalizedMarketEvent) (s : DeltaState)
    (price change : ℚ) :
    (0 < change ∧ ∃ refilled : Bool, s.record window counter row price change =
      s.onMetrics (isBid row) fun m => { m with
        added := m.added + change
        replenished := if refilled then m.replenished + change else m.replenished }) ∨
    (change < 0 ∧ ∃ reductions, s.record window counter row price change =
      { s.onMetrics (isBid row) fun m => { m with cancelled := m.cancelled + -change } with
        lastReduction := reductions }) ∨
    (change = 0 ∧ s.record window counter row price change = s) := by
  unfold DeltaState.record
  split
  · next hpos => exact .inl ⟨hpos, _, rfl⟩
  · next hpos =>
    split
    · next hneg => exact .inr (.inl ⟨hneg, _, rfl⟩)
    · next hneg => exact .inr (.inr ⟨le_antisymm (not_lt.mp hpos) (not_lt.mp hneg), rfl⟩)

theorem DeltaState.metrics_reductions (s : DeltaState)
    (reductions : Option String × ℚ → Option ℕ) (side : Bool) :
    ({ s with lastReduction := reductions } : DeltaState).metrics side = s.metrics side := rfl

theorem record_net (s : DeltaState) (price change : ℚ) (side : Bool) :
    ((s.record window counter row price change).metrics side).net =
      (s.metrics side).net + if side = isBid row then change else 0 := by
  rcases record_cases window counter row s price change with
    ⟨-, refilled, heq⟩ | ⟨-, reductions, heq⟩ | ⟨rfl, heq⟩
  · rw [heq, DeltaState.metrics_onMetrics]
    split
    · simp only [SideMetrics.net]
      ring
    · rw [add_zero]
  · rw [heq, DeltaState.metrics_reductions, DeltaState.metrics_onMetrics]
    split
    · simp only [SideMetrics.net]
      ring
    · rw [add_zero]
  · rw [heq, ite_self, add_zero]

theorem record_sound {side : Bool} (h : (s.metrics side).Sound) (price change : ℚ) :
    ((s.record window counter row price change).metrics side).Sound := by
  obtain ⟨hreplenished, hadded, hcancelled⟩ := h
  rcases record_cases window counter row s price change with
    ⟨hpos, refilled, heq⟩ | ⟨hneg, reductions, heq⟩ | ⟨-, heq⟩
  · rw [heq, DeltaState.metrics_onMetrics]
    split
    · cases refilled with
      | false => exact ⟨hreplenished, hadded.trans (le_add_of_nonneg_right hpos.le), hcancelled⟩
      | true => exact ⟨add_nonneg hreplenished hpos.le, add_le_add_left hadded change, hcancelled⟩
    · exact ⟨hreplenished, hadded, hcancelled⟩
  · rw [heq, DeltaState.metrics_reductions, DeltaState.metrics_onMetrics]
    split
    · exact ⟨hreplenished, hadded, show 0 ≤ _ + -change by linarith⟩
    · exact ⟨hreplenished, hadded, hcancelled⟩
  · rw [heq]
    exact ⟨hreplenished, hadded, hcancelled⟩

/-- **A row** changes the total of its side by what it adds less what it cancels. -/
theorem deltaRow_net (h : deltaRow window counter s row = .ok next) (side : Bool) :
    (next.metrics side).net - (s.metrics side).net =
      resting next.sides side - resting s.sides side := by
  unfold deltaRow at h
  split at h
  · cases h
  · next price new _ =>
    cases h
    have hsides : (sideOf (onSide s.sides (isBid row) fun side =>
        if new = 0 then side.erase price else side.upsert (price, new)) side) =
          if side = isBid row then write (sideOf s.sides side) (price, new)
          else sideOf s.sides side := sideOf_onSide ..
    show ((s.record ..).metrics side).net - _ = total (sideOf (onSide ..) side) - _
    rw [record_net, hsides]
    unfold resting
    by_cases hside : side = isBid row
    · rw [if_pos hside, if_pos hside, total_write, hside]
      show _ + (new - quantityAt (sideOf s.sides (isBid row)) price) - _ = _
      ring
    · rw [if_neg hside, if_neg hside]
      ring

theorem deltaRow_sound (h : deltaRow window counter s row = .ok next) {side : Bool}
    (hs : (s.metrics side).Sound) : (next.metrics side).Sound := by
  unfold deltaRow at h
  split at h
  · cases h
  · cases h
    exact record_sound hs ..

end Row

/-- The rows of a delta, one after the other. -/
theorem deltaRows_net {window counter : ℕ} {rows : List NormalizedMarketEvent} (side : Bool) :
    ∀ {s next : DeltaState}, applyEach (deltaRow window counter) s rows = (.ok (), next) →
      (s.metrics side).Sound → (next.metrics side).Sound ∧
        (next.metrics side).net - (s.metrics side).net =
          resting next.sides side - resting s.sides side := by
  induction rows with
  | nil =>
    intro s next h hs
    cases h
    exact ⟨hs, by ring⟩
  | cons row rows ih =>
    intro s next h hs
    unfold applyEach at h
    split at h
    · cases h
    · next middle hrow =>
      obtain ⟨hsound, hnet⟩ := ih h (deltaRow_sound hrow hs)
      refine ⟨hsound, ?_⟩
      have := deltaRow_net hrow side
      linarith

/-! ## Updates -/

/-- Is the message a snapshot? -/
def isSnapshot (rows : List NormalizedMarketEvent) : Bool :=
  theOne (rows.map (·.messageType)) = some "snapshot"

theorem finish_ok {a next : BookLiquidityAccumulator} {bid ask : SideMetrics} {updateId : ℤ}
    {r : LiquidityRow} (h : finish a bid ask updateId = (.ok r, next)) :
    r.bid = bid ∧ r.ask = ask ∧ next.state = a.state := by
  unfold finish at h
  split at h
  · cases h
  · cases h
    exact ⟨rfl, rfl, rfl⟩

variable {T : Texts} {window : ℕ} {a next : BookLiquidityAccumulator} {r : LiquidityRow}

/-- What an accepted message does: a snapshot reports nothing, and a delta what its rows do. -/
theorem applyPending_cases (h : applyPending T window a = (.ok r, next)) :
    (isSnapshot a.pending = true ∧ ∀ side, r.metrics side = {}) ∨
    (isSnapshot a.pending = false ∧ ∃ s,
      applyEach (deltaRow window (a.state.updateCounter + 1))
        { sides := a.state.sides, lastReduction := a.state.lastReduction } a.pending = (.ok (), s) ∧
      (∀ side, r.metrics side = s.metrics side) ∧ next.state.sides = s.sides) := by
  unfold applyPending at h
  split at h
  · cases h
  · next messageType updateId connectionId hheader =>
    have htype := (header_eq_ok.mp hheader).1
    dsimp only at h
    split at h
    · next hsnapshot =>
      left
      refine ⟨by simp [isSnapshot, htype, hsnapshot], ?_⟩
      unfold applySnapshot at h
      dsimp only at h
      split at h
      · cases h
      · obtain ⟨hbid, hask, -⟩ := finish_ok h
        intro side
        unfold LiquidityRow.metrics
        rw [hbid, hask, ite_self]
    · next hsnapshot =>
      right
      refine ⟨by simp [isSnapshot, htype, hsnapshot], ?_⟩
      split at h
      · unfold applyDelta at h
        split at h
        · cases h
        · split at h
          · cases h
          · cases hrows : applyEach (deltaRow window (a.state.updateCounter + 1))
              { sides := a.state.sides, lastReduction := a.state.lastReduction } a.pending with
            | mk answer s =>
              simp only [count, hrows] at h
              cases answer with
              | error e => cases h
              | ok _ =>
                obtain ⟨hbid, hask, hstate⟩ := finish_ok h
                refine ⟨s, rfl, fun side => ?_, by rw [hstate]⟩
                unfold LiquidityRow.metrics DeltaState.metrics
                rw [hbid, hask]
      · cases h

theorem metrics_start (sides : Sides) (reductions : Option String × ℚ → Option ℕ) (side : Bool) :
    ({ sides, lastReduction := reductions } : DeltaState).metrics side = {} := ite_self _

theorem sound_start (sides : Sides) (reductions : Option String × ℚ → Option ℕ) (side : Bool) :
    (({ sides, lastReduction := reductions } : DeltaState).metrics side).Sound := by
  rw [metrics_start]
  exact SideMetrics.sound_zero

/-- Every update reports sound metrics. -/
theorem applyPending_sound (h : applyPending T window a = (.ok r, next)) (side : Bool) :
    (r.metrics side).Sound := by
  rcases applyPending_cases h with ⟨-, hmetrics⟩ | ⟨-, s, hrows, hmetrics, -⟩
  · rw [hmetrics]
    exact SideMetrics.sound_zero
  · rw [hmetrics]
    exact (deltaRows_net side hrows (sound_start ..)).1

/-- **A delta** reports what the total of a side changes by. -/
theorem applyPending_net (h : applyPending T window a = (.ok r, next))
    (hdelta : isSnapshot a.pending = false) (side : Bool) :
    (r.metrics side).net = resting next.state.sides side - resting a.state.sides side := by
  rcases applyPending_cases h with ⟨hsnapshot, -⟩ | ⟨-, s, hrows, hmetrics, hsides⟩
  · rw [hdelta] at hsnapshot
    cases hsnapshot
  · have hnet := (deltaRows_net side hrows (sound_start ..)).2
    have hzero : ({} : SideMetrics).net = 0 := sub_self 0
    rw [metrics_start, hzero, sub_zero] at hnet
    rw [hmetrics, hsides, hnet]

end BookLiquidityAccumulator

/-! ## Between two snapshots -/

abbrev AppliedMessage := Feeder.Closed NormalizedMarketEvent String BookKey LiquidityBook LiquidityRow

def AppliedMessage.isSnapshot (m : AppliedMessage) : Bool :=
  BookLiquidityAccumulator.isSnapshot m.held.pending

/-- **Conservation.** The rows that are answered are those of the messages applied, one each; every
one is sound and a snapshot's are zero. Of the messages after a snapshot, up to the next snapshot
and up to the end, what was added to a side less what was cancelled is the change of its size. -/
theorem liquidity_conserved (T : Texts) (symbol : String) (window : ℕ)
    {a last : BookLiquidityAccumulator} {inputs : List (Option NormalizedMarketEvent)}
    {outs : List LiquidityRow} (h : (feeder T symbol window).inputAll a inputs = (.ok outs, last)) :
    ((feeder T symbol window).closed a inputs).map Feeder.Closed.out = outs ∧
    (∀ m : AppliedMessage, m ∈ (feeder T symbol window).closed a inputs → ∀ side,
      (m.out.metrics side).Sound ∧ (m.isSnapshot = true → m.out.metrics side = {})) ∧
    ∀ (earlier updates later : List AppliedMessage) (snapshot : AppliedMessage),
      (feeder T symbol window).closed a inputs = earlier ++ snapshot :: (updates ++ later) →
      (∀ m ∈ updates, m.isSnapshot = false) → ∀ side,
        (∀ next rest, later = next :: rest →
          (updates.map fun m => (m.out.metrics side).net).sum =
            resting next.held.state.sides side - resting snapshot.next.state.sides side) ∧
        (later = [] → (updates.map fun m => (m.out.metrics side).net).sum =
          resting last.state.sides side - resting snapshot.next.state.sides side) := by
  obtain ⟨houts, hchain, hclose⟩ := Feeder.closed_spec h
  refine ⟨houts, ?_, ?_⟩
  · intro m hm side
    have happlied : applyPending T window m.held = (.ok m.out, m.next) := hclose m hm
    refine ⟨applyPending_sound happlied side, fun hsnapshot => ?_⟩
    rcases applyPending_cases happlied with ⟨-, hmetrics⟩ | ⟨hdelta, -⟩
    · exact hmetrics side
    · rw [AppliedMessage.isSnapshot, hdelta] at hsnapshot
      cases hsnapshot
  · intro earlier updates later snapshot heq hupdates side
    rw [heq] at hchain hclose
    obtain ⟨_, -, -, hafter⟩ := Feeder.chained_append hchain
    obtain ⟨middle, hmiddle, hlater⟩ := Feeder.chained_append hafter
    have hsum : (updates.map fun m => (m.out.metrics side).net).sum =
        resting middle.sides side - resting snapshot.next.state.sides side :=
      hmiddle.sum_eq (v := fun book => resting book.sides side) (fun r => (r.metrics side).net)
        fun m hm => by
        have hmem : m ∈ earlier ++ snapshot :: (updates ++ later) := by simp [hm]
        exact applyPending_net (hclose m hmem) (hupdates m hm) side
    constructor
    · rintro next rest rfl
      rw [hsum, hlater.1]
    · rintro rfl
      rw [hsum, show middle = last.state from hlater]

/-- The rows of the sample with a refill, and the end. -/
def refillInputs : List (Option NormalizedMarketEvent) :=
  (earlierRows ++ laterRows).map some ++ [none]

theorem liquidity_conserved_refill : ∃ outs last,
    (feeder sampleTexts "BTC" 5).inputAll { state := {} } refillInputs = (.ok outs, last) ∧
    outs.length = 4 ∧ ∀ earlier updates later snapshot,
      (feeder sampleTexts "BTC" 5).closed { state := {} } refillInputs =
        earlier ++ snapshot :: (updates ++ later) →
      (∀ m ∈ updates, AppliedMessage.isSnapshot m = false) → later = [] →
        (updates.map fun m => (m.out.metrics true).net).sum =
          resting last.state.sides true - resting snapshot.next.state.sides true := by
  have hlength : ((feeder sampleTexts "BTC" 5).inputAll { state := {} } refillInputs).1.toOption.map
      List.length = some 4 := by decide +kernel
  cases hrun : (feeder sampleTexts "BTC" 5).inputAll { state := {} } refillInputs with
  | mk answer last =>
    rw [hrun] at hlength
    cases answer with
    | error e => cases hlength
    | ok outs =>
      refine ⟨outs, last, rfl, Option.some.inj hlength, ?_⟩
      intro earlier updates later snapshot heq hupdates hlater
      exact ((liquidity_conserved sampleTexts "BTC" 5 hrun).2.2 earlier updates later snapshot heq
        hupdates true).2 hlater

end Greenfield.Features
