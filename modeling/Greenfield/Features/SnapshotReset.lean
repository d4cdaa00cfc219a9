import Greenfield.Features.BookLiquidity
import Greenfield.Features.L2Imbalance
import Greenfield.Features.Lockstep

/-!
# A snapshot forgets what came before it

Once a snapshot is opened, the two accumulators answer the same after every history
(`snapshot_resets`): `L2ImbalanceAccumulator` has no other state than the book that the snapshot
replaces, and of the update counter of `BookLiquidityAccumulator` only differences are read.
-/

namespace Greenfield.Features

open Py Data Depth Keyed Batches

local instance resetIntLinearOrder : LinearOrder ℤ := Int.instLinearOrder

/-- The rows that are held are those of a snapshot. -/
def OpensSnapshot (rows : List NormalizedMarketEvent) : Prop :=
  ∃ row, rows.head? = some row ∧ row.messageType = "snapshot"

/-- The same rows are held, and the states are related unless a snapshot replaces them. -/
structure Related {β : Type} (R : β → β → Prop) (h k : BookAccumulator β) : Prop where
  pending : h.pending = k.pending
  batch : h.batch = k.batch
  last : h.last = k.last
  state : R h.state k.state ∨ OpensSnapshot h.pending

/-- What an accumulator has to do with a batch so that a snapshot forgets the history. -/
structure Restarts {β ω : Type} (f : BookFeeder β ω) (R : β → β → Prop) : Prop where
  clears : ∀ {h out h'}, f.close h = (.ok out, h') →
    h'.pending = [] ∧ h'.batch = none ∧ h'.last = h.last
  unranked : ∀ h x, (f.close (f.ranked h x)).1 = (f.close h).1
  close : ∀ {h k out h'}, Related R h k → f.close h = (.ok out, h') →
    ∃ state, f.close k = (.ok out, { k.clear with state }) ∧ R h'.state state

section Related

variable {β ω : Type} {f : BookFeeder β ω} {R : β → β → Prop}

variable {rows : List NormalizedMarketEvent}

theorem OpensSnapshot.append (h : OpensSnapshot rows)
    (row : NormalizedMarketEvent) : OpensSnapshot (rows ++ [row]) := by
  obtain ⟨first, hfirst, htype⟩ := h
  exact ⟨first, by simp [hfirst], htype⟩

theorem Restarts.forgets (hf : Restarts f R) : f.Forgets (Related R) where
  clears := hf.clears
  unranked := hf.unranked
  pending := Related.pending
  batch := Related.batch
  last := Related.last
  push x hq :=
    { pending := by simp only [Feeder.push, hq.pending]
      batch := by simp only [Feeder.push, hq.pending, hq.batch]
      last := hq.last
      state := hq.state.imp_right (·.append x) }
  ranked x hq := ⟨hq.pending, hq.batch, rfl, hq.state⟩
  close hq hclose := by
    obtain ⟨state, hk, hR⟩ := hf.close hq hclose
    obtain ⟨hpending, hbatch, hlast⟩ := hf.clears hclose
    exact ⟨_, hk, hpending, hbatch, hlast.trans hq.last, .inl hR⟩

theorem theOne_head {α : Type} [DecidableEq α] {values : List α} {v w : α}
    (hone : theOne values = some v) (hhead : values.head? = some w) : w = v := by
  cases values with
  | nil => cases hhead
  | cons first rest =>
    have hfirst : first = w := Option.some.inj hhead
    simp only [theOne] at hone
    by_cases hall : ∀ w ∈ rest, w = first
    · rw [if_pos hall] at hone
      exact hfirst.symm.trans (Option.some.inj hone)
    · rw [if_neg hall] at hone
      cases hone

theorem OpensSnapshot.messageType (h : OpensSnapshot rows)
    {messageType : String} (hone : theOne (rows.map (·.messageType)) = some messageType) :
    messageType = "snapshot" := by
  obtain ⟨row, hrow, htype⟩ := h
  exact (theOne_head hone (by rw [List.head?_map, hrow, Option.map_some, htype])).symm

end Related

/-! ## The L2 imbalance accumulator -/

namespace L2ImbalanceAccumulator

variable {T : Texts} {depthLevels : ℕ} {a h k : L2ImbalanceAccumulator} {s : Sides} {u : ℤ}
  {connectionId : String} {r : L2Features} {h' : L2ImbalanceAccumulator}

theorem applyTo_eq_ok : applyTo depthLevels a s u = (.ok r, h') ↔ ∃ next,
    applyEach writeRow s a.pending = (.ok (), next) ∧ next.isEmptyOrCrossed = false ∧
      features depthLevels next u a.pending = .ok r ∧ h' = { a.clear with state :=
        { a.state with sides := next, ready := true, updateId := some u } } := by
  constructor
  · intro happly
    unfold applyTo at happly
    split at happly
    · cases happly
    · next next hrows =>
      split at happly
      · cases happly
      · next hvalid =>
        split at happly
        · cases happly
        · next hfeatures =>
          cases happly
          exact ⟨next, hrows, Bool.not_eq_true _ ▸ hvalid, hfeatures, rfl⟩
  · rintro ⟨next, hrows, hvalid, hfeatures, rfl⟩
    unfold applyTo
    simp only [hrows, hvalid, hfeatures, Bool.false_eq_true, if_false]
    rfl

/-- Of the accumulator only the rows and the connection are read. -/
theorem applyTo_forgets (hpending : h.pending = k.pending)
    (hconn : h.state.connectionId = k.state.connectionId)
    (happly : applyTo depthLevels h s u = (.ok r, h')) :
    applyTo depthLevels k s u = (.ok r, { k.clear with state := h'.state }) := by
  obtain ⟨next, hrows, hvalid, hfeatures, rfl⟩ := applyTo_eq_ok.mp happly
  rw [hpending] at hrows hfeatures
  refine applyTo_eq_ok.mpr ⟨next, hrows, hvalid, hfeatures, ?_⟩
  simp only [Held.clear, hconn]

theorem applyDelta_eq_ok (happly : applyDelta depthLevels a u connectionId = (.ok r, h')) :
    a.state.ready = true ∧ a.state.updateId = some (u - 1) ∧
      a.state.connectionId = some connectionId ∧
      applyTo depthLevels a a.state.sides u = (.ok r, h') := by
  unfold applyDelta at happly
  split at happly
  · next previous hready hprevious =>
    split at happly
    · cases happly
    · next hconn =>
      split at happly
      · cases happly
      · next hnext =>
        have hu : u - 1 = previous := by omega
        exact ⟨hready, by rw [hprevious, hu], (not_not.mp hconn).symm, happly⟩
  · cases happly

theorem applyDelta_forgets (hpending : h.pending = k.pending) (hstate : h.state = k.state)
    (happly : applyDelta depthLevels h u connectionId = (.ok r, h')) :
    applyDelta depthLevels k u connectionId = (.ok r, { k.clear with state := h'.state }) := by
  obtain ⟨hready, hprevious, hconn, hto⟩ := applyDelta_eq_ok happly
  have hconn' : h.state.connectionId = k.state.connectionId := by rw [hstate]
  rw [hstate] at hready hprevious hconn hto
  rw [l2Delta_next (by rw [hready, hprevious]; rfl) hprevious hconn.symm (by omega)]
  exact applyTo_forgets hpending hconn' hto

/-- What an accepted batch is. -/
theorem applyPending_eq_ok (happly : applyPending T depthLevels a = (.ok r, h')) :
    ∃ messageType u connectionId,
      theOne (a.pending.map (·.messageType)) = some messageType ∧
      theOne (a.pending.map (·.updateId)) = some (some u) ∧
      theOne (a.pending.map (·.connectionId)) = some connectionId ∧
      ((messageType = "snapshot" ∧
          applyTo depthLevels (connect a connectionId) .empty u = (.ok r, h')) ∨
        (messageType = "delta" ∧ applyDelta depthLevels a u connectionId = (.ok r, h'))) := by
  unfold applyPending at happly
  split at happly
  · next messageType u connectionId htype hupdate hconn =>
    refine ⟨messageType, u, connectionId, htype, hupdate, hconn, ?_⟩
    split at happly
    · next hsnapshot => exact .inl ⟨hsnapshot, happly⟩
    · split at happly
      · next hdelta => exact .inr ⟨hdelta, happly⟩
      · cases happly
  · cases happly
  · cases happly

variable (a) in
/-- What is answered does not depend on the last key. -/
theorem applyTo_last (last : Option BookKey) :
    (applyTo depthLevels { a with last } s u).1 = (applyTo depthLevels a s u).1 := by
  unfold applyTo
  dsimp only
  split
  · rfl
  · split
    · rfl
    · split
      · rfl
      · rfl

variable (T depthLevels a) in
theorem applyPending_last (last : Option BookKey) :
    (applyPending T depthLevels { a with last }).1 = (applyPending T depthLevels a).1 := by
  unfold applyPending
  dsimp only
  split
  · split
    · exact applyTo_last (connect a _) last
    · split
      · unfold applyDelta
        dsimp only
        split
        · split
          · rfl
          · split
            · rfl
            · exact applyTo_last a last
        · rfl
      · rfl
  · rfl
  · rfl

variable (T depthLevels) in
theorem restarts (symbol : String) :
    Restarts (feeder T symbol depthLevels) (fun b c => b = c) where
  clears := by
    intro h r h' happly
    obtain ⟨-, u, connectionId, -, -, -, ⟨-, hto⟩ | ⟨-, hdelta⟩⟩ := applyPending_eq_ok happly
    · obtain ⟨next, -, -, -, rfl⟩ := applyTo_eq_ok.mp hto
      exact ⟨rfl, rfl, rfl⟩
    · obtain ⟨-, -, -, hto⟩ := applyDelta_eq_ok hdelta
      obtain ⟨next, -, -, -, rfl⟩ := applyTo_eq_ok.mp hto
      exact ⟨rfl, rfl, rfl⟩
  unranked := by
    intro h x
    exact applyPending_last T depthLevels h _
  close := by
    intro h k r h' hq happly
    obtain ⟨messageType, u, connectionId, htype, hupdate, hconn, hcase⟩ := applyPending_eq_ok happly
    have hof : applyPending T depthLevels k = _ :=
      applyPending_of (hq.pending ▸ htype) (hq.pending ▸ hupdate) (hq.pending ▸ hconn)
    refine ⟨h'.state, ?_, rfl⟩
    show applyPending T depthLevels k = _
    rw [hof]
    rcases hcase with ⟨rfl, hto⟩ | ⟨rfl, hdelta⟩
    · rw [if_pos rfl]
      exact applyTo_forgets (h := connect h connectionId) (k := connect k connectionId) hq.pending
        rfl hto
    · rw [if_neg (by decide), if_pos rfl]
      rcases hq.state with hstate | hopens
      · exact applyDelta_forgets hq.pending hstate hdelta
      · exact absurd (hopens.messageType htype) (by decide)

end L2ImbalanceAccumulator

/-! ## The book liquidity accumulator -/

/-- The same reductions, counted from another start. -/
def ShiftedReductions (d : ℤ) (m n : Option String × ℚ → Option ℕ) : Prop :=
  ∀ key, (m key).map (fun at' => (at' : ℤ)) = (n key).map (fun at' => (at' : ℤ) + d)

/-- The same book, with updates that are counted from another start. -/
structure ShiftedBook (b c : LiquidityBook) : Prop where
  sides : b.sides = c.sides
  previousUpdateId : b.previousUpdateId = c.previousUpdateId
  connectionId : b.connectionId = c.connectionId
  shift : ∃ d : ℤ, (b.updateCounter : ℤ) = c.updateCounter + d ∧
    ShiftedReductions d b.lastReduction c.lastReduction

theorem ShiftedBook.refl (b : LiquidityBook) : ShiftedBook b b :=
  ⟨rfl, rfl, rfl, 0, (Int.add_zero _).symm, fun key => by simp⟩

namespace BookLiquidityAccumulator

theorem counted_shifted {h k : BookLiquidityAccumulator} (hs : ShiftedBook h.state k.state) :
    ShiftedBook (count h).state (count k).state := by
  obtain ⟨d, hcounter, hreductions⟩ := hs.shift
  refine ⟨hs.sides, hs.previousUpdateId, hs.connectionId, d, ?_, hreductions⟩
  simp only [count]
  omega

structure ShiftedDelta (d : ℤ) (s t : DeltaState) : Prop where
  sides : s.sides = t.sides
  bid : s.bid = t.bid
  ask : s.ask = t.ask
  reductions : ShiftedReductions d s.lastReduction t.lastReduction

section Delta

variable {d : ℤ} {window counter counter' : ℕ} {s t : DeltaState}

theorem ShiftedDelta.onMetrics (h : ShiftedDelta d s t) (bid : Bool)
    (f : SideMetrics → SideMetrics) : ShiftedDelta d (s.onMetrics bid f) (t.onMetrics bid f) := by
  unfold DeltaState.onMetrics
  cases bid with
  | true => exact ⟨h.sides, congrArg f h.bid, h.ask, h.reductions⟩
  | false => exact ⟨h.sides, h.bid, congrArg f h.ask, h.reductions⟩

variable (window) in
/-- Only how long ago a reduction was is read. -/
theorem ShiftedDelta.record (hcounter : (counter : ℤ) = counter' + d) (h : ShiftedDelta d s t)
    (row : NormalizedMarketEvent) (price change : ℚ) :
    ShiftedDelta d (s.record window counter row price change)
      (t.record window counter' row price change) := by
  unfold DeltaState.record
  by_cases hadded : 0 < change
  · simp only [if_pos hadded]
    have hkey := h.reductions (row.bookSide, price)
    cases hs : s.lastReduction (row.bookSide, price) with
    | none =>
      cases ht : t.lastReduction (row.bookSide, price) with
      | none => exact h.onMetrics _ _
      | some n => simp [hs, ht] at hkey
    | some m =>
      cases ht : t.lastReduction (row.bookSide, price) with
      | none => simp [hs, ht] at hkey
      | some n =>
        have hshift : (m : ℤ) = n + d := by simpa [hs, ht] using hkey
        have hwindow : counter - m ≤ window ↔ counter' - n ≤ window := by omega
        simp only [hwindow]
        exact h.onMetrics _ _
  · simp only [if_neg hadded]
    by_cases hcancelled : change < 0
    · simp only [if_pos hcancelled]
      have hmetrics := h.onMetrics (isBid row) fun m => { m with cancelled := m.cancelled + -change }
      refine ⟨hmetrics.sides, hmetrics.bid, hmetrics.ask, fun key => ?_⟩
      by_cases hkey : key = (row.bookSide, price)
      · subst hkey
        simp [Function.update_self, hcounter]
      · simp only [Function.update_of_ne hkey]
        exact h.reductions key
    · simp only [if_neg hcancelled]
      exact h

theorem ShiftedDelta.deltaRow (hcounter : (counter : ℤ) = counter' + d) (h : ShiftedDelta d s t)
    {row : NormalizedMarketEvent} {s' : DeltaState}
    (hrow : deltaRow window counter s row = .ok s') :
    ∃ t', deltaRow window counter' t row = .ok t' ∧ ShiftedDelta d s' t' := by
  unfold BookLiquidityAccumulator.deltaRow at hrow ⊢
  split at hrow
  · cases hrow
  · next price new hlevel =>
    cases hrow
    refine ⟨_, rfl, ?_⟩
    rw [h.sides]
    have hrecord := h.record window hcounter row price
      (new - (((if isBid row then t.sides.bids else t.sides.asks).find price).map Prod.snd).getD 0)
    exact ⟨rfl, hrecord.bid, hrecord.ask, hrecord.reductions⟩

theorem ShiftedDelta.deltaRows (hcounter : (counter : ℤ) = counter' + d)
    {rows : List NormalizedMarketEvent} : ∀ {s t s' : DeltaState}, ShiftedDelta d s t →
      applyEach (BookLiquidityAccumulator.deltaRow window counter) s rows = (.ok (), s') →
      ∃ t', applyEach (BookLiquidityAccumulator.deltaRow window counter') t rows = (.ok (), t') ∧
        ShiftedDelta d s' t' := by
  induction rows with
  | nil =>
    intro s t s' h hrows
    cases hrows
    exact ⟨t, rfl, h⟩
  | cons row rows ih =>
    intro s t s' h hrows
    unfold applyEach at hrows ⊢
    split at hrows
    · cases hrows
    · next middle hrow =>
      obtain ⟨middle', hrow', hmiddle⟩ := h.deltaRow hcounter hrow
      simp only [hrow']
      exact ih hmiddle hrows

end Delta

variable {T : Texts} {window : ℕ} {a h k : BookLiquidityAccumulator} {u : ℤ}
  {connectionId : String} {r : LiquidityRow} {h' : BookLiquidityAccumulator}
  {bid ask : SideMetrics}

/-- Of the accumulator only the rows and the sides are read. -/
theorem finish_forgets (hpending : h.pending = k.pending)
    (hsides : h.state.sides = k.state.sides) (hfinish : finish h bid ask u = (.ok r, h')) :
    h' = h.clear ∧ finish k bid ask u = (.ok r, k.clear) := by
  unfold finish at hfinish ⊢
  rw [← hsides, ← hpending]
  split at hfinish
  · cases hfinish
  · next hvalid =>
    cases hfinish
    rw [if_neg hvalid]
    exact ⟨rfl, rfl⟩

theorem applySnapshot_forgets (hpending : h.pending = k.pending)
    (happly : applySnapshot h u connectionId = (.ok r, h')) : ∃ sides,
      h' = (replace h sides u connectionId).clear ∧
      applySnapshot k u connectionId = (.ok r, (replace k sides u connectionId).clear) := by
  unfold applySnapshot at happly ⊢
  rw [← hpending]
  cases hrows : applyEach snapshotRow .empty h.pending with
  | mk answer sides =>
    rw [hrows] at happly
    cases answer with
    | error e => cases happly
    | ok _ =>
      obtain ⟨rfl, hk⟩ := finish_forgets (h := replace h sides u connectionId)
        (k := replace k sides u connectionId) hpending rfl happly
      exact ⟨sides, rfl, hk⟩

/-- What a delta leaves before the book is checked. -/
def store (a : BookLiquidityAccumulator) (s : DeltaState) (u : ℤ) : BookLiquidityAccumulator :=
  { a with state := { a.state with
    sides := s.sides, lastReduction := s.lastReduction, previousUpdateId := some u } }

theorem applyDelta_eq_ok : applyDelta window a u connectionId = (.ok r, h') ↔ ∃ s,
    a.state.previousUpdateId = some (u - 1) ∧ a.state.connectionId = some connectionId ∧
      applyEach (deltaRow window a.state.updateCounter)
        { sides := a.state.sides, lastReduction := a.state.lastReduction } a.pending = (.ok (), s) ∧
      finish (store a s u) s.bid s.ask u = (.ok r, h') := by
  unfold applyDelta
  constructor
  · intro happly
    dsimp only at happly
    split at happly
    · cases happly
    · next previous hprevious =>
      split at happly
      · cases happly
      · next hgap =>
        obtain ⟨hconn, hnext⟩ := not_or.mp hgap
        have hu : u - 1 = previous := by omega
        cases hrows : applyEach (deltaRow window a.state.updateCounter)
          { sides := a.state.sides, lastReduction := a.state.lastReduction } a.pending with
        | mk answer s =>
          rw [hrows] at happly
          cases answer with
          | error e => cases happly
          | ok _ =>
            exact ⟨s, by rw [hprevious, hu], (not_not.mp hconn).symm, rfl, happly⟩
  · rintro ⟨s, hprevious, hconn, hrows, hfinish⟩
    have hgap : ¬ (some connectionId ≠ a.state.connectionId ∨ u ≠ u - 1 + 1) := by
      rintro (hne | hne)
      · exact hne hconn.symm
      · omega
    simp only [hprevious, if_neg hgap, hrows]
    exact hfinish

theorem applyDelta_forgets (hpending : h.pending = k.pending)
    (hshift : ShiftedBook h.state k.state)
    (happly : applyDelta window h u connectionId = (.ok r, h')) : ∃ b c,
      h' = { h.clear with state := b } ∧
      applyDelta window k u connectionId = (.ok r, { k.clear with state := c }) ∧
      ShiftedBook b c := by
  obtain ⟨hsides, hprevious, hconn, d, hcounter, hreductions⟩ := hshift
  obtain ⟨s, hupdate, hconnection, hrows, hfinish⟩ := applyDelta_eq_ok.mp happly
  have hstart : ShiftedDelta d { sides := h.state.sides, lastReduction := h.state.lastReduction }
      { sides := k.state.sides, lastReduction := k.state.lastReduction } :=
    ⟨hsides, rfl, rfl, hreductions⟩
  obtain ⟨t, hrows', ht⟩ := hstart.deltaRows hcounter hrows
  obtain ⟨rfl, hk⟩ := finish_forgets (h := store h s u) (k := store k t u) hpending ht.sides hfinish
  rw [ht.bid, ht.ask] at hk
  refine ⟨(store h s u).state, (store k t u).state, rfl, ?_, ht.sides, rfl, hconn, d, hcounter,
    ht.reductions⟩
  exact applyDelta_eq_ok.mpr ⟨t, hprevious ▸ hupdate, hconn ▸ hconnection, hpending ▸ hrows', hk⟩

/-- What an accepted batch is. -/
theorem applyPending_eq_ok (happly : applyPending T window a = (.ok r, h')) :
    ∃ messageType u connectionId, header a.pending = .ok (messageType, u, connectionId) ∧
      ((messageType = "snapshot" ∧ applySnapshot (count a) u connectionId = (.ok r, h')) ∨
        (messageType = "delta" ∧ applyDelta window (count a) u connectionId = (.ok r, h'))) := by
  unfold applyPending at happly
  split at happly
  · cases happly
  · next messageType u connectionId hheader =>
    refine ⟨messageType, u, connectionId, hheader, ?_⟩
    dsimp only at happly
    split at happly
    · next hsnapshot => exact .inl ⟨hsnapshot, happly⟩
    · split at happly
      · next hdelta => exact .inr ⟨hdelta, happly⟩
      · cases happly

variable (a) in
/-- What is answered does not depend on the last key. -/
theorem finish_last (last : Option BookKey) :
    (finish { a with last } bid ask u).1 = (finish a bid ask u).1 := by
  unfold finish
  dsimp only
  split
  · rfl
  · rfl

variable (a u connectionId) in
theorem applySnapshot_last (last : Option BookKey) :
    (applySnapshot { a with last } u connectionId).1 = (applySnapshot a u connectionId).1 := by
  unfold applySnapshot
  dsimp only
  split
  · rfl
  · exact finish_last (replace a _ u connectionId) last

variable (window a u connectionId) in
theorem applyDelta_last (last : Option BookKey) :
    (applyDelta window { a with last } u connectionId).1 =
      (applyDelta window a u connectionId).1 := by
  unfold applyDelta
  dsimp only
  split
  · rfl
  · split
    · rfl
    · split
      · rfl
      · exact finish_last { a with state := _ } last

variable (T window a) in
theorem applyPending_last (last : Option BookKey) :
    (applyPending T window { a with last }).1 = (applyPending T window a).1 := by
  unfold applyPending
  dsimp only
  split
  · rfl
  · split
    · exact applySnapshot_last (count a) _ _ last
    · split
      · exact applyDelta_last window (count a) _ _ last
      · rfl

variable (T window) in
theorem restarts (symbol : String) : Restarts (feeder T symbol window) ShiftedBook where
  clears := by
    intro h r h' happly
    obtain ⟨-, u, connectionId, -, ⟨-, hsnapshot⟩ | ⟨-, hdelta⟩⟩ := applyPending_eq_ok happly
    · obtain ⟨sides, rfl, -⟩ := applySnapshot_forgets (h := count h) (k := count h) rfl hsnapshot
      exact ⟨rfl, rfl, rfl⟩
    · obtain ⟨b, -, rfl, -⟩ := applyDelta_forgets (h := count h) (k := count h) rfl (.refl _)
        hdelta
      exact ⟨rfl, rfl, rfl⟩
  unranked h x := applyPending_last T window h _
  close := by
    intro h k r h' hq happly
    obtain ⟨messageType, u, connectionId, hheader, hcase⟩ := applyPending_eq_ok happly
    have htype := (header_eq_ok.mp hheader).1
    rw [hq.pending] at hheader
    show ∃ state, applyPending T window k = _ ∧ _
    unfold applyPending
    rw [hheader]
    rcases hcase with ⟨rfl, hsnapshot⟩ | ⟨rfl, hdelta⟩
    · obtain ⟨sides, rfl, hk⟩ := applySnapshot_forgets (h := count h) (k := count k)
        hq.pending hsnapshot
      refine ⟨_, hk, rfl, rfl, rfl, h.state.updateCounter - k.state.updateCounter, ?_, ?_⟩
      · show ((h.state.updateCounter + 1 : ℕ) : ℤ) = ((k.state.updateCounter + 1 : ℕ) : ℤ) + _
        omega
      · exact fun _ => rfl
    · have hstate := hq.state.resolve_right fun hopens =>
        absurd (hopens.messageType htype) (by decide)
      obtain ⟨b, c, rfl, hk, hbc⟩ :=
        applyDelta_forgets (h := count h) (k := count k) hq.pending (counted_shifted hstate) hdelta
      exact ⟨c, hk, hbc⟩

end BookLiquidityAccumulator

/-! ## Two histories -/

variable {β ω : Type} {f : BookFeeder β ω} {R : β → β → Prop} {row : NormalizedMarketEvent}

/-- After a history, the continuation is answered as by a new accumulator. -/
theorem Restarts.restart (hf : Restarts f R)
    (hbatch : ∀ row, f.batchOf row = row.rawEventId) {state : β}
    {history rest : List NormalizedMarketEvent}
    (hsnapshot : row.messageType = "snapshot")
    (hhistory : ∀ other ∈ history, other.rawEventId ≠ row.rawEventId) {w : List ω}
    (hw : f.results { state } (history ++ row :: rest) = .ok w) :
    ∃ before after, f.results { state } history = .ok before ∧
      f.results { state } (row :: rest) = .ok after ∧ w = before ++ after := by
  refine hf.forgets.restart rfl rfl rfl ?_ ?_ hw
  · intro other hother
    rw [hbatch, hbatch]
    exact hhistory other hother
  · intro h hnone hpending
    refine ⟨?_, ?_, rfl, .inr ⟨row, ?_, hsnapshot⟩⟩
    · simp [Feeder.push, Feeder.ranked, hpending]
    · simp [Feeder.push, Feeder.ranked, hpending]
    · simp [Feeder.push, Feeder.ranked, hpending]

/-- A stream is answered the same after either history, and as without one. -/
def SameAfter {β ω : Type} (f : BookFeeder β ω) (state : β)
    (history history' stream : List NormalizedMarketEvent) : Prop :=
  ∀ w w', f.results { state } (history ++ stream) = .ok w →
    f.results { state } (history' ++ stream) = .ok w' →
    ∃ before before' after, f.results { state } history = .ok before ∧
      f.results { state } history' = .ok before' ∧ f.results { state } stream = .ok after ∧
      w = before ++ after ∧ w' = before' ++ after

theorem Restarts.sameAfter
    (hf : Restarts f R) (hbatch : ∀ row, f.batchOf row = row.rawEventId) (state : β)
    {history history' rest : List NormalizedMarketEvent}
    (hsnapshot : row.messageType = "snapshot")
    (hhistory : ∀ other ∈ history ++ history', other.rawEventId ≠ row.rawEventId) :
    SameAfter f state history history' (row :: rest) := by
  intro w w' hw hw'
  obtain ⟨before, after, hbefore, hafter, heq⟩ := hf.restart hbatch hsnapshot
    (fun other hother => hhistory other (List.mem_append_left _ hother)) hw
  obtain ⟨before', after', hbefore', hafter', heq'⟩ := hf.restart hbatch hsnapshot
    (fun other hother => hhistory other (List.mem_append_right _ hother)) hw'
  rw [hafter] at hafter'
  cases hafter'
  exact ⟨before, before', after, hbefore, hbefore', hafter, heq, heq'⟩

/-- **A snapshot forgets the history.** After any two histories, the rows of a stream that starts
with a snapshot event are answered with the same results by either accumulator, those of a run
that starts at the snapshot. -/
theorem snapshot_resets (c : BookConfig) {history history' : List NormalizedMarketEvent}
    (row : NormalizedMarketEvent) (rest : List NormalizedMarketEvent) (hsnapshot : row.messageType = "snapshot")
    (hhistory : ∀ other ∈ history ++ history', other.rawEventId ≠ row.rawEventId) :
    SameAfter c.l2 {} history history' (row :: rest) ∧
      SameAfter c.liquidity {} history history' (row :: rest) := by
  constructor
  · exact (L2ImbalanceAccumulator.restarts c.T c.depthLevels c.symbol).sameAfter (fun _ => rfl) {}
      hsnapshot hhistory
  · exact (BookLiquidityAccumulator.restarts c.T c.replenishmentWindowUpdates c.symbol).sameAfter
      (fun _ => rfl) {} hsnapshot hhistory

/-- A row of a book with one bid and one ask. -/
def sampleLevel (rawEventId messageType bookSide : String) (updateId : ℤ) (price size : ℚ) :
    NormalizedFields :=
  { schemaVersion := normalizedEventSchemaVersion
    normalizerVersion := normalizerVersion
    normalizedId := rawEventId ++ bookSide
    rawEventId
    rawPayloadSha256 := "payload"
    exchange := "bybit"
    marketType := "linear"
    channel := "orderbook"
    recordType := "book_level"
    symbol := "BTC"
    eventTsMs := updateId
    receiveTsNs := updateId
    receiveSequence := updateId
    connectionId := "connection"
    messageType
    sequence := none
    updateId := some updateId
    rowIndex := if bookSide = "bid" then 0 else 1
    price := some price
    size := some size
    bookSide := some bookSide
    bookAction := some "upsert" }

/-- The rows that are accepted. -/
def acceptedRows (rows : List NormalizedFields) : List NormalizedMarketEvent :=
  rows.filterMap fun row => row.checked.toOption

/-- A snapshot, a delta that takes size away, and a later snapshot with a delta that refills. -/
def earlierRows : List NormalizedMarketEvent := acceptedRows
  [sampleLevel "first" "snapshot" "bid" 1 99 5, sampleLevel "first" "snapshot" "ask" 1 101 5,
    sampleLevel "second" "delta" "bid" 2 99 1]

def laterRows : List NormalizedMarketEvent := acceptedRows
  [sampleLevel "third" "snapshot" "bid" 7 99 2, sampleLevel "third" "snapshot" "ask" 7 101 2,
    sampleLevel "fourth" "delta" "bid" 8 99 4]

theorem snapshot_resets_refill :
    (doubleConfig.l2.results { state := {} } (earlierRows ++ laterRows)).toBool = true ∧
      (doubleConfig.liquidity.results { state := {} } (earlierRows ++ laterRows)).toBool = true ∧
      SameAfter doubleConfig.l2 {} earlierRows [] laterRows ∧
      SameAfter doubleConfig.liquidity {} earlierRows [] laterRows :=
  ⟨by decide +kernel, by decide +kernel,
    snapshot_resets doubleConfig (laterRows.head (by decide)) laterRows.tail (by decide)
      (by decide)⟩

end Greenfield.Features
