import Greenfield.Data.BybitRows
import Greenfield.Features.BookLiquidity
import Greenfield.Features.L2Imbalance
import Mathlib.Data.PNat.Defs

/-!
# Two accumulators in lockstep

The L2 materialization feeds every row to `L2ImbalanceAccumulator` and to
`BookLiquidityAccumulator` and pairs what they emit (`_consume_pairs` of
`src/features/l2_materialization.py`). They write the rows of a snapshot in different ways, and
stay in lockstep exactly as long as each snapshot of which either way leaves a valid book is
settled (`books_lockstep`).
-/

namespace Greenfield.Features

open Py Data Depth Keyed Batches

local instance lockstepIntLinearOrder : LinearOrder ℤ := Int.instLinearOrder

/-- A row of an order-book message. -/
abbrev BookRow (D : Digests) (F : Floats) (T : Texts) (dumps : PyJson → String) :=
  {row : NormalizedMarketEvent // ∃ (e : RawMarketEvent D) (rows : List NormalizedMarketEvent),
    e.channel = "orderbook" ∧ normalizeBybitEvent F T dumps e = .ok rows ∧ row ∈ rows}

/-- `book` and `liquidity`, with what they answered last. -/
structure PairedBooks where
  book : L2ImbalanceAccumulator := { state := {} }
  liquidity : BookLiquidityAccumulator := { state := {} }
  bookRows : Except MarketError (List L2Features) := .ok []
  liquidityRows : Except MarketError (List LiquidityRow) := .ok []

/-- The accumulators and their parameters. -/
structure BookConfig where
  T : Texts
  symbol : String
  depthLevels : ℕ+
  replenishmentWindowUpdates : ℕ+

def BookConfig.l2 (c : BookConfig) : BookFeeder L2Book L2Features :=
  L2ImbalanceAccumulator.feeder c.T c.symbol c.depthLevels

def BookConfig.liquidity (c : BookConfig) : BookFeeder LiquidityBook LiquidityRow :=
  BookLiquidityAccumulator.feeder c.T c.symbol c.replenishmentWindowUpdates

/-- A row that both are fed with `update`, or `finalize`. -/
def PairedBooks.input (c : BookConfig) (p : PairedBooks) (i : Option NormalizedMarketEvent) :
    PairedBooks where
  book := (c.l2.input p.book i).2
  liquidity := (c.liquidity.input p.liquidity i).2
  bookRows := (c.l2.input p.book i).1
  liquidityRows := (c.liquidity.input p.liquidity i).1

/-- `_consume_pairs`; `add` is that of the buckets. -/
def consumePairs {β : Type} (add : β → L2Features × LiquidityRow → Except MarketError β)
    (buckets : β) (bookRows : List L2Features) (liquidityRows : List LiquidityRow) :
    Except MarketError β :=
  if bookRows.length ≠ liquidityRows.length then
    .error (.goldMaterialization "L2 feature accumulators emitted different counts")
  else
    (bookRows.zip liquidityRows).foldlM (fun buckets pair =>
      if pair.1.bookUpdateId ≠ pair.2.bookUpdateId ∨
          pair.1.maxSourceTimestamp ≠ pair.2.maxSourceTimestamp then
        .error (.goldMaterialization "L2 feature accumulators lost alignment")
      else add buckets pair) buckets

/-- Results of the same update and the same times. -/
structure SameEmission (r : L2Features) (l : LiquidityRow) : Prop where
  updateId : r.bookUpdateId = l.bookUpdateId
  timestamp : r.timestamp = l.timestamp
  maxSourceTimestamp : r.maxSourceTimestamp = l.maxSourceTimestamp

/-- Both accepted or both rejected the last input, with results of the same updates, and both
have the same levels. -/
structure PairedBooks.InLockstep (p : PairedBooks) : Prop where
  answers : Agree (List.Forall₂ SameEmission) p.bookRows p.liquidityRows
  bids : Same p.book.state.sides.bids p.liquidity.state.sides.bids
  asks : Same p.book.state.sides.asks p.liquidity.state.sides.asks

/-- If the rows are those of a snapshot and leave a valid book, in one way or the other, then no
price in them has a size and last size zero. -/
def SettledRows (rows : List NormalizedMarketEvent) : Prop :=
  ∀ u connectionId, BookLiquidityAccumulator.header rows = .ok ("snapshot", u, connectionId) →
    (writtenTo .empty rows).Valid ∨ (collectedSides rows).Valid →
    Settled (bidLevels rows) ∧ Settled (askLevels rows)

/-- A batch that the input closes is settled. -/
def SettledClose (c : BookConfig) (p : PairedBooks) (i : Option NormalizedMarketEvent) : Prop :=
  c.l2.closing p.book i = true → SettledRows p.book.pending

/-! ## What a close does -/

theorem isLevel_of_row {D : Digests} {F : Floats} {T : Texts} {dumps : PyJson → String}
    (row : BookRow D F T dumps) : IsLevel row.val := by
  obtain ⟨row, e, rows, hchannel, hrows, hmem⟩ := row
  obtain ⟨rowIndex, eventTsMs, bookSide, l, hside, hl, hfields⟩ :=
    orderbook_rows hrows hchannel row hmem
  refine ⟨?_, ?_, ?_, l.1, l.2, ?_, ?_, hl, ?_⟩
  · rw [hfields]
    rfl
  · rw [hfields]
    exact hchannel
  · rw [hfields]
    exact hside.imp (congrArg some) (congrArg some)
  · rw [hfields]
    rfl
  · rw [hfields]
    rfl
  · rw [hfields]
    rfl

/-- The two books have the same levels and wait for the same update. -/
structure InStep (b : L2Book) (l : LiquidityBook) : Prop where
  ready : b.ready = b.updateId.isSome
  updateId : b.updateId = l.previousUpdateId
  connectionId : b.connectionId = l.connectionId
  bids : Same b.sides.bids l.sides.bids
  asks : Same b.sides.asks l.sides.asks
  sized : b.sides.Sized

theorem InStep.empty (n : ℕ) : InStep {} { updateCounter := n } :=
  ⟨rfl, rfl, rfl, .refl _, .refl _, sized_empty⟩

theorem InStep.counted {b : L2Book} {l : LiquidityBook} (h : InStep b l) :
    InStep b { l with updateCounter := l.updateCounter + 1 } :=
  ⟨h.ready, h.updateId, h.connectionId, h.bids, h.asks, h.sized⟩

section Close

variable {T : Texts} {depthLevels : ℕ+} {window : ℕ} {h : L2ImbalanceAccumulator}
  {k : BookLiquidityAccumulator} {u : ℤ} {messageType connectionId : String}

/-- What both answer, and what they hold afterwards. -/
structure Together (r : Except MarketError L2Features × L2ImbalanceAccumulator)
    (r' : Except MarketError LiquidityRow × BookLiquidityAccumulator) : Prop where
  answers : Agree SameEmission r.1 r'.1
  held : Alike InStep r.2 r'.2

/-- The answers agree, and the levels are the same. -/
structure Aligned (r : Except MarketError L2Features × L2ImbalanceAccumulator)
    (r' : Except MarketError LiquidityRow × BookLiquidityAccumulator) : Prop where
  answers : Agree SameEmission r.1 r'.1
  bids : Same r.2.state.sides.bids r'.2.state.sides.bids
  asks : Same r.2.state.sides.asks r'.2.state.sides.asks

theorem invalidate_together (ha : Alike InStep h k) (e e' : MarketError) :
    Together (.error e, L2ImbalanceAccumulator.invalidate h)
      (.error e', BookLiquidityAccumulator.invalidate k) :=
  ⟨trivial, rfl, rfl, ha.last, .empty _⟩

/-- The end of both, for an update to the same levels. -/
theorem finish_together (ha : Alike InStep h k) (hlevels : ∀ row ∈ h.pending, IsLevel row)
    {s : Sides} (hsized : s.Sized) {l : LiquidityBook}
    (hbids : Same (writtenTo s h.pending).bids l.sides.bids)
    (hasks : Same (writtenTo s h.pending).asks l.sides.asks)
    (hupdate : l.previousUpdateId = some u) {b : L2Book} (hconn : b.connectionId = l.connectionId)
    (bid ask : SideMetrics) :
    Together (L2ImbalanceAccumulator.applyTo depthLevels { h with state := b } s u)
      (BookLiquidityAccumulator.finish { k with state := l } bid ask u) := by
  by_cases hvalid : (writtenTo s h.pending).Valid
  · have hvalid' : l.sides.Valid := hvalid.of_same hbids hasks
    obtain ⟨r, hr, hid, hmax, hts⟩ :=
      applyTo_valid depthLevels u (a := { h with state := b }) hlevels depthLevels.pos hvalid hsized
    obtain ⟨r', hr', hid', hmax', hts'⟩ :=
      finish_valid bid ask u (a := { k with state := l }) hvalid'
    rw [hr, hr']
    refine ⟨⟨hid.trans hid'.symm, ?_, ?_⟩, rfl, rfl, ha.last, rfl, hupdate.symm, hconn, hbids, hasks,
      sized_writtenTo hsized hlevels⟩
    · rw [hts, hts', ha.pending]
    · rw [hmax, hmax', ha.pending]
  · have hcrossed : ¬ l.sides.Valid := fun h' => hvalid (h'.of_same hbids.symm hasks.symm)
    rw [applyTo_crossed (a := { h with state := b }) hlevels hvalid,
      finish_crossed (a := { k with state := l }) hcrossed]
    exact ⟨trivial, rfl, rfl, ha.last, .empty _⟩

theorem l2_of_header
    (hheader : BookLiquidityAccumulator.header h.pending = .ok (messageType, u, connectionId)) :
    L2ImbalanceAccumulator.applyPending T depthLevels h =
      if messageType = "snapshot" then
        L2ImbalanceAccumulator.applyTo depthLevels (L2ImbalanceAccumulator.connect h connectionId)
          .empty u
      else if messageType = "delta" then
        L2ImbalanceAccumulator.applyDelta depthLevels h u connectionId
      else (.error (.orderFlow ("invalid L2 message type: " ++ T.repr (.str messageType))), h) := by
  obtain ⟨htype, hupdate, hconn⟩ := header_eq_ok.mp hheader
  exact applyPending_of htype hupdate hconn

variable (T depthLevels) in
theorem l2_of_header_error {e : MarketError}
    (hheader : BookLiquidityAccumulator.header h.pending = .error e) :
    ∃ e', L2ImbalanceAccumulator.applyPending T depthLevels h = (.error e', h) := by
  unfold L2ImbalanceAccumulator.applyPending
  split
  · next htype hupdate hconn =>
    rw [header_eq_ok.mpr ⟨htype, hupdate, hconn⟩] at hheader
    cases hheader
  · exact ⟨_, rfl⟩
  · exact ⟨_, rfl⟩

theorem delta_together (ha : Alike InStep h k) (hlevels : ∀ row ∈ h.pending, IsLevel row)
    (hheader : BookLiquidityAccumulator.header h.pending = .ok ("delta", u, connectionId)) :
    Together (L2ImbalanceAccumulator.applyPending T depthLevels h)
      (BookLiquidityAccumulator.applyDelta window k u connectionId) := by
  have hs := ha.state
  rw [l2_of_header hheader, if_neg (by decide), if_pos rfl]
  by_cases hnext : ∃ previous, h.state.updateId = some previous ∧
      some connectionId = h.state.connectionId ∧ u = previous + 1
  · obtain ⟨previous, hprevious, hconn, hnext⟩ := hnext
    have hlevels' : ∀ row ∈ k.pending, IsLevel row := by rwa [← ha.pending]
    obtain ⟨reductions, bid, ask, hdelta⟩ := applyDelta_next window hlevels'
      (hs.updateId ▸ hprevious) (hconn.trans hs.connectionId) hnext
    rw [l2Delta_next hs.ready hprevious hconn hnext, hdelta]
    refine finish_together ha hlevels hs.sized ?_ ?_ ?_ ?_ bid ask
    · rw [← ha.pending]
      exact hs.bids.writeAll _
    · rw [← ha.pending]
      exact hs.asks.writeAll _
    · rfl
    · exact hs.connectionId
  · have hgap : ∀ previous, h.state.updateId = some previous →
        some connectionId ≠ h.state.connectionId ∨ u ≠ previous + 1 := by
      intro previous hprevious
      by_contra hboth
      rw [not_or, not_not, not_not] at hboth
      exact hnext ⟨previous, hprevious, hboth⟩
    obtain ⟨e, he⟩ := l2Delta_gap depthLevels hs.ready hgap
    obtain ⟨e', he'⟩ := applyDelta_gap u window (a := k) (hs.updateId ▸ hs.connectionId ▸ hgap)
    rw [he, he']
    exact invalidate_together ha e e'

/-- What the second does with a snapshot. -/
theorem snapshot_finish (ha : Alike InStep h k) (hlevels : ∀ row ∈ h.pending, IsLevel row) :
    BookLiquidityAccumulator.applySnapshot k u connectionId =
      BookLiquidityAccumulator.finish
        (BookLiquidityAccumulator.replace k (collectedSides h.pending) u connectionId) {} {} u := by
  rw [ha.pending]
  exact applySnapshot_eq (ha.pending ▸ hlevels) u connectionId

theorem snapshot_together (ha : Alike InStep h k) (hlevels : ∀ row ∈ h.pending, IsLevel row)
    (hheader : BookLiquidityAccumulator.header h.pending = .ok ("snapshot", u, connectionId))
    (hsettled : (writtenTo .empty h.pending).Valid ∨ (collectedSides h.pending).Valid →
      Settled (bidLevels h.pending) ∧ Settled (askLevels h.pending)) :
    Together (L2ImbalanceAccumulator.applyPending T depthLevels h)
      (BookLiquidityAccumulator.applySnapshot k u connectionId) := by
  rw [l2_of_header hheader, if_pos rfl, snapshot_finish ha hlevels]
  by_cases hvalid : (writtenTo .empty h.pending).Valid ∨ (collectedSides h.pending).Valid
  · obtain ⟨hbids, hasks⟩ := hsettled hvalid
    refine finish_together ha hlevels sized_empty ?_ ?_ ?_ ?_ {} {}
    · exact (same_collect.mpr hbids).symm
    · exact (same_collect.mpr hasks).symm
    · rfl
    · rfl
  · rw [not_or] at hvalid
    rw [applyTo_crossed (a := L2ImbalanceAccumulator.connect h connectionId) hlevels hvalid.1,
      finish_crossed hvalid.2]
    exact ⟨trivial, rfl, rfl, ha.last, .empty _⟩

/-- A snapshot with the same answers and levels is settled. -/
theorem settled_of_snapshot (ha : Alike InStep h k) (hlevels : ∀ row ∈ h.pending, IsLevel row)
    (hheader : BookLiquidityAccumulator.header h.pending = .ok ("snapshot", u, connectionId))
    (hvalid : (writtenTo .empty h.pending).Valid ∨ (collectedSides h.pending).Valid)
    (hsame : Aligned (L2ImbalanceAccumulator.applyPending T depthLevels h)
      (BookLiquidityAccumulator.applySnapshot k u connectionId)) :
    Settled (bidLevels h.pending) ∧ Settled (askLevels h.pending) := by
  rw [l2_of_header hheader, if_pos rfl, snapshot_finish ha hlevels] at hsame
  obtain ⟨hanswers, hbids, hasks⟩ := hsame
  by_cases hwritten : (writtenTo .empty h.pending).Valid
  · obtain ⟨r, hr, -⟩ := applyTo_valid depthLevels u
      (a := L2ImbalanceAccumulator.connect h connectionId) hlevels depthLevels.pos hwritten
      sized_empty
    rw [hr] at hanswers hbids hasks
    by_cases hcollected : (collectedSides h.pending).Valid
    · obtain ⟨r', hr', -⟩ := finish_valid {} {} u
        (a := BookLiquidityAccumulator.replace k (collectedSides h.pending) u connectionId)
        hcollected
      rw [hr'] at hbids hasks
      exact ⟨same_collect.mp hbids.symm, same_collect.mp hasks.symm⟩
    · rw [finish_crossed hcollected] at hanswers
      exact hanswers.elim
  · obtain ⟨r', hr', -⟩ := finish_valid {} {} u
      (a := BookLiquidityAccumulator.replace k (collectedSides h.pending) u connectionId)
      (hvalid.resolve_left hwritten)
    rw [applyTo_crossed (a := L2ImbalanceAccumulator.connect h connectionId) hlevels hwritten,
      hr'] at hanswers
    exact hanswers.elim

theorem alike_count (ha : Alike InStep h k) :
    Alike InStep h (BookLiquidityAccumulator.count k) :=
  ⟨ha.pending, ha.batch, ha.last, ha.state.counted⟩

/-- A batch that is settled is closed by both alike. -/
theorem close_together (ha : Alike InStep h k) (hlevels : ∀ row ∈ h.pending, IsLevel row)
    (hsettled : SettledRows h.pending) :
    Together (L2ImbalanceAccumulator.applyPending T depthLevels h)
      (BookLiquidityAccumulator.applyPending T window k) := by
  unfold BookLiquidityAccumulator.applyPending
  rw [← ha.pending]
  cases hheader : BookLiquidityAccumulator.header h.pending with
  | error e =>
    obtain ⟨e', he'⟩ := l2_of_header_error T depthLevels hheader
    rw [he']
    exact ⟨trivial, ha⟩
  | ok fields =>
    obtain ⟨messageType, u, connectionId⟩ := fields
    have hcounted := alike_count ha
    dsimp only
    by_cases hsnapshot : messageType = "snapshot"
    · subst hsnapshot
      rw [if_pos rfl]
      exact snapshot_together hcounted hlevels hheader (hsettled u connectionId hheader)
    · rw [if_neg hsnapshot]
      by_cases hdelta : messageType = "delta"
      · subst hdelta
        rw [if_pos rfl]
        exact delta_together hcounted hlevels hheader
      · rw [if_neg hdelta, l2_of_header hheader, if_neg hsnapshot, if_neg hdelta]
        exact ⟨trivial, hcounted⟩

/-- A batch that both close with the same answers and levels is settled. -/
theorem settled_of_close (ha : Alike InStep h k) (hlevels : ∀ row ∈ h.pending, IsLevel row)
    (hsame : Aligned (L2ImbalanceAccumulator.applyPending T depthLevels h)
      (BookLiquidityAccumulator.applyPending T window k)) : SettledRows h.pending := by
  intro u connectionId hheader hvalid
  have hliquidity : BookLiquidityAccumulator.applyPending T window k =
      BookLiquidityAccumulator.applySnapshot (BookLiquidityAccumulator.count k) u connectionId := by
    unfold BookLiquidityAccumulator.applyPending
    rw [← ha.pending, hheader]
    exact if_pos rfl
  rw [hliquidity] at hsame
  exact settled_of_snapshot (alike_count ha) hlevels hheader hvalid hsame

end Close

/-! ## Runs -/

section Runs

variable {D : Digests} {F : Floats} {T : Texts} {dumps : PyJson → String} (c : BookConfig)

/-- A row of the normalizer, or the end of the stream. -/
def PairedBooks.step (p : PairedBooks) (i : Option (BookRow D F T dumps)) : PairedBooks :=
  p.input c (i.map Subtype.val)

variable {c}

theorem parallel_books : Parallel (IsLevel ·) c.l2 c.liquidity where
  check row hrow := by
    obtain ⟨price, size, hprice, hsize, -, haction⟩ := hrow.level
    have hkind : row.bookAction = some "upsert" ∨ row.bookAction = some "delete" := by
      rw [haction]
      by_cases hzero : size = 0
      · simp [hzero]
      · simp [hzero]
    unfold BookConfig.l2 BookConfig.liquidity L2ImbalanceAccumulator.feeder
      BookLiquidityAccumulator.feeder L2ImbalanceAccumulator.validateRow
      BookLiquidityAccumulator.validate
    by_cases hsymbol : row.symbol = c.symbol
    · simp [hrow.recordType, hrow.channel, hrow.side, hsymbol, hkind, hprice, hsize]
    · simp [hrow.recordType, hrow.channel, hrow.side, hsymbol, Except.toBool]
  rank := rfl
  batchOf := rfl

/-- What holds as long as snapshots are settled. -/
structure PairedBooks.Aligned (p : PairedBooks) : Prop where
  alike : Alike InStep p.book p.liquidity
  levels : ∀ row ∈ p.book.pending, IsLevel row

theorem aligned_start : PairedBooks.Aligned {} :=
  ⟨⟨rfl, rfl, rfl, .empty 0⟩, fun _ hrow => absurd hrow List.not_mem_nil⟩

theorem lockstep_start : PairedBooks.InLockstep {} := ⟨.nil, .refl _, .refl _⟩

theorem isLevel_input {i : Option (BookRow D F T dumps)} {row : NormalizedMarketEvent}
    (h : i.map Subtype.val = some row) : IsLevel row := by
  obtain ⟨row, -, rfl⟩ := Option.map_eq_some_iff.mp h
  exact isLevel_of_row row

/-- What is held after an L2 close was held before. -/
theorem pending_l2 (a : L2ImbalanceAccumulator) :
    ∀ row ∈ (c.l2.close a).2.pending, row ∈ a.pending := by
  have hnil (row : NormalizedMarketEvent) (h : row ∈ ([] : List NormalizedMarketEvent)) :
      row ∈ a.pending := absurd h List.not_mem_nil
  have happly (b : L2ImbalanceAccumulator) (hb : b.pending = a.pending) (s : Sides) (u : ℤ) :
      ∀ row ∈ (L2ImbalanceAccumulator.applyTo c.depthLevels b s u).2.pending,
        row ∈ a.pending := by
    unfold L2ImbalanceAccumulator.applyTo
    rw [← hb] at hnil ⊢
    split
    · exact fun row h => h
    · split
      · exact hnil
      · dsimp only
        split
        · exact fun row h => h
        · exact hnil
  show ∀ row ∈ (L2ImbalanceAccumulator.applyPending c.T c.depthLevels a).2.pending, row ∈ a.pending
  unfold L2ImbalanceAccumulator.applyPending
  split
  · split
    · exact happly (L2ImbalanceAccumulator.connect a _) rfl _ _
    · split
      · unfold L2ImbalanceAccumulator.applyDelta
        split
        · split
          · exact hnil
          · split
            · exact hnil
            · exact happly a rfl _ _
        · exact hnil
      · exact fun row h => h
  · exact fun row h => h
  · exact fun row h => h

/-- What one input does. -/
theorem step_lockstep {p : PairedBooks} (ha : p.Aligned) (i : Option (BookRow D F T dumps)) :
    ((p.step c i).InLockstep ↔ SettledClose c p (i.map Subtype.val)) ∧
      (SettledClose c p (i.map Subtype.val) → (p.step c i).Aligned) := by
  have hlevels : ∀ row ∈ (p.step c i).book.pending, IsLevel row := by
    intro row hrow
    rcases Feeder.mem_input pending_l2 hrow with hrow | hrow
    · exact ha.levels row hrow
    · exact isLevel_input hrow
  have hp := parallel_books (c := c)
  have hinput : ∀ row, i.map Subtype.val = some row → IsLevel row := fun _ => isLevel_input
  by_cases hc : c.l2.closing p.book (i.map Subtype.val) = true
  · have hc' : c.liquidity.closing p.liquidity (i.map Subtype.val) = true :=
      (ha.alike.closing hp hinput).symm.trans hc
    have hbefore := ha.alike.before (i := i.map Subtype.val) hp
    have hpending : (c.l2.before p.book (i.map Subtype.val)).pending = p.book.pending :=
      Feeder.before_pending
    have hlevels' : ∀ row ∈ (c.l2.before p.book (i.map Subtype.val)).pending, IsLevel row := by
      rw [hpending]
      exact ha.levels
    have htogether (hsettled : SettledClose c p (i.map Subtype.val)) :
        Together (c.l2.close (c.l2.before p.book (i.map Subtype.val)))
          (c.liquidity.close (c.liquidity.before p.liquidity (i.map Subtype.val))) :=
      close_together hbefore hlevels' (hpending.symm ▸ hsettled hc)
    have hl2 := Feeder.input_closing hc
    have hliquidity := Feeder.input_closing hc'
    have halike (hsettled : SettledClose c p (i.map Subtype.val)) :
        Alike InStep (p.step c i).book (p.step c i).liquidity := by
      show Alike InStep (c.l2.input p.book _).2 (c.liquidity.input p.liquidity _).2
      rw [hl2, hliquidity]
      exact (htogether hsettled).held.after (htogether hsettled).answers hp
    refine ⟨⟨fun hsame _ => ?_, fun hsettled => ?_⟩, fun hsettled => ⟨halike hsettled, hlevels⟩⟩
    · rw [← hpending]
      obtain ⟨hanswers, hbids, hasks⟩ := hsame
      simp only [PairedBooks.step, PairedBooks.input, hl2, hliquidity] at hanswers hbids hasks
      rw [agree_after] at hanswers
      rw [Feeder.after_state, Feeder.after_state] at hbids hasks
      exact settled_of_close hbefore hlevels' ⟨hanswers, hbids, hasks⟩
    · have hstate := (halike hsettled).state
      refine ⟨?_, hstate.bids, hstate.asks⟩
      show Agree _ (c.l2.input p.book _).1 (c.liquidity.input p.liquidity _).1
      rw [hl2, hliquidity, agree_after]
      exact (htogether hsettled).answers
  · have hopen := ha.alike.input_open (S := SameEmission) hp hinput (Bool.not_eq_true _ ▸ hc)
    have hstate := hopen.2.state
    exact ⟨⟨fun _ hclosing => absurd hclosing hc, fun _ => ⟨hopen.1, hstate.bids, hstate.asks⟩⟩,
      fun _ => ⟨hopen.2, hlevels⟩⟩

/-- Results of the same updates are paired, and none is lost. -/
theorem consume_aligned {rows : List L2Features} {liquidityRows : List LiquidityRow}
    (h : List.Forall₂ SameEmission rows liquidityRows) {β : Type}
    (add : β → L2Features × LiquidityRow → Except MarketError β) (buckets : β) :
    consumePairs add buckets rows liquidityRows =
      (rows.zip liquidityRows).foldlM add buckets := by
  unfold consumePairs
  rw [if_neg (not_not.mpr h.length_eq)]
  induction h generalizing buckets with
  | nil => rfl
  | cons hpair _ ih =>
    rw [List.zip_cons_cons, List.foldlM_cons, List.foldlM_cons]
    have haligned : ¬ (_ ≠ _ ∨ _ ≠ _) := not_or.mpr
      ⟨not_not.mpr hpair.updateId, not_not.mpr hpair.maxSourceTimestamp⟩
    rw [if_neg haligned]
    exact bind_congr fun next => ih next

theorem lockstep_iff (feed : List (Option (BookRow D F T dumps))) :
    Runs.Always (PairedBooks.step c) PairedBooks.InLockstep {} feed ↔
      Runs.Meets (PairedBooks.step c)
        (fun p (i : Option (BookRow D F T dumps)) => SettledClose c p (i.map Subtype.val))
        {} feed :=
  Runs.always_iff_meets_of (fun _ i h hok => (step_lockstep h i).2 hok)
    (fun _ i h _ => (step_lockstep h i).1) feed aligned_start lockstep_start

end Runs

/-- The snapshot that lists the bid at 100 twice, the second time with size zero. -/
def doubleUpdate : RawMarketEvent (digestOf []) := { doubleBidEvent with updateId := some 1 }

theorem buildable_doubleUpdate : Buildable doubleUpdate where
  hex := digestOf_hex fun row hrow => absurd hrow List.not_mem_nil
  ascii := by decide +kernel
  identified := by decide
  channel := List.mem_cons_self

def doubleRows : List NormalizedMarketEvent :=
  buildable_doubleUpdate.rows 1 Int.one_pos doubleBidMessage.records

theorem read_doubleUpdate :
    readEvent sampleFloats sampleTexts doubleUpdate = .ok doubleBidMessage :=
  (readEvent_update doubleBidEvent (some 1)).trans read_doubleBid

theorem normalize_doubleUpdate (dumps : PyJson → String) :
    normalizeBybitEvent sampleFloats sampleTexts dumps doubleUpdate = .ok doubleRows :=
  normalize_read _ buildable_doubleUpdate (fun _ => rfl) rfl rfl (m := doubleBidMessage)
    read_doubleUpdate (.inl rfl) rfl Int.one_pos

/-- The rows of the snapshot, and the end. -/
def doubleFeed (dumps : PyJson → String) :
    List (Option (BookRow (digestOf []) sampleFloats sampleTexts dumps)) :=
  doubleRows.attach.map (fun row =>
    some ⟨row.val, doubleUpdate, doubleRows, rfl, normalize_doubleUpdate dumps, row.property⟩) ++
    [none]

def doubleConfig : BookConfig := ⟨sampleTexts, "BTC", 5, 5⟩

end Greenfield.Features
