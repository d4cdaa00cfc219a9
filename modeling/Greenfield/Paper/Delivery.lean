import Greenfield.Paper.Accounting

/-!
# At-least-once delivery of fills

`deliver s d` is the contents after `apply_fill_result`, unchanged when it raises. Once
delivered, a fill is never accepted again, whatever is delivered or cancelled in between
(`Accepts.antitone`), so repetitions can be left out. A fill that reuses a recorded id is
refused exactly when `_fill_row_conflicts` or an argument test sees a difference.
-/

namespace Greenfield.Paper

open Keyed Py PaperOrderStore

/-- What can arrive while fills are delivered. -/
inductive Delivery where
  | fill (clientOrderId : String) (fill : Fill)
  | cancel (clientOrderId : String) (nowUtc : Datetime)
  deriving DecidableEq

def Delivery.isFill : Delivery → Bool
  | .fill .. => true
  | .cancel .. => false

namespace PaperOrderStore

def deliver (s : PaperOrderStore) : Delivery → PaperOrderStore
  | .fill c fill => commit (s.applyFillResult c fill) s
  | .cancel c now => commit (s.markCanceled c now) s

variable {s s' : PaperOrderStore} {c : String} {fill : Fill}

/-- The delivery is written: a rejection of an open order, or an unseen valid fill that
fits it. -/
def Accepts (s : PaperOrderStore) (c : String) (fill : Fill) : Prop :=
  if fill.rejected then
    ∃ now o, utc fill.filledAt "paper order rejected_at" = .ok now ∧ s.orders.find c = some o ∧
      (o.state = .pendingSubmit ∨ o.state = .submitted)
  else ∃ now o, ValidFill fill now ∧ Fillable s c fill o

theorem deliver_fill : s.deliver (.fill c fill) = commit (s.applyFillResult c fill) s := rfl

variable {r : PaperOrderRecord}

/-- A call that succeeds is accepted, or an identical redelivery that changes nothing. -/
theorem applyFillResult_ok (h : s.applyFillResult c fill = .ok (r, s')) :
    s.Accepts c fill ∨ s' = s := by
  unfold applyFillResult at h
  unfold Accepts
  split at h
  · next hrej =>
    obtain ⟨now, o, hnow, ho, hst, -, -⟩ := recordRejection_eq_ok.mp h
    exact .inl (by rw [if_pos hrej]; exact ⟨now, o, hnow, ho, hst⟩)
  · next hrej =>
    obtain ⟨now, hv, ⟨_, -, -, -, rfl⟩ | ⟨o, fills, hf, -, -, -⟩⟩ := recordFill_eq_ok.mp h
    · exact .inr rfl
    · exact .inl (by rw [if_neg hrej]; exact ⟨now, o, hv, hf⟩)

/-- What is not accepted changes nothing. -/
theorem deliver_of_not_accepts (h : ¬ s.Accepts c fill) : s.deliver (.fill c fill) = s := by
  rw [deliver_fill]
  cases hr : s.applyFillResult c fill with
  | error e => rfl
  | ok p => exact (applyFillResult_ok hr).resolve_left h

/-- An accepted rejection closes the order. -/
theorem not_accepts_rejected (hrej : fill.rejected = true) (h : s.Accepts c fill) :
    ¬ (s.deliver (.fill c fill)).Accepts c fill := by
  rw [Accepts, if_pos hrej] at h
  obtain ⟨now, o, hnow, ho, hst⟩ := h
  rw [Accepts, if_pos hrej, deliver_fill, applyFillResult, if_pos hrej,
    recordRejection_eq_ok.mpr ⟨now, o, hnow, ho, hst, rfl, rfl⟩, commit_ok]
  rintro ⟨_, o', -, ho', hst'⟩
  rw [find_updateOrder, if_pos rfl, ho] at ho'
  cases ho'
  rcases hst' with e | e <;> cases e

/-- An accepted fill is recorded under its id. -/
theorem not_accepts_filled (hrej : ¬ fill.rejected = true) (h : s.Accepts c fill) :
    ¬ (s.deliver (.fill c fill)).Accepts c fill := by
  rw [Accepts, if_neg hrej] at h
  obtain ⟨now, o, hv, hf⟩ := h
  obtain ⟨fills, hi⟩ := Table.insert_isSome (t := s.fills) (r := newFill c fill now) hf.1
  rw [Accepts, if_neg hrej, deliver_fill, applyFillResult, if_neg hrej,
    recordFill_eq_ok.mpr ⟨now, hv, .inr ⟨o, fills, hf, hi, rfl, rfl⟩⟩, commit_ok]
  rintro ⟨_, _, -, hn, -⟩
  change fills.find (newFill c fill now).fillId = none at hn
  rw [Table.find_insert hi, if_pos rfl] at hn
  cases hn

/-- Once delivered, a fill is not accepted. -/
theorem not_accepts_deliver : ¬ (s.deliver (.fill c fill)).Accepts c fill := by
  by_cases h : s.Accepts c fill
  · by_cases hrej : fill.rejected = true
    · exact not_accepts_rejected hrej h
    · exact not_accepts_filled hrej h
  · rw [deliver_of_not_accepts h]
    exact h

/-! ## Later contents -/

/-- `s'` is later than `s`: recorded fills stay, unknown orders stay unknown, filled
quantities grow and no order comes back to a status it left. -/
structure Later (s s' : PaperOrderStore) : Prop where
  fills : ∀ id, s'.fills.find id = none → s.fills.find id = none
  orders : ∀ c o', s'.orders.find c = some o' → ∃ o, s.orders.find c = some o ∧
    o.quantity = o'.quantity ∧ o.filledQuantity ≤ o'.filledQuantity ∧
    (o'.state = .submitted ∨ o'.state = .partiallyFilled →
      o.state = .submitted ∨ o.state = .partiallyFilled) ∧
    (o'.state = .pendingSubmit ∨ o'.state = .submitted →
      o.state = .pendingSubmit ∨ o.state = .submitted)

theorem Later.refl : Later s s :=
  ⟨fun _ h => h, fun _ o h => ⟨o, h, rfl, le_refl _, id, id⟩⟩

/-- Rewriting an order so that it grows and moves on is later. -/
theorem Later.update {f : OrderRow → OrderRow} (hf : ∀ r, (f r).clientOrderId = r.clientOrderId)
    {o : OrderRow} {fills : Table FillRow.fillId} {positions : Table PositionRow.symbol}
    (ho : s.orders.find c = some o) (hfills : ∀ id, fills.find id = none → s.fills.find id = none)
    (hq : (f o).quantity = o.quantity) (hle : o.filledQuantity ≤ (f o).filledQuantity)
    (hfillable : (f o).state = .submitted ∨ (f o).state = .partiallyFilled →
      o.state = .submitted ∨ o.state = .partiallyFilled)
    (hopen : (f o).state = .pendingSubmit ∨ (f o).state = .submitted →
      o.state = .pendingSubmit ∨ o.state = .submitted) :
    Later s { s.updateOrder c f hf with fills, positions } where
  fills := hfills
  orders k o' ho' := by
    change (s.updateOrder c f hf).orders.find k = some o' at ho'
    rw [find_updateOrder] at ho'
    split at ho'
    · next e =>
      subst e
      rw [ho] at ho'
      cases ho'
      exact ⟨o, ho, hq.symm, hle, hfillable, hopen⟩
    · exact ⟨o', ho', rfl, le_refl _, id, id⟩

theorem later_commit {t : StoreTxn} (h : ∀ r s', t = .ok (r, s') → Later s s') :
    Later s (commit t s) := by
  cases t with
  | error e => exact .refl
  | ok p => exact h p.1 p.2 rfl

theorem later_markCanceled {now : Datetime}
    (h : s.markCanceled c now = .ok (r, s')) : Later s s' := by
  obtain ⟨_, _, -, ho, ⟨-, -, rfl⟩ | ⟨-, -, rfl⟩⟩ := markCanceled_eq_ok.mp h
  · exact .refl
  · exact Later.update (cancelRow_key _) ho (fun _ h => h) rfl (le_refl _) nofun nofun

theorem later_recordRejection {reason : String} {now : Datetime}
    (h : s.recordRejection c reason now = .ok (r, s')) : Later s s' := by
  obtain ⟨_, _, -, ho, -, -, rfl⟩ := recordRejection_eq_ok.mp h
  exact Later.update (rejectRow_key reason _) ho (fun _ h => h) rfl (le_refl _) nofun nofun

theorem later_recordFill (h : s.recordFill c fill = .ok (r, s')) :
    Later s s' := by
  obtain ⟨now, hv, ⟨_, -, -, -, rfl⟩ | ⟨o, fills, ⟨-, ho, hst, -⟩, hi, -, rfl⟩⟩ :=
    recordFill_eq_ok.mp h
  · exact .refl
  · have hle : o.filledQuantity ≤ (fillOrder o.toRecord fill now o).filledQuantity := by
      have hpos : 0 < fill.filledQuantity := hv.2.1
      change o.filledQuantity ≤ o.filledQuantity + fill.filledQuantity
      linarith
    have hkeep : ∀ id, fills.find id = none → s.fills.find id = none := by
      intro id h
      rw [Table.find_insert hi] at h
      split at h
      · cases h
      · exact h
    have hclosed : (fillOrder o.toRecord fill now o).state = .pendingSubmit ∨
        (fillOrder o.toRecord fill now o).state = .submitted →
        o.state = .pendingSubmit ∨ o.state = .submitted := by
      rcases fillOrder_state o.toRecord fill now o with e | e <;> rw [e] <;>
        rintro (h | h) <;> cases h
    exact Later.update (fillOrder_key _ fill now) ho hkeep rfl hle (fun _ => hst) hclosed

theorem later_deliver (d : Delivery) : Later s (s.deliver d) := by
  cases d with
  | cancel c now => exact later_commit fun _ _ h => later_markCanceled h
  | fill c fill =>
    refine later_commit fun _ _ h => ?_
    unfold applyFillResult at h
    split at h
    · exact later_recordRejection h
    · exact later_recordFill h

/-- **What is accepted later is accepted now.** -/
theorem Accepts.antitone (hl : Later s s') (h : s'.Accepts c fill) : s.Accepts c fill := by
  unfold Accepts at h ⊢
  split
  · next hrej =>
    rw [if_pos hrej] at h
    obtain ⟨now, o', hnow, ho', hst'⟩ := h
    obtain ⟨o, ho, -, -, -, hst⟩ := hl.orders c o' ho'
    exact ⟨now, o, hnow, ho, hst hst'⟩
  · next hrej =>
    rw [if_neg hrej] at h
    obtain ⟨now, o', hv, hn, ho', hst', hover⟩ := h
    obtain ⟨o, ho, hq, hle, hst, -⟩ := hl.orders c o' ho'
    refine ⟨now, o, hv, hl.fills _ hn, ho, hst hst', ?_⟩
    rw [hq]
    linarith

/-- A delivery that can no longer be accepted. -/
def Spent (s : PaperOrderStore) : Delivery → Prop
  | .fill c fill => ¬ s.Accepts c fill
  | .cancel .. => False

/-- **Redelivered fills have no effect.** The contents after any deliveries are those
after the first delivery of each fill. -/
theorem run_deliver_firsts (s : PaperOrderStore) (ds : List Delivery) :
    Runs.run deliver s (Runs.firsts Delivery.isFill [] ds) = Runs.run deliver s ds := by
  have hnil : ∀ d ∈ ([] : List Delivery), Delivery.isFill d = true → s.Spent d :=
    fun _ hd => absurd hd List.not_mem_nil
  refine Runs.run_firsts ?_ ?_ ?_ ds [] s hnil
  · intro s d h
    cases d with
    | fill c fill => exact deliver_of_not_accepts h
    | cancel c now => exact h.elim
  · intro s d h
    cases d with
    | fill c fill => exact not_accepts_deliver
    | cancel c now => cases h
  · intro s d e h hd
    cases d with
    | cancel c now => cases h
    | fill c fill => exact fun ha => hd (ha.antitone (later_deliver e))

/-! ## Reused ids -/

/-- The recorded and the delivered value of each economic field. -/
def economicFields (row : FillRow) (fill : Fill) : List (ℚ × ℚ) :=
  [(row.filledQuantity, fill.filledQuantity), (row.filledPrice, fill.filledPrice),
    (row.spreadCostQuote, fill.spreadCostQuote), (row.slippageCostQuote, fill.slippageCostQuote),
    (row.feeCostQuote, fill.feeCostQuote), (row.fundingCostQuote, fill.fundingCostQuote)]

def Differs (row : FillRow) (fill : Fill) : Prop :=
  ∃ p ∈ economicFields row fill, p.1 ≠ p.2

/-- A valid delivery for the recorded order and time, each of whose economic fields is
within the tolerance of the recorded one. -/
def Indistinct (row : FillRow) (c : String) (fill : Fill) : Prop :=
  ∃ now, ValidFill fill now ∧ row.clientOrderId = c ∧ row.filledAtUtc = now ∧
    ∀ p ∈ economicFields row fill, isclose p.1 p.2 relTol absTol = true

/-- The delivery raises, and the contents stay. -/
def Refuses (s : PaperOrderStore) (c : String) (fill : Fill) : Prop :=
  (∃ e, s.applyFillResult c fill = .error e) ∧ s.deliver (.fill c fill) = s

theorem fillRowConflicts_eq_false {row : FillRow} {now : Instant} :
    fillRowConflicts row c fill now = false ↔ row.clientOrderId = c ∧ row.filledAtUtc = now ∧
      ∀ p ∈ economicFields row fill, isclose p.1 p.2 relTol absTol = true := by
  have hany : fillRowConflicts row c fill now = decide (row.clientOrderId ≠ c ∨
    row.filledAtUtc ≠ now ∨
      (economicFields row fill).any (fun p => !isclose p.1 p.2 relTol absTol) = true) := rfl
  rw [hany, decide_eq_false_iff_not, not_or, not_or, not_not, not_not, List.any_eq_true]
  simp only [Bool.not_eq_true', not_exists, not_and, Bool.not_eq_false]

/-- A reused id is refused exactly when the delivery can be told from the record. -/
theorem refuses_iff {row : FillRow} (hl : Ledgers s) (hrej : fill.rejected = false)
    (hrow : s.fills.find fill.fillId = some row) : s.Refuses c fill ↔ ¬ Indistinct row c fill := by
  have happ : s.applyFillResult c fill = s.recordFill c fill := by
    rw [applyFillResult, if_neg (by rw [hrej]; exact Bool.false_ne_true)]
  unfold Refuses
  rw [deliver_fill, happ]
  constructor
  · rintro ⟨⟨e, he⟩, -⟩ ⟨now, hv, hc, hnow, hclose⟩
    obtain ⟨o, ho⟩ := Option.ne_none_iff_exists'.mp (hl.owned row (Table.find_mem hrow))
    have hfetch : s.fetch c = some o.toRecord := fetch_eq_some.mpr ⟨o, hc ▸ ho, rfl⟩
    have hok := recordFill_eq_ok.mpr ⟨now, hv, .inl ⟨row, hrow,
      fillRowConflicts_eq_false.mpr ⟨hc, hnow, hclose⟩, hfetch, rfl⟩⟩
    rw [he] at hok
    cases hok
  · intro hind
    cases hr : s.recordFill c fill with
    | error e => exact ⟨⟨e, rfl⟩, rfl⟩
    | ok p =>
      obtain ⟨now, hv, ⟨row', hrow', hconf, -, -⟩ | ⟨_, _, hf, -, -, -⟩⟩ := recordFill_eq_ok.mp hr
      · rw [hrow] at hrow'
        cases hrow'
        obtain ⟨hc, hnow, hclose⟩ := fillRowConflicts_eq_false.mp hconf
        exact absurd ⟨now, hv, hc, hnow, hclose⟩ hind
      · rw [hf.1] at hrow
        cases hrow

end PaperOrderStore

/-- **Delivery of fills.** In the contents after any calls, redelivered fills have no
effect, and a fill that reuses a recorded id with another economic field is refused
exactly when it is not `Indistinct` from the record. -/
theorem fill_delivery (D : Digests) (ops : List PaperOp) :
    (∀ ds : List Delivery, Runs.run deliver (after D ops) ds =
        Runs.run deliver (after D ops) (Runs.firsts Delivery.isFill [] ds)) ∧
      ∀ c fill row, fill.rejected = false → (after D ops).fills.find fill.fillId = some row →
        Differs row fill → ((after D ops).Refuses c fill ↔ ¬ Indistinct row c fill) :=
  ⟨fun ds => (run_deliver_firsts _ ds).symm,
    fun _ _ _ hrej hrow _ => refuses_iff (ledgers_reachable ⟨ops, rfl⟩) hrej hrow⟩

/-- A buy of 1 at 100, filled without a fee. -/
def filledRun : List PaperOp :=
  let at0 : Datetime := .ofInstant 0
  [.beginOrder ⟨"a", "BTC", .buy, 1, 100, none⟩ at0, .markSubmitted "paper-a" at0,
    .applyFillResult "paper-a"
      { filledPrice := 100, filledQuantity := 1, filledAt := at0, fillId := "f" }]

/-- The same fill with a fee of `1e-13` is taken for a redelivery. -/
theorem near_fill_not_refused : ¬ ∀ (ops : List PaperOp) (c : String) (fill : Fill) (row : FillRow),
    fill.rejected = false → (after ⟨fun _ n => n, id⟩ ops).fills.find fill.fillId = some row →
      Differs row fill → (after ⟨fun _ n => n, id⟩ ops).Refuses c fill := by
  intro h
  let fill : Fill := { filledPrice := 100, filledQuantity := 1, filledAt := .ofInstant 0,
                       fillId := "f", feeCostQuote := 1 / 10 ^ 13 }
  let row : FillRow := ⟨"f", "paper-a", 1, 100, 0, 0, 0, 0, 0⟩
  have hrow : (after ⟨fun _ n => n, id⟩ filledRun).fills.find "f" = some row := by decide +kernel
  have hok : ((after ⟨fun _ n => n, id⟩ filledRun).applyFillResult "paper-a" fill).isOk = true := by
    decide +kernel
  have hfee : Differs row fill := ⟨(0, 1 / 10 ^ 13), by decide +kernel, by norm_num⟩
  obtain ⟨⟨e, he⟩, -⟩ := h filledRun "paper-a" fill row rfl hrow hfee
  rw [he] at hok
  cases hok

end Greenfield.Paper
