import Greenfield.Lib.CostBasis
import Greenfield.Paper.Accounting

/-!
# The position ledger

`_apply_fill_to_position` keeps one average cost book per symbol. While no fill that
crosses zero leaves a dust remainder (`NoDust`), the stored row is the book of the
symbol's trades, in the order they were recorded (`booked_reachable`), so the identity of
`CostBasis` holds of it.
-/

namespace Greenfield.Paper

open Keyed Py CostBasis PaperOrderStore

/-- The trade that the fill row `x` of the order `o` makes. -/
def FillRow.trade (x : FillRow) (o : OrderRow) : Trade ℚ :=
  ⟨signedDelta o.side x.filledQuantity, x.filledPrice⟩

def tradeIn (orders : Table OrderRow.clientOrderId) (symbol : String) (x : FillRow) :
    Option (Trade ℚ) :=
  (orders.find x.clientOrderId).bind fun o => if o.symbol = symbol then some (x.trade o) else none

/-- The trades in `symbol`, in the order their fills were recorded. -/
def tradesOf (s : PaperOrderStore) (symbol : String) : List (Trade ℚ) :=
  s.fills.rows.filterMap (tradeIn s.orders symbol)

/-- The columns that `_apply_fill_to_position` reads. -/
def PositionRow.columns (r : PositionRow) : ℚ × ℚ × ℚ :=
  (r.netQuantity, r.averagePrice, r.realizedPnlQuote)

def bookOf : Option (ℚ × ℚ × ℚ) → Book ℚ
  | none => .flat
  | some (net, average, realized) => ⟨net, average, realized⟩

/-- What `_apply_fill_to_position` calls `remainder`: the part of a fill beyond the holding. -/
def remainder (net quantity : ℚ) : ℚ := |quantity| - min |net| |quantity|

/-- A trade on the other side leaves no remainder, or one above the flat threshold. -/
def Undusted (net : ℚ) (t : Trade ℚ) : Prop :=
  (net = 0 ∨ (0 < net ↔ 0 < t.quantity)) ∨ remainder net t.quantity = 0 ∨
    1 / 10 ^ 12 < remainder net t.quantity

instance (net : ℚ) (t : Trade ℚ) : Decidable (Undusted net t) := by
  unfold Undusted; infer_instance

/-- No trade of the sequence, from a net quantity of `net`, leaves dust. -/
def NoDust : ℚ → List (Trade ℚ) → Prop
  | _, [] => True
  | net, t :: ts => Undusted net t ∧ NoDust (net + t.quantity) ts

instance decidableNoDust : ∀ (net : ℚ) (ts : List (Trade ℚ)), Decidable (NoDust net ts)
  | _, [] => isTrue trivial
  | net, t :: ts =>
    haveI := decidableNoDust (net + t.quantity) ts
    inferInstanceAs (Decidable (Undusted net t ∧ NoDust (net + t.quantity) ts))

theorem noDust_append (t : Trade ℚ) : ∀ (net : ℚ) (ts : List (Trade ℚ)),
    NoDust net (ts ++ [t]) ↔ NoDust net ts ∧ Undusted (net + volume ts) t
  | net, [] => by simp [NoDust, volume]
  | net, u :: ts => by
    have hv : volume (u :: ts) = u.quantity + volume ts := by simp [volume]
    rw [List.cons_append, NoDust, NoDust, noDust_append t (net + u.quantity) ts, hv, and_assoc,
      add_assoc]

/-! ## One fill -/

variable {net d : ℚ}

/-- The remainder is what the fill exceeds the holding by. -/
theorem abs_le_of_remainder (h : remainder net d = 0) : |d| ≤ |net| := by
  unfold remainder at h
  have : |d| = min |net| |d| := by linarith
  rw [this]
  exact min_le_left _ _

theorem lt_of_remainder_pos (h : 0 < remainder net d) : |net| < |d| := by
  unfold remainder at h
  by_contra hle
  rw [min_eq_right (not_lt.mp hle)] at h
  linarith

/-- What closing `x` against a holding on the other side realises. -/
theorem closing_eq (hn : net ≠ 0) (hs : ¬ (0 < net ↔ 0 < d)) :
    (|d| ≤ |net| → min |net| |d| * (if 0 < net then 1 else -1) = -d) ∧
      (|net| < |d| → min |net| |d| * (if 0 < net then 1 else -1) = net) := by
  rcases lt_or_gt_of_ne hn with hneg | hpos
  · have hd : 0 < d := by
      by_contra hd
      exact hs ⟨fun h => absurd h hneg.not_gt, fun h => absurd h hd⟩
    rw [if_neg hneg.not_gt, abs_of_neg hneg, abs_of_pos hd]
    refine ⟨fun h => ?_, fun h => ?_⟩
    · rw [min_eq_right h]; ring
    · rw [min_eq_left h.le]; ring
  · have hd : d ≤ 0 := by
      by_contra hd
      exact hs ⟨fun _ => not_le.mp hd, fun _ => hpos⟩
    rw [if_pos hpos, abs_of_pos hpos, abs_of_nonpos hd]
    refine ⟨fun h => ?_, fun h => ?_⟩
    · rw [min_eq_right h]; ring
    · rw [min_eq_left h.le]; ring

/-- **The source's update is the average cost book's.** -/
theorem bookOf_positionAfter {row : Option (ℚ × ℚ × ℚ)} {d price : ℚ} (hd : d ≠ 0)
    (hu : Undusted (bookOf row).net ⟨d, price⟩) :
    bookOf (some (positionAfter row d price)) = (bookOf row).trade ⟨d, price⟩ := by
  have hd' : |d| ≠ 0 := abs_ne_zero.mpr hd
  cases row with
  | none =>
    simp [positionAfter, bookOf, Book.trade, Book.Joins, Book.increase, Book.flat, hd']
  | some r =>
    obtain ⟨net, average, realized⟩ := r
    simp only [bookOf] at hu ⊢
    by_cases hj : net = 0 ∨ (0 < net ↔ 0 < d)
    · -- The new quantity is not zero: the two have one sign.
      have hne : net + d ≠ 0 := by
        rintro h
        rcases hj with h0 | hs
        · exact hd (by linarith)
        · rcases lt_or_gt_of_ne hd with hlt | hgt
          · exact absurd (hs.mp (by linarith)) hlt.not_gt
          · exact absurd (hs.mpr hgt) (by linarith)
      have hj' : (⟨net, average, realized⟩ : Book ℚ).Joins ⟨d, price⟩ := hj
      simp only [positionAfter, if_pos hj, if_pos hne, Book.trade, if_pos hj', Book.increase]
    · have hj' : ¬ (⟨net, average, realized⟩ : Book ℚ).Joins ⟨d, price⟩ := hj
      obtain ⟨hn, hs⟩ := not_or.mp hj
      obtain ⟨hle, hlt⟩ := closing_eq hn hs
      simp only [positionAfter, if_neg hj, Book.trade, if_neg hj']
      rcases hu with hu | hzero | hbig
      · exact absurd hu hj
      · have h : |d| ≤ |net| := abs_le_of_remainder hzero
        have hsmall : ¬ |d| - min |net| |d| > 1 / 10 ^ 12 := by
          have hzero : |d| - min |net| |d| = 0 := hzero
          rw [hzero]
          norm_num
        rw [if_pos h, if_neg hsmall, Book.reduce]
        simp only [Book.mk.injEq, true_and]
        linear_combination (price - average) * hle h
      · have hbig : |d| - min |net| |d| > 1 / 10 ^ 12 := hbig
        have h : |net| < |d| := lt_of_remainder_pos (lt_trans (by norm_num) hbig)
        rw [if_neg (not_le.mpr h), if_pos hbig, Book.reverse]
        simp only [Book.mk.injEq, true_and]
        linear_combination (price - average) * hlt h

/-! ## The invariant -/

/-- The stored row of `symbol` is the book of its trades. -/
def Booked (s : PaperOrderStore) (symbol : String) : Prop :=
  (s.positions.find symbol = none → tradesOf s symbol = []) ∧
    (NoDust 0 (tradesOf s symbol) →
      bookOf ((s.positions.find symbol).map PositionRow.columns) =
        Book.flat.trades (tradesOf s symbol))

structure Positions (s : PaperOrderStore) : Prop where
  owned : ∀ x ∈ s.fills.rows, s.orders.find x.clientOrderId ≠ none
  positive : ∀ x ∈ s.fills.rows, 0 < x.filledQuantity
  booked : ∀ symbol, Booked s symbol

variable {s s' : PaperOrderStore} {symbol : String}

theorem positions_empty : Positions .empty :=
  ⟨nofun, nofun, fun _ => ⟨fun _ => rfl, fun _ => rfl⟩⟩

theorem signedDelta_ne_zero {side : IntentSide} {q : ℚ} (h : 0 < q) : signedDelta side q ≠ 0 := by
  unfold signedDelta
  split
  · exact ne_of_gt h
  · exact neg_ne_zero.mpr (ne_of_gt h)

/-- Every trade of a symbol has a quantity. -/
theorem Positions.quantity_ne_zero (h : Positions s) {t : Trade ℚ} (ht : t ∈ tradesOf s symbol) :
    t.quantity ≠ 0 := by
  obtain ⟨x, hx, ht⟩ := List.mem_filterMap.mp ht
  obtain ⟨o, -, ht⟩ := Option.bind_eq_some_iff.mp ht
  split at ht
  · cases ht
    exact signedDelta_ne_zero (h.positive x hx)
  · cases ht

/-- What a change of `orders` keeps of the trades of the recorded fills. -/
theorem tradesOf_congr (h : Positions s) (hfills : s'.fills = s.fills)
    (horders : ∀ c o, s.orders.find c = some o →
      ∃ o', s'.orders.find c = some o' ∧ o'.symbol = o.symbol ∧ o'.side = o.side) :
    tradesOf s' symbol = tradesOf s symbol := by
  unfold tradesOf
  rw [hfills]
  refine List.filterMap_congr fun x hx => ?_
  obtain ⟨o, ho⟩ := Option.ne_none_iff_exists'.mp (h.owned x hx)
  obtain ⟨o', ho', hsym, hside⟩ := horders _ o ho
  simp only [tradeIn, ho, ho', Option.bind_some, hsym, FillRow.trade, hside]

/-- Fills and positions that stay, over orders that keep symbol and side, stay booked. -/
theorem Positions.of_orders (h : Positions s) (hfills : s'.fills = s.fills)
    (hpos : s'.positions = s.positions)
    (horders : ∀ c o, s.orders.find c = some o →
      ∃ o', s'.orders.find c = some o' ∧ o'.symbol = o.symbol ∧ o'.side = o.side) :
    Positions s' where
  owned x hx := by
    rw [hfills] at hx
    obtain ⟨o, ho⟩ := Option.ne_none_iff_exists'.mp (h.owned x hx)
    obtain ⟨o', ho', -, -⟩ := horders _ o ho
    rw [ho']
    intro h; cases h
  positive x hx := h.positive x (hfills ▸ hx)
  booked symbol := by
    rw [Booked, tradesOf_congr h hfills horders, hpos]
    exact h.booked symbol

variable {c : String}

theorem find_updateOrder_frame {f : OrderRow → OrderRow}
    {hf : ∀ r, (f r).clientOrderId = r.clientOrderId} (hsym : ∀ r, (f r).symbol = r.symbol)
    (hside : ∀ r, (f r).side = r.side) (k : String) (o : OrderRow) (ho : s.orders.find k = some o) :
    ∃ o', (s.updateOrder c f hf).orders.find k = some o' ∧ o'.symbol = o.symbol ∧
      o'.side = o.side := by
  rw [find_updateOrder]
  split
  · next e =>
    subst e
    rw [ho]
    exact ⟨f o, rfl, hsym o, hside o⟩
  · exact ⟨o, ho, rfl, rfl⟩

variable {fills : Table FillRow.fillId} {o : OrderRow}

/-- A fill appends its trade to its order's symbol and to no other. -/
theorem tradesOf_fillStore {fill : Fill} {now : Instant}
    (h : Positions s) (ho : s.orders.find c = some o)
    (hi : s.fills.insert (newFill c fill now) = some fills) :
    tradesOf (s.fillStore c fill now o fills) symbol = tradesOf s symbol ++
      if o.symbol = symbol then [⟨signedDelta o.side fill.filledQuantity, fill.filledPrice⟩]
      else [] := by
  obtain ⟨-, hrows⟩ := Table.insert_eq_some.mp hi
  let u := s.updateOrder c (fillOrder o.toRecord fill now) (fillOrder_key _ fill now)
  have hold : s.fills.rows.filterMap (tradeIn u.orders symbol) = tradesOf s symbol :=
    show tradesOf u symbol = tradesOf s symbol from
      tradesOf_congr h rfl (find_updateOrder_frame (fun _ => rfl) fun _ => rfl)
  have hnew : u.orders.find c = some (fillOrder o.toRecord fill now o) := by
    rw [find_updateOrder, if_pos rfl, ho]; rfl
  change fills.rows.filterMap (tradeIn u.orders symbol) = _
  rw [hrows, List.filterMap_append, hold]
  congr 1
  have hfind : u.orders.find (newFill c fill now).clientOrderId =
    some (fillOrder o.toRecord fill now o) := hnew
  simp only [List.filterMap_cons, List.filterMap_nil, tradeIn, hfind, Option.bind_some]
  by_cases e : o.symbol = symbol
  · rw [if_pos e, if_pos (show (fillOrder o.toRecord fill now o).symbol = symbol from e)]; rfl
  · rw [if_neg e, if_neg (show (fillOrder o.toRecord fill now o).symbol ≠ symbol from e)]

theorem find_applyFillToPosition {positions : Table PositionRow.symbol} {side : IntentSide}
    {q p : ℚ} {now : Instant} {k : String} :
    ((applyFillToPosition positions symbol side q p now).find k).map PositionRow.columns =
      if k = symbol then
        some (positionAfter ((positions.find symbol).map PositionRow.columns) (signedDelta side q) p)
      else (positions.find k).map PositionRow.columns := by
  unfold applyFillToPosition
  rw [Table.find_upsert]
  split
  · rfl
  · rfl

/-- The applied fill keeps every symbol booked. -/
theorem Booked.fill {fill : Fill} {now : Instant}
    (h : Positions s) (hq : 0 < fill.filledQuantity)
    (ho : s.orders.find c = some o) (hi : s.fills.insert (newFill c fill now) = some fills) :
    Booked (s.fillStore c fill now o fills) symbol := by
  have hpos := @find_applyFillToPosition o.symbol s.positions o.side fill.filledQuantity
    fill.filledPrice now symbol
  have hb := h.booked symbol
  unfold Booked
  rw [tradesOf_fillStore h ho hi]
  change ((applyFillToPosition _ _ _ _ _ _).find symbol = none → _) ∧ (_ →
    bookOf (((applyFillToPosition _ _ _ _ _ _).find symbol).map _) = _)
  rw [hpos]
  by_cases e : o.symbol = symbol
  · subst e
    rw [if_pos rfl] at hpos ⊢
    rw [if_pos rfl]
    constructor
    · intro hn
      rw [hn] at hpos
      cases hpos
    · intro hd
      rw [noDust_append, zero_add] at hd
      have hbook := hb.2 hd.1
      have hnet : (bookOf ((s.positions.find o.symbol).map PositionRow.columns)).net =
          volume (tradesOf s o.symbol) := by
        rw [hbook]
        simpa using (Book.balances_flat.trades (tradesOf s o.symbol)
          fun t ht => h.quantity_ne_zero ht).net
      rw [bookOf_positionAfter (signedDelta_ne_zero hq) (hnet ▸ hd.2), hbook, Book.trades_append]
      rfl
  · have e' : symbol ≠ o.symbol := fun h => e h.symm
    rw [if_neg e'] at hpos ⊢
    rw [if_neg e, List.append_nil]
    refine ⟨fun hn => hb.1 ?_, hb.2⟩
    rw [hn] at hpos
    cases hp : s.positions.find symbol with
    | none => rfl
    | some p => rw [hp] at hpos; cases hpos

theorem positions_change (hc : Change s s') (h : Positions s) : Positions s' := by
  cases hc with
  | submit ho hst => exact h.of_orders rfl rfl (find_updateOrder_frame (fun _ => rfl) fun _ => rfl)
  | cancel ho hst => exact h.of_orders rfl rfl (find_updateOrder_frame (fun _ => rfl) fun _ => rfl)
  | reject ho hst => exact h.of_orders rfl rfl (find_updateOrder_frame (fun _ => rfl) fun _ => rfl)
  | @begin req c now orders hq hn hi =>
    refine h.of_orders rfl rfl fun k o ho => ⟨o, ?_, rfl, rfl⟩
    rw [Table.find_insert hi, newOrder_key, if_neg]
    · exact ho
    · rintro rfl
      rw [hn] at ho
      cases ho
  | @fill c fill now o fills hv hf hi =>
    obtain ⟨-, ho, -, -⟩ := hf
    obtain ⟨-, hrows⟩ := Table.insert_eq_some.mp hi
    refine ⟨fun x hx => ?_, fun x hx => ?_, fun symbol => .fill h hv.2.1 ho hi⟩
    · change x ∈ fills.rows at hx
      rw [find_fillStore]
      split
      · rw [ho]; intro h; cases h
      · next hne =>
        rw [hrows, List.mem_append, List.mem_singleton] at hx
        rcases hx with hx | rfl
        · exact h.owned x hx
        · exact absurd rfl hne
    · change x ∈ fills.rows at hx
      rw [hrows, List.mem_append, List.mem_singleton] at hx
      rcases hx with hx | rfl
      · exact h.positive x hx
      · exact hv.2.1

theorem positions_reachable {D : Digests} (h : s.Reachable D) : Positions s :=
  Reachable.invariant positions_empty positions_change h

/-! ## Every run -/

/-- The entry price of a position: none is held when it is flat. -/
def PositionRow.entryPrice (r : PositionRow) : ℚ := if r.netQuantity = 0 then 0 else r.averagePrice

/-- The row of `symbol` carries the net quantity and the profit of its trades. -/
def LedgerIdentity (s : PaperOrderStore) (symbol : String) : Prop :=
  match s.positions.find symbol with
  | none => tradesOf s symbol = []
  | some row => row.netQuantity = volume (tradesOf s symbol) ∧
      row.realizedPnlQuote = row.netQuantity * row.entryPrice - paid (tradesOf s symbol)

theorem Positions.ledgerIdentity (h : Positions s) (hd : NoDust 0 (tradesOf s symbol)) :
    LedgerIdentity s symbol := by
  have hb := h.booked symbol
  have hbal := Book.balances_flat.trades (tradesOf s symbol) fun t ht => h.quantity_ne_zero ht
  rw [← hb.2 hd, List.nil_append] at hbal
  unfold LedgerIdentity
  cases hp : s.positions.find symbol with
  | none => exact hb.1 hp
  | some row =>
    rw [hp] at hbal
    refine ⟨hbal.net, ?_⟩
    have hr : row.realizedPnlQuote = row.netQuantity * row.averagePrice - paid _ := hbal.realized
    unfold PositionRow.entryPrice
    split
    · next h0 => rw [hr, h0, zero_mul, zero_mul]
    · exact hr

theorem LedgerIdentity.of_flat {row : PositionRow} (h : LedgerIdentity s symbol)
    (hp : s.positions.find symbol = some row) (hflat : row.netQuantity = 0) :
    row.realizedPnlQuote = -paid (tradesOf s symbol) := by
  simp only [LedgerIdentity, hp] at h
  rw [h.2, hflat, zero_mul, zero_sub]

/-- **The position ledger.** After any calls, the row of a symbol whose fills leave no dust
satisfies the identity. When it is flat, its profit is that of any other flat row, of this
or another run, that was made by the same fills in another order. -/
theorem position_ledger (D : Digests) (ops : List PaperOp) (symbol : String)
    (hd : NoDust 0 (tradesOf (after D ops) symbol)) :
    LedgerIdentity (after D ops) symbol ∧
      ∀ (ops' : List PaperOp) (symbol' : String), NoDust 0 (tradesOf (after D ops') symbol') →
        (tradesOf (after D ops') symbol').Perm (tradesOf (after D ops) symbol) →
        ∀ row row', (after D ops).positions.find symbol = some row →
          (after D ops').positions.find symbol' = some row' → row.netQuantity = 0 →
          row'.netQuantity = 0 ∧ row'.realizedPnlQuote = row.realizedPnlQuote := by
  have hid : LedgerIdentity (after D ops) symbol :=
    (positions_reachable ⟨ops, rfl⟩).ledgerIdentity hd
  refine ⟨hid, fun ops' symbol' hd' hperm row row' hp hp' hflat => ?_⟩
  have hid' : LedgerIdentity (after D ops') symbol' :=
    (positions_reachable ⟨ops', rfl⟩).ledgerIdentity hd'
  have hnet : row'.netQuantity = row.netQuantity := by
    have h := hid
    have h' := hid'
    simp only [LedgerIdentity, hp, hp'] at h h'
    rw [h.1, h'.1, volume_perm hperm]
  have hflat' : row'.netQuantity = 0 := hnet.trans hflat
  exact ⟨hflat', by rw [hid'.of_flat hp' hflat', hid.of_flat hp hflat, paid_perm hperm]⟩

/-- A buy of 2 at 100 that a sell of 3 at 110 turns into a short of 1. -/
def flipRun : List PaperOp :=
  let at0 : Datetime := .ofInstant 0
  [.beginOrder ⟨"a", "BTC", .buy, 2, 100, none⟩ at0, .markSubmitted "paper-a" at0,
    .applyFillResult "paper-a" { filledPrice := 100, filledQuantity := 2, filledAt := at0, fillId := "f" },
    .beginOrder ⟨"b", "BTC", .sell, 3, 110, none⟩ at0, .markSubmitted "paper-b" at0,
    .applyFillResult "paper-b" { filledPrice := 110, filledQuantity := 3, filledAt := at0, fillId := "g" }]

theorem position_ledger_flip :
    LedgerIdentity (after ⟨fun _ n => n, id⟩ flipRun) "BTC" ∧
      tradesOf (after ⟨fun _ n => n, id⟩ flipRun) "BTC" = [⟨2, 100⟩, ⟨-3, 110⟩] :=
  ⟨(position_ledger ⟨fun _ n => n, id⟩ flipRun "BTC" (by decide +kernel)).1, by decide +kernel⟩

end Greenfield.Paper
