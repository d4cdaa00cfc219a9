import Greenfield.Py.Basic
import Mathlib.Algebra.Order.Field.Rat
import Mathlib.Data.Rat.Defs
import Mathlib.Tactic.FieldSimp
import Mathlib.Tactic.LinearCombination
import Mathlib.Tactic.Linarith
import Mathlib.Tactic.Ring

/-!
# Triple barriers

`triple_barrier_outcome` of `src/ml/labels.py`. The walk over the future bars stops at the first one
that touches a barrier (`walk_spec`), so nothing after it counts, and a path that is reflected about
the entry gives the opposite side the same return (`tripleBarrierOutcome_isFirstPassage`).
-/

namespace Greenfield.Ml

open Py

inductive MlError where
  | valueError (msg : String)
  | indexError (msg : String)
  | zeroDivisionError (msg : String)
  deriving DecidableEq

structure Kline where
  timestamp : ℤ
  openPrice : ℚ
  high : ℚ
  low : ℚ
  close : ℚ
  volume : ℚ
  deriving DecidableEq

inductive Barrier where
  | vertical
  | stopLoss
  | profitTake
  deriving DecidableEq

structure TripleBarrierOutcome where
  label : ℕ
  labelEndTime : ℤ
  exitPrice : ℚ
  grossReturn : ℚ
  barrier : Barrier
  deriving DecidableEq

/-- The arguments of a call beside the frame. -/
structure BarrierArgs where
  index : ℤ
  side : ℤ
  atr : ℚ
  horizonBars : ℤ
  profitTakeAtr : ℚ := 2
  stopLossAtr : ℚ := 1
  labelCostReturn : ℚ := 0

/-- The bar reaches the price against the side. -/
def stopHit (side : ℤ) (stopPrice : ℚ) (bar : Kline) : Bool :=
  if side = 1 then bar.low ≤ stopPrice else stopPrice ≤ bar.high

/-- The bar reaches the price of the side. -/
def profitHit (side : ℤ) (profitPrice : ℚ) (bar : Kline) : Bool :=
  if side = 1 then profitPrice ≤ bar.high else bar.low ≤ profitPrice

/-- Where a walk ends, and with which barrier. -/
structure Exit where
  bar : Kline
  price : ℚ
  barrier : Barrier

/-- The loop over the future bars, from `vertical` where none of them touches a barrier. -/
def walk (side : ℤ) (stopPrice profitPrice : ℚ) (vertical : Exit) : List Kline → Exit
  | [] => vertical
  | bar :: rest =>
    if stopHit side stopPrice bar then ⟨bar, stopPrice, .stopLoss⟩
    else if profitHit side profitPrice bar then ⟨bar, profitPrice, .profitTake⟩
    else walk side stopPrice profitPrice vertical rest

/-- `df.iloc[i]`. -/
def iloc (df : List Kline) (i : ℕ) : Except MlError Kline :=
  df[i]?.elim (.error (.indexError "single positional indexer is out-of-bounds")) .ok

/-- `entry + side * profit_take_atr * atr`. -/
def BarrierArgs.profitPrice (args : BarrierArgs) (entry : ℚ) : ℚ :=
  entry + args.side * args.profitTakeAtr * args.atr

/-- `entry - side * stop_loss_atr * atr`. -/
def BarrierArgs.stopPrice (args : BarrierArgs) (entry : ℚ) : ℚ :=
  entry - args.side * args.stopLossAtr * args.atr

/-- The walk from an entry over the bars of the horizon. -/
def BarrierArgs.exit (args : BarrierArgs) (df : List Kline) (entry : ℚ) (last : Kline) : Exit :=
  walk args.side (args.stopPrice entry) (args.profitPrice entry) ⟨last, last.close, .vertical⟩
    ((df.drop (args.index.toNat + 1)).take args.horizonBars.toNat)

/-- The outcome of an exit. -/
def BarrierArgs.outcome (args : BarrierArgs) (entry : ℚ) (exit : Exit) : TripleBarrierOutcome :=
  let grossReturn := args.side * (exit.price / entry - 1)
  { label := if 0 < grossReturn - args.labelCostReturn then 1 else 0
    labelEndTime := exit.bar.timestamp
    exitPrice := exit.price
    grossReturn
    barrier := exit.barrier }

/-- `triple_barrier_outcome`. -/
def tripleBarrierOutcome (df : List Kline) (args : BarrierArgs) :
    Except MlError TripleBarrierOutcome :=
  if ¬ (args.side = -1 ∨ args.side = 1) then .error (.valueError "side must be -1 or 1")
  else if args.index < 0 ∨ df.length ≤ args.index then
    .error (.indexError "index outside triple barrier frame")
  else if args.horizonBars < 1 ∨ df.length ≤ args.index + args.horizonBars then
    .error (.valueError "triple barrier requires a complete positive horizon")
  else if args.atr ≤ 0 then .error (.valueError "atr must be finite and positive")
  else if args.profitTakeAtr ≤ 0 ∨ args.stopLossAtr ≤ 0 ∨ args.labelCostReturn < 0 then
    .error (.valueError "barrier multiples must be positive and label cost non-negative")
  else do
    let first ← iloc df args.index.toNat
    if first.close ≤ 0 then .error (.valueError "entry close must be finite and positive")
    else if min (args.profitPrice first.close) (args.stopPrice first.close) ≤ 0 then
      .error (.valueError "barrier price must remain positive")
    else do
      let last ← iloc df (args.index + args.horizonBars).toNat
      return args.outcome first.close (args.exit df first.close last)

/-! ## What is accepted -/

/-- The checks of a call, with the entry bar. -/
structure Accepted (df : List Kline) (args : BarrierArgs) (first : Kline) : Prop where
  side : args.side = -1 ∨ args.side = 1
  index : 0 ≤ args.index
  horizon : 1 ≤ args.horizonBars
  complete : args.index + args.horizonBars < df.length
  atr : 0 < args.atr
  profitTake : 0 < args.profitTakeAtr
  stopLoss : 0 < args.stopLossAtr
  cost : 0 ≤ args.labelCostReturn
  opening : df[args.index.toNat]? = some first
  entry : 0 < first.close
  profitPrice : 0 < args.profitPrice first.close
  stopPrice : 0 < args.stopPrice first.close

variable {df : List Kline} {args : BarrierArgs} {out : TripleBarrierOutcome}

variable {bar : Kline}

theorem iloc_eq {i : ℕ} (h : df[i]? = some bar) : iloc df i = .ok bar := by
  unfold iloc
  rw [h]
  rfl

theorem Accepted.last {first : Kline} (h : Accepted df args first) :
    ∃ last, df[(args.index + args.horizonBars).toNat]? = some last := by
  have := h.complete
  have := h.index
  have := h.horizon
  exact ⟨_, List.getElem?_eq_getElem (by omega)⟩

/-- **A call** is accepted exactly with these checks. -/
theorem tripleBarrierOutcome_ok : tripleBarrierOutcome df args = .ok out ↔
    ∃ first last, Accepted df args first ∧
      df[(args.index + args.horizonBars).toNat]? = some last ∧
        out = args.outcome first.close (args.exit df first.close last) := by
  constructor
  · intro h
    unfold tripleBarrierOutcome at h
    split_ifs at h with hside hindex hhorizon hatr hbarriers
    push Not at hindex hhorizon hatr hbarriers
    obtain ⟨hprofit, hstop, hcost⟩ := hbarriers
    have hfirst := List.getElem?_eq_getElem (show args.index.toNat < df.length by omega)
    rw [iloc_eq hfirst, show ∀ (bar : Kline) (f : Kline → Except MlError TripleBarrierOutcome),
      (Except.ok bar >>= f) = f bar from fun _ _ => rfl] at h
    split_ifs at h with hentry hprices
    rw [not_le, lt_min_iff] at hprices
    have haccepted : Accepted df args df[args.index.toNat] :=
      ⟨hside, hindex.1, hhorizon.1, hhorizon.2, hatr, hprofit, hstop, hcost, hfirst,
        not_le.mp hentry, hprices.1, hprices.2⟩
    obtain ⟨last, hlast⟩ := haccepted.last
    rw [iloc_eq hlast] at h
    cases h
    exact ⟨_, last, haccepted, hlast, rfl⟩
  · rintro ⟨first, last, h, hlast, rfl⟩
    have := h.index
    have := h.complete
    have := h.horizon
    have hprices : ¬ min (args.profitPrice first.close) (args.stopPrice first.close) ≤ 0 := by
      rw [not_le, lt_min_iff]
      exact ⟨h.profitPrice, h.stopPrice⟩
    have hbarriers : ¬ (args.profitTakeAtr ≤ 0 ∨ args.stopLossAtr ≤ 0 ∨ args.labelCostReturn < 0) := by
      push Not
      exact ⟨h.profitTake, h.stopLoss, h.cost⟩
    unfold tripleBarrierOutcome
    rw [if_neg (not_not.mpr h.side), if_neg (by omega), if_neg (by omega), if_neg h.atr.not_ge,
      if_neg hbarriers, iloc_eq h.opening]
    show (if first.close ≤ 0 then _ else _) = _
    rw [if_neg h.entry.not_ge, if_neg hprices, iloc_eq hlast]
    rfl

/-! ## The first passage -/

/-- The exit at a bar that touches a barrier. Where it touches both, the stop wins. -/
def touch (side : ℤ) (stopPrice profitPrice : ℚ) (bar : Kline) : Option Exit :=
  if stopHit side stopPrice bar then some ⟨bar, stopPrice, .stopLoss⟩
  else if profitHit side profitPrice bar then some ⟨bar, profitPrice, .profitTake⟩
  else none

theorem walk_eq (side : ℤ) (stopPrice profitPrice : ℚ) (vertical : Exit) (bars : List Kline) :
    walk side stopPrice profitPrice vertical bars =
      (bars.findSome? (touch side stopPrice profitPrice)).getD vertical := by
  induction bars with
  | nil => rfl
  | cons bar rest ih =>
    rw [walk, List.findSome?_cons]
    unfold touch
    split
    · rfl
    · split
      · rfl
      · exact ih

/-- What the bar of an exit is. -/
inductive IsExit (side : ℤ) (stopPrice profitPrice : ℚ) (bar : Kline) : Exit → Prop where
  | stopLoss (h : stopHit side stopPrice bar = true) :
      IsExit side stopPrice profitPrice bar ⟨bar, stopPrice, .stopLoss⟩
  | profitTake (hstop : stopHit side stopPrice bar = false)
      (h : profitHit side profitPrice bar = true) :
      IsExit side stopPrice profitPrice bar ⟨bar, profitPrice, .profitTake⟩
  | vertical (hstop : stopHit side stopPrice bar = false)
      (hprofit : profitHit side profitPrice bar = false) :
      IsExit side stopPrice profitPrice bar ⟨bar, bar.close, .vertical⟩

variable {side : ℤ} {stopPrice profitPrice : ℚ} {exit : Exit}

theorem IsExit.bar_eq
    (h : IsExit side stopPrice profitPrice bar exit) : exit.bar = bar := by
  cases h with
  | stopLoss => rfl
  | profitTake => rfl
  | vertical => rfl

theorem touch_some
    (h : touch side stopPrice profitPrice bar = some exit) :
    IsExit side stopPrice profitPrice bar exit ∧ exit.barrier ≠ .vertical := by
  unfold touch at h
  split at h
  · next hstop =>
    cases h
    exact ⟨.stopLoss hstop, by simp⟩
  · next hstop =>
    split at h
    · next hprofit =>
      cases h
      exact ⟨.profitTake (Bool.eq_false_iff.mpr hstop) hprofit, by simp⟩
    · cases h

theorem touch_none :
    touch side stopPrice profitPrice bar = none ↔
      stopHit side stopPrice bar = false ∧ profitHit side profitPrice bar = false := by
  unfold touch
  cases stopHit side stopPrice bar with
  | true => simp
  | false =>
    cases profitHit side profitPrice bar with
    | true => simp
    | false => simp

/-- The exit bar of an outcome: no bar before it touches a barrier, and it does, or ends the
horizon. -/
structure IsFirstPassage (df : List Kline) (args : BarrierArgs) (entry : ℚ) (exitIndex : ℕ)
    (exit : Exit) : Prop where
  after : args.index < exitIndex
  within : exitIndex ≤ args.index + args.horizonBars
  untouched : ∀ j : ℕ, args.index < j → j < exitIndex → ∀ bar, df[j]? = some bar →
    stopHit args.side (args.stopPrice entry) bar = false ∧
      profitHit args.side (args.profitPrice entry) bar = false
  bar : ∃ bar, df[exitIndex]? = some bar ∧
    IsExit args.side (args.stopPrice entry) (args.profitPrice entry) bar exit
  vertical : exit.barrier = .vertical → exitIndex = args.index + args.horizonBars

variable (df) in
/-- The future bars of an entry. -/
theorem future_getElem {k : ℕ} (hk : k < args.horizonBars.toNat) :
    ((df.drop (args.index.toNat + 1)).take args.horizonBars.toNat)[k]? =
      df[args.index.toNat + 1 + k]? := by
  rw [List.getElem?_take_of_lt hk, List.getElem?_drop]

/-- **The walk ends at the first passage.** -/
theorem exit_isFirstPassage {first last : Kline} (h : Accepted df args first)
    (hlast : df[(args.index + args.horizonBars).toNat]? = some last) :
    ∃ exitIndex, IsFirstPassage df args first.close exitIndex (args.exit df first.close last) := by
  have hindex := h.index
  have hhorizon := h.horizon
  have hcomplete := h.complete
  have hlength : ((df.drop (args.index.toNat + 1)).take args.horizonBars.toNat).length =
      args.horizonBars.toNat := by
    rw [List.length_take, List.length_drop]
    omega
  unfold BarrierArgs.exit
  rw [walk_eq]
  cases hfind : ((df.drop (args.index.toNat + 1)).take args.horizonBars.toNat).findSome?
      (touch args.side (args.stopPrice first.close) (args.profitPrice first.close)) with
  | none =>
    rw [List.findSome?_eq_none_iff] at hfind
    have hnone : ∀ j : ℕ, args.index < j → j ≤ args.index + args.horizonBars → ∀ bar,
        df[j]? = some bar → stopHit args.side (args.stopPrice first.close) bar = false ∧
          profitHit args.side (args.profitPrice first.close) bar = false := by
      intro j hfrom hto bar hbar
      refine touch_none.mp (hfind bar (List.mem_iff_getElem?.mpr ⟨j - (args.index.toNat + 1), ?_⟩))
      rw [future_getElem _ (by omega), show args.index.toNat + 1 + (j - (args.index.toNat + 1)) = j by
        omega]
      exact hbar
    have hlastNone := hnone _ (by omega) (by omega) last hlast
    refine ⟨(args.index + args.horizonBars).toNat, by omega, by omega, ?_, ?_, fun _ => by omega⟩
    · exact fun j hfrom hto => hnone j hfrom (by omega)
    · exact ⟨last, hlast, .vertical hlastNone.1 hlastNone.2⟩
  | some exit =>
    obtain ⟨before, bar, after, hsplit, htouch, hbefore⟩ := List.findSome?_eq_some_iff.mp hfind
    obtain ⟨hexit, hbarrier⟩ := touch_some htouch
    have hbound : before.length < args.horizonBars.toNat := by
      rw [← hlength, hsplit, List.length_append, List.length_cons]
      omega
    have hat := future_getElem df hbound
    rw [hsplit, List.getElem?_append_right le_rfl, Nat.sub_self] at hat
    refine ⟨args.index.toNat + 1 + before.length, by omega, by omega, ?_, ⟨bar, hat.symm, hexit⟩,
      fun hvertical => absurd hvertical hbarrier⟩
    intro j hfrom hto earlier hearlier
    refine touch_none.mp (hbefore earlier (List.mem_iff_getElem?.mpr
      ⟨j - (args.index.toNat + 1), ?_⟩))
    have hj := future_getElem df (show j - (args.index.toNat + 1) < args.horizonBars.toNat by omega)
    rw [hsplit, List.getElem?_append_left (by omega),
      show args.index.toNat + 1 + (j - (args.index.toNat + 1)) = j by omega] at hj
    rw [hj]
    exact hearlier

/-! ## Bars that do not count -/

variable {exit exit' : Exit}

theorem IsExit.unique
    (h : IsExit side stopPrice profitPrice bar exit)
    (h' : IsExit side stopPrice profitPrice bar exit') : exit = exit' := by
  cases h with
  | stopLoss hstop =>
    cases h' with
    | stopLoss => rfl
    | profitTake hnone => rw [hstop] at hnone; cases hnone
    | vertical hnone => rw [hstop] at hnone; cases hnone
  | profitTake hstop hprofit =>
    cases h' with
    | stopLoss hhit => rw [hstop] at hhit; cases hhit
    | profitTake => rfl
    | vertical _ hnone => rw [hprofit] at hnone; cases hnone
  | vertical hstop hprofit =>
    cases h' with
    | stopLoss hhit => rw [hstop] at hhit; cases hhit
    | profitTake _ hhit => rw [hprofit] at hhit; cases hhit
    | vertical => rfl

variable {entry : ℚ}

variable {df' : List Kline}

/-- An exit before another one would be at a bar that does not touch. -/
theorem IsFirstPassage.not_before {e e' : ℕ}
    (h : IsFirstPassage df args entry e exit) (h' : IsFirstPassage df' args entry e' exit')
    (hsame : df'[e]? = df[e]?) : ¬ e < e' := by
  intro hlt
  obtain ⟨bar, hbar, hexit⟩ := h.bar
  obtain ⟨hstop, hprofit⟩ := h'.untouched e h.after hlt bar (hsame.trans hbar)
  have hwithin := h'.within
  cases hexit with
  | stopLoss hhit => rw [hstop] at hhit; cases hhit
  | profitTake _ hhit => rw [hprofit] at hhit; cases hhit
  | vertical =>
    have := h.vertical rfl
    omega

/-- **Only the bars up to the exit count.** -/
theorem IsFirstPassage.unique {e e' : ℕ}
    (h : IsFirstPassage df args entry e exit) (h' : IsFirstPassage df' args entry e' exit')
    (hsame : ∀ j : ℕ, args.index ≤ j → j ≤ e → df'[j]? = df[j]?) : exit' = exit := by
  have hafter := h.after
  have hafter' := h'.after
  have hnot := h.not_before h' (hsame e (by omega) le_rfl)
  have hnot' : ¬ e' < e := by
    intro hlt
    exact h'.not_before h (hsame e' (by omega) hlt.le).symm hlt
  obtain rfl : e' = e := by omega
  obtain ⟨bar, hbar, hexit⟩ := h.bar
  obtain ⟨bar', hbar', hexit'⟩ := h'.bar
  rw [hsame e' (by omega) le_rfl, hbar] at hbar'
  cases hbar'
  exact hexit'.unique hexit

theorem Accepted.congr {first : Kline} (h : Accepted df args first)
    (hlength : df'.length = df.length) (hfirst : df'[args.index.toNat]? = df[args.index.toNat]?) :
    Accepted df' args first :=
  { h with
    complete := by rw [hlength]; exact h.complete
    opening := hfirst.trans h.opening }

/-! ## The return -/

/-- The barriers are on their sides of the entry. -/
theorem IsExit.bounds
    (h : IsExit args.side (args.stopPrice entry) (args.profitPrice entry) bar exit)
    (hside : args.side = -1 ∨ args.side = 1) (hprofit : 0 < args.profitTakeAtr)
    (hstop : 0 < args.stopLossAtr) (hatr : 0 < args.atr)
    (hbar : bar.low ≤ bar.close ∧ bar.close ≤ bar.high) :
    -(args.stopLossAtr * args.atr) ≤ args.side * (exit.price - entry) ∧
      args.side * (exit.price - entry) ≤ args.profitTakeAtr * args.atr := by
  have hp := mul_pos hprofit hatr
  have hs := mul_pos hstop hatr
  have hsquare : (args.side : ℚ) * args.side = 1 := by
    rcases hside with h | h
    · rw [h]; norm_num
    · rw [h]; norm_num
  cases h with
  | stopLoss =>
    have heq : (args.side : ℚ) * (args.stopPrice entry - entry) =
        -(args.stopLossAtr * args.atr) := by
      unfold BarrierArgs.stopPrice
      linear_combination (-(args.stopLossAtr * args.atr)) * hsquare
    exact ⟨heq.ge, by rw [heq]; linarith⟩
  | profitTake =>
    have heq : (args.side : ℚ) * (args.profitPrice entry - entry) =
        args.profitTakeAtr * args.atr := by
      unfold BarrierArgs.profitPrice
      linear_combination (args.profitTakeAtr * args.atr) * hsquare
    exact ⟨by rw [heq]; linarith, heq.le⟩
  | vertical hnoStop hnoProfit =>
    unfold stopHit at hnoStop
    unfold profitHit at hnoProfit
    rcases hside with h | h
    · rw [h] at hnoStop hnoProfit
      simp only [Int.reduceNeg, reduceCtorEq, if_false, decide_eq_false_iff_not, not_le,
        BarrierArgs.stopPrice, BarrierArgs.profitPrice, h] at hnoStop hnoProfit
      push_cast at hnoStop hnoProfit
      rw [h]
      push_cast
      constructor
      · linarith
      · linarith
    · rw [h] at hnoStop hnoProfit
      simp only [if_true, decide_eq_false_iff_not, not_le, BarrierArgs.stopPrice,
        BarrierArgs.profitPrice, h] at hnoStop hnoProfit
      push_cast at hnoStop hnoProfit
      rw [h]
      push_cast
      constructor
      · linarith
      · linarith

theorem outcome_grossReturn (hentry : 0 < entry) (exit : Exit) :
    (args.outcome entry exit).grossReturn = args.side * (exit.price - entry) / entry := by
  unfold BarrierArgs.outcome
  dsimp only
  field_simp

/-! ## Reflection -/

/-- The bar on the other side of the entry. -/
def Kline.reflect (entry : ℚ) (bar : Kline) : Kline :=
  { bar with
    openPrice := 2 * entry - bar.openPrice
    high := 2 * entry - bar.low
    low := 2 * entry - bar.high
    close := 2 * entry - bar.close }

def Exit.reflect (entry : ℚ) (exit : Exit) : Exit :=
  ⟨exit.bar.reflect entry, 2 * entry - exit.price, exit.barrier⟩

theorem hits_reflect (hside : side = -1 ∨ side = 1) (entry stopPrice profitPrice : ℚ)
    (bar : Kline) :
    stopHit (-side) (2 * entry - stopPrice) (bar.reflect entry) = stopHit side stopPrice bar ∧
      profitHit (-side) (2 * entry - profitPrice) (bar.reflect entry) =
        profitHit side profitPrice bar := by
  have hne : ¬ (-1 : ℤ) = 1 := by decide
  unfold stopHit profitHit Kline.reflect
  rcases hside with rfl | rfl
  · rw [neg_neg, if_pos rfl, if_pos rfl, if_neg hne, if_neg hne]
    simp only [sub_le_sub_iff_left, and_self]
  · rw [if_neg hne, if_neg hne, if_pos rfl, if_pos rfl]
    simp only [sub_le_sub_iff_left, and_self]

theorem walk_reflect (hside : side = -1 ∨ side = 1) (entry stopPrice profitPrice : ℚ)
    (vertical : Exit) (bars : List Kline) :
    walk (-side) (2 * entry - stopPrice) (2 * entry - profitPrice) (vertical.reflect entry)
        (bars.map (Kline.reflect entry)) =
      (walk side stopPrice profitPrice vertical bars).reflect entry := by
  induction bars with
  | nil => rfl
  | cons bar rest ih =>
    obtain ⟨hstop, hprofit⟩ := hits_reflect hside entry stopPrice profitPrice bar
    rw [List.map_cons, walk, walk, hstop, hprofit]
    split
    · rfl
    · split
      · rfl
      · exact ih

/-- The call for the opposite side. -/
def BarrierArgs.opposite (args : BarrierArgs) : BarrierArgs := { args with side := -args.side }

variable (args) in
theorem opposite_prices (entry : ℚ) :
    args.opposite.stopPrice entry = 2 * entry - args.stopPrice entry ∧
      args.opposite.profitPrice entry = 2 * entry - args.profitPrice entry := by
  unfold BarrierArgs.opposite BarrierArgs.stopPrice BarrierArgs.profitPrice
  push_cast
  constructor
  · ring
  · ring

/-- **The opposite side** on the reflected path. -/
theorem opposite_grossReturn {first last last' : Kline} (h : Accepted df args first)
    (hlast : df[(args.index + args.horizonBars).toNat]? = some last)
    (hlast' : (df.map (Kline.reflect first.close))[(args.index + args.horizonBars).toNat]? =
      some last') :
    (args.opposite.outcome first.close
        (args.opposite.exit (df.map (Kline.reflect first.close)) first.close last')).grossReturn =
      (args.outcome first.close (args.exit df first.close last)).grossReturn := by
  rw [List.getElem?_map, hlast] at hlast'
  cases hlast'
  obtain ⟨hstop, hprofit⟩ := opposite_prices args first.close
  have hexit : args.opposite.exit (df.map (Kline.reflect first.close)) first.close
      (last.reflect first.close) = (args.exit df first.close last).reflect first.close := by
    unfold BarrierArgs.exit
    rw [hstop, hprofit]
    show walk (-args.side) _ _ (Exit.reflect first.close ⟨last, last.close, .vertical⟩)
      (((df.map (Kline.reflect first.close)).drop (args.index.toNat + 1)).take
        args.horizonBars.toNat) = _
    rw [← List.map_drop, ← List.map_take, walk_reflect h.side]
  rw [hexit, outcome_grossReturn h.entry, outcome_grossReturn h.entry]
  unfold Exit.reflect BarrierArgs.opposite
  push_cast
  ring

/-- What the outcome of an entry is. -/
structure IsTripleBarrier (df : List Kline) (args : BarrierArgs) (first : Kline) (exitIndex : ℕ)
    (exit : Exit) (out : TripleBarrierOutcome) : Prop where
  entry : df[args.index.toNat]? = some first
  passage : IsFirstPassage df args first.close exitIndex exit
  outcome : out = args.outcome first.close exit
  /-- Bars before the entry and after the exit do not count. -/
  causal : ∀ df', df'.length = df.length →
    (∀ j : ℕ, args.index ≤ j → j ≤ exitIndex → df'[j]? = df[j]?) →
      tripleBarrierOutcome df' args = .ok out
  lower : -args.stopLossAtr * args.atr / first.close ≤ out.grossReturn
  upper : out.grossReturn ≤ args.profitTakeAtr * args.atr / first.close
  opposite : ∀ out',
    tripleBarrierOutcome (df.map (Kline.reflect first.close)) args.opposite = .ok out' →
      out'.grossReturn = out.grossReturn

/-- **Triple barriers** are first passages. -/
theorem tripleBarrierOutcome_isTripleBarrier (hout : tripleBarrierOutcome df args = .ok out)
    (hbars : ∀ bar ∈ df, bar.low ≤ bar.close ∧ bar.close ≤ bar.high) :
    ∃ first exitIndex exit, IsTripleBarrier df args first exitIndex exit out := by
  obtain ⟨first, last, h, hlast, rfl⟩ := tripleBarrierOutcome_ok.mp hout
  obtain ⟨exitIndex, hpassage⟩ := exit_isFirstPassage h hlast
  obtain ⟨bar, hbar, hexit⟩ := hpassage.bar
  obtain ⟨hlower, hupper⟩ := hexit.bounds h.side h.profitTake h.stopLoss h.atr
    (hbars bar (List.mem_of_getElem? hbar))
  refine ⟨first, exitIndex, args.exit df first.close last, h.opening, hpassage, rfl, ?_, ?_, ?_, ?_⟩
  · intro df' hlength hsame
    have hafter := hpassage.after
    have hindex := h.index
    have h' := h.congr hlength (hsame args.index.toNat (by omega) (by omega))
    obtain ⟨last', hlast'⟩ := h'.last
    obtain ⟨exitIndex', hpassage'⟩ := exit_isFirstPassage h' hlast'
    refine tripleBarrierOutcome_ok.mpr ⟨first, last', h', hlast', ?_⟩
    rw [hpassage.unique hpassage' hsame]
  · rw [outcome_grossReturn h.entry]
    exact div_le_div_of_nonneg_right (by rw [neg_mul]; exact hlower) h.entry.le
  · rw [outcome_grossReturn h.entry]
    exact div_le_div_of_nonneg_right hupper h.entry.le
  · intro out' hout'
    obtain ⟨first', last', h', hlast', rfl⟩ := tripleBarrierOutcome_ok.mp hout'
    have hopening := h'.opening
    rw [List.getElem?_map, show args.opposite.index = args.index from rfl, h.opening] at hopening
    cases hopening
    have hclose : (first.reflect first.close).close = first.close := by
      show 2 * first.close - first.close = first.close
      ring
    rw [hclose]
    exact opposite_grossReturn h hlast hlast'

end Greenfield.Ml
