import Greenfield.Demo.Executor

/-!
# What calls keep

The executor writes fills only through the reconciler, and places orders only in `_submit`. So a
property of the world that every other operation keeps, and that `reconcile` and `_submit` keep,
is kept by a whole call of `advance`, and by any calls one after another (`Calls.invariant`).
-/

namespace Greenfield.Demo

open Keyed Py Paper Effects

/-- The operation applies a fill. -/
def Op.isFill : Op → Bool
  | .orders (.applyFillResult ..) => true
  | _ => false

def Op.isPlace : Op → Bool
  | .place .. => true
  | _ => false

variable {D : Digests} {obs : Answers} {P : World → Prop}

/-- Every operation that applies no fill and places no order keeps `P`, and `reconcile` keeps it. -/
structure KeptByOthers (D : Digests) (obs : Answers) (P : World → Prop) : Prop where
  others : ∀ o w r w', o.isFill = false → o.isPlace = false → exec D obs o w r w' → P w → P w'
  reconcile : ∀ c, Keeps (exec D obs) P (reconcile D c)

/-- `_submit` keeps it too. -/
structure KeptByParts (D : Digests) (obs : Answers) (P : World → Prop) : Prop
    extends KeptByOthers D obs P where
  submit : ∀ (self : DemoStrategyExecutor) trade exitReason quantity referencePrice now,
    Keeps (exec D obs) P (self.submit D trade exitReason quantity referencePrice now)

/-- Every operation that applies no fill keeps `P`, and `reconcile` keeps it. -/
structure KeptBySteps (D : Digests) (obs : Answers) (P : World → Prop) : Prop where
  others : ∀ o w r w', o.isFill = false → exec D obs o w r w' → P w → P w'
  reconcile : ∀ c, Keeps (exec D obs) P (reconcile D c)

variable {self : DemoStrategyExecutor} {args : AdvanceArgs} {trade : AutonomousTradeRecord}
  {now : Instant}

/-! ## Submitting -/

namespace KeptByOthers

variable (h : KeptByOthers D obs P)

include h

theorem askOrders {o : OrderOp} (ho : (Op.orders o).isFill = false) :
    Keeps (exec D obs) P (askOrders o) := keeps_perform fun _ _ _ => h.others _ _ _ _ ho rfl

theorem askState (o : StateOp) : Keeps (exec D obs) P (askState o) :=
  keeps_perform fun _ _ _ => h.others _ _ _ _ rfl rfl

theorem ask (q : Query) : Keeps (exec D obs) P (ask q) :=
  keeps_perform fun _ _ _ => h.others _ _ _ _ rfl rfl

theorem nextExitAttempt : Keeps (exec D obs) P (DemoStrategyExecutor.nextExitAttempt trade) :=
  (h.askOrders rfl).bind fun _ => keeps_ret _

theorem legSuffix (exitReason : Option DemoExitReason) :
    Keeps (exec D obs) P (DemoStrategyExecutor.legSuffix trade exitReason) := by
  cases exitReason with
  | none => exact keeps_ret _
  | some reason => exact h.nextExitAttempt.bind fun _ => keeps_ret _

end KeptByOthers

theorem keeps_markLeg (hstate : ∀ o, Keeps (exec D obs) P (askState o))
    (exitReason : Option DemoExitReason) (c : String) :
    Keeps (exec D obs) P (DemoStrategyExecutor.markLeg trade exitReason c now) := by
  cases exitReason with
  | none => exact hstate _
  | some reason => exact hstate _

namespace KeptBySteps

variable (h : KeptBySteps D obs P)

include h

theorem toOthers : KeptByOthers D obs P := ⟨fun o w r w' ho _ => h.others o w r w' ho, h.reconcile⟩

theorem send (exitReason : Option DemoExitReason) (quantity referencePrice : ℚ)
    (order : PaperOrderRecord) : Keeps (exec D obs) P
      (self.send D trade exitReason quantity referencePrice now order) := by
  unfold DemoStrategyExecutor.send
  refine (h.toOthers.askOrders rfl).bind fun order => (keeps_lift _).bind fun link => ?_
  refine Keeps.bind (keeps_perform fun _ _ _ => h.others _ _ _ _ rfl) fun ack => ?_
  exact (keeps_check _ _).bind fun _ => keeps_ret _

theorem parts : KeptByParts D obs P where
  toKeptByOthers := h.toOthers
  submit self trade exitReason quantity referencePrice now := by
    unfold DemoStrategyExecutor.submit
    refine (h.toOthers.legSuffix _).bind fun suffix => ?_
    refine (h.toOthers.askOrders rfl).bind fun order => ?_
    refine (keeps_markLeg h.toOthers.askState _ _).bind fun _ => ?_
    split
    · exact h.send _ _ _ _
    · exact keeps_ret _

end KeptBySteps

namespace KeptByParts

variable (h : KeptByParts D obs P)

include h

theorem signedPosition (symbol : String) :
    Keeps (exec D obs) P (DemoStrategyExecutor.signedPosition symbol) :=
  (h.ask _).bind fun _ => keeps_ret _

/-! ## Closing -/

theorem closeRejectedEntry (order : PaperOrderRecord) :
    Keeps (exec D obs) P (DemoStrategyExecutor.closeRejectedEntry trade now order) := by
  unfold DemoStrategyExecutor.closeRejectedEntry
  split
  · exact keeps_ret _
  · exact (h.askState _).bind fun _ => keeps_ret _

theorem hold (reason : String) :
    Keeps (exec D obs) P (DemoStrategyExecutor.hold trade reason now) :=
  (h.askState _).bind fun _ => keeps_ret _

theorem book (pnl : ℚ) : Keeps (exec D obs) P (self.book trade pnl now) := by
  unfold DemoStrategyExecutor.book
  refine (h.askState _).bind fun closed => (h.ask _).bind fun balance => ?_
  exact (h.askState _).bind fun _ => keeps_ret _

theorem close : Keeps (exec D obs) P (self.close trade now) := by
  unfold DemoStrategyExecutor.close
  refine (keeps_lift _).bind fun entryId => (keeps_lift _).bind fun _ => ?_
  refine (h.askOrders rfl).bind fun found => (h.askOrders rfl).bind fun orders => ?_
  refine (keeps_lift _).bind fun entry => (keeps_check _ _).bind fun _ => ?_
  dsimp only
  split
  · exact h.hold _
  · exact (keeps_check _ _).bind fun _ => h.book _

theorem closeActive : Keeps (exec D obs) P (self.closeActive trade now) :=
  (h.askState _).bind fun _ => h.close

theorem report (status detail : String) :
    Keeps (exec D obs) P (DemoStrategyExecutor.report status detail) :=
  (h.askState _).bind fun _ => keeps_ret _

theorem reconcileOrder (c : String) :
    Keeps (exec D obs) P (DemoStrategyExecutor.reconcileOrder D c) := by
  unfold DemoStrategyExecutor.reconcileOrder orLag
  refine ((h.reconcile c).bind fun _ => keeps_ret _).attempt.bind fun r => ?_
  split
  · exact keeps_ret _
  · exact keeps_ret _
  · exact keeps_raise _

/-! ## A call -/

theorem advanceOpen (signed : ℚ) :
    Keeps (exec D obs) P (self.advanceOpen D trade signed now) := by
  unfold DemoStrategyExecutor.advanceOpen
  split
  · split
    · exact h.hold _
    · refine (h.ask _).bind fun market => (keeps_lift _).bind fun reason => ?_
      split
      · exact keeps_ret _
      · refine (h.submit _ _ _ _ _ _).bind fun order => (h.reconcileOrder _).bind fun found => ?_
        split
        · exact h.report _ _
        · refine (h.signedPosition _).bind fun signed => ?_
          split
          · exact h.closeActive
          · exact h.report _ _
  · exact h.hold _

theorem replaceExit (signed : ℚ) :
    Keeps (exec D obs) P (self.replaceExit D trade signed now) := by
  unfold DemoStrategyExecutor.replaceExit
  refine h.nextExitAttempt.bind fun n => ?_
  split
  · exact h.hold _
  · refine (h.ask _).bind fun market => (keeps_lift _).bind fun reason => ?_
    refine (h.submit _ _ _ _ _ _).bind fun order => (h.reconcileOrder _).bind fun _ => ?_
    refine (h.signedPosition _).bind fun signed => ?_
    split
    · exact h.closeActive
    · exact h.report _ _

theorem advanceExit : Keeps (exec D obs) P (self.advanceExit D trade now) := by
  unfold DemoStrategyExecutor.advanceExit
  refine (keeps_lift _).bind fun exitId => (h.reconcileOrder _).bind fun found => ?_
  split
  · exact keeps_ret _
  · refine (h.signedPosition _).bind fun signed => ?_
    split
    · exact h.close
    · split
      · split
        · exact h.close
        · exact h.replaceExit _
      · exact keeps_ret _

theorem advancePosition : Keeps (exec D obs) P (self.advancePosition D trade now) := by
  unfold DemoStrategyExecutor.advancePosition
  refine (h.ask _).bind fun positions => ?_
  split
  · exact h.advanceExit
  · exact h.advanceOpen _

theorem advanceEntry : Keeps (exec D obs) P (self.advanceEntry D trade now) := by
  unfold DemoStrategyExecutor.advanceEntry
  refine (keeps_lift _).bind fun entryId => (h.reconcileOrder _).bind fun found => ?_
  split
  · exact keeps_ret _
  · split
    · exact (h.askState _).bind fun _ => h.advancePosition
    · refine (h.closeRejectedEntry _).bind fun rejected => ?_
      split
      · exact keeps_ret _
      · exact keeps_ret _

theorem advanceActive : Keeps (exec D obs) P (self.advanceActive D trade now) := by
  unfold DemoStrategyExecutor.advanceActive
  split
  · exact keeps_ret _
  · exact h.advanceEntry
  · exact h.advancePosition

theorem followEntry (c : String) :
    Keeps (exec D obs) P (DemoStrategyExecutor.followEntry D trade now c) := by
  unfold DemoStrategyExecutor.followEntry
  refine (h.reconcileOrder _).bind fun found => ?_
  split
  · exact h.report _ _
  · split
    · exact (h.askState _).bind fun _ => keeps_ret _
    · refine (h.closeRejectedEntry _).bind fun rejected => ?_
      split
      · exact keeps_ret _
      · exact h.report _ _

theorem beginEntry (balance : DemoAccountBalance) (dailyCapital : ℚ) :
    Keeps (exec D obs) P (self.beginEntry D args balance dailyCapital) := by
  unfold DemoStrategyExecutor.beginEntry
  refine (h.ask _).bind fun market => (keeps_lift _).bind fun sizing => ?_
  refine (keeps_lift _).bind fun overrides => (h.askState _).bind fun trade => ?_
  refine (h.ask _).bind fun _ => (h.submit _ _ _ _ _ _).bind fun order => ?_
  exact (h.askState _).bind fun _ => h.followEntry _

theorem enter : Keeps (exec D obs) P (self.enter D args) := by
  unfold DemoStrategyExecutor.enter
  refine (h.ask _).bind fun exposure => (keeps_check _ _).bind fun _ => ?_
  split
  · exact keeps_ret _
  · refine (h.ask _).bind fun balance => (h.askState _).bind fun daily => ?_
    exact (h.askState _).bind fun _ => h.beginEntry _ _

theorem gate : Keeps (exec D obs) P (DemoStrategyExecutor.gate args) := by
  unfold DemoStrategyExecutor.gate
  refine (keeps_lift _).bind fun _ => (keeps_check _ _).bind fun _ => ?_
  split
  · exact h.ask _
  · exact keeps_ret _

/-- **A call of `advance`.** -/
theorem advance : Keeps (exec D obs) P (self.advance D args) := by
  unfold DemoStrategyExecutor.advance
  refine h.gate.bind fun _ => (h.askState _).bind fun active => ?_
  split
  · exact h.advanceActive
  · exact h.enter

end KeptByParts

/-! ## Calls -/

/-- A call of `advance` or of `reconcile`, stopped anywhere. -/
inductive DemoCall (D : Digests) (obs : Answers) (w w' : World) : Prop where
  | advance (self : DemoStrategyExecutor) (args : AdvanceArgs)
      (p : DemoProg DemoStrategyCycleResult) (h : Steps (exec D obs) (self.advance D args) w p w')
  | reconcile (c : String) (p : DemoProg (PaperOrderRecord × Option DemoOrderSnapshot × Nat))
      (h : Steps (exec D obs) (reconcile D c) w p w')

/-- Calls one after another. -/
abbrev Calls (D : Digests) (obs : Answers) : World → World → Prop :=
  Relation.ReflTransGen (DemoCall D obs)

theorem Calls.invariant {w w' : World} (h : KeptByParts D obs P) (hs : Calls D obs w w')
    (hw : P w) : P w' := by
  induction hs with
  | refl => exact hw
  | tail _ hcall ih =>
    cases hcall with
    | advance self args p hsteps => exact h.advance.steps hsteps ih
    | reconcile c p hsteps => exact (h.reconcile c).steps hsteps ih

end Greenfield.Demo
