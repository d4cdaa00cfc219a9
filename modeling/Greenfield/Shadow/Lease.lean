import Greenfield.Shadow.Loop

/-!
# Leases and attempts

An item is in the hands of the worker whose claim of it was the last. `acknowledge` and
`retry_or_dead_letter` test only that the item is `PROCESSING`: after its lease a worker can
still finish an item that another one has claimed (`finished_after_takeover`). As long as no
claim takes an item that a running worker may still finish, only the holder finishes it.

A claim counts the attempts of an item, and only a retry compares them: an item whose
worker dies in the last attempt is claimed once more (`claimed_after_last_attempt`). As
long as no such item is next, no item is claimed more often than it may be.
-/

namespace Greenfield.Shadow

open Keyed Py Effects DurableShadowQueue

/-! ## Holders -/

/-- The item that an operation is to finish. -/
def finishes : LoopOp → Option ShadowQueueItem
  | .acknowledge item _ => some item
  | .retryOrDeadLetter item _ _ _ _ => some item
  | _ => none

def isClaim : LoopOp → Bool
  | .claim _ _ => true
  | _ => false

/-- The worker may finish `item`, without another claim. -/
inductive MayFinish (item : ShadowQueueItem) : LoopProg ShadowIterationResult → Prop where
  | now {o : LoopOp} {k : Except PyError o.Res → LoopProg ShadowIterationResult}
      (h : finishes o = some item) : MayFinish item (.call o k)
  | later {o : LoopOp} {k : Except PyError o.Res → LoopProg ShadowIterationResult}
      {r : Except PyError o.Res} (hc : isClaim o = false) (h : MayFinish item (k r)) :
      MayFinish item (.call o k)

/-- The lease of `item` is the current one: its claim is the last of the item, and the item
is being processed. -/
def Holds (s : Claimed) (item : ShadowQueueItem) : Prop :=
  s.2.find? (fun x => x.itemId = item.itemId) = some item ∧
    ∃ row, s.1.rows.find item.itemId = some row ∧ row.status = .processing

/-- No claim takes an item that another worker may still finish. -/
def Undisturbed (o : LoopOp) (s : Claimed) (_ : Except PyError o.Res)
    (others : List (LoopProg ShadowIterationResult)) : Prop :=
  match o with
  | .claim now _ => ∀ row, s.1.nextDue now = some row →
      ∀ p ∈ others, ∀ item, MayFinish item p → item.itemId ≠ row.itemId
  | _ => True

/-! ### Stages of a worker -/

/-- After its claim a worker finishes no other item and claims no more. -/
def Working (item : ShadowQueueItem) (p : LoopProg ShadowIterationResult) : Prop :=
  p.All fun o => isClaim o = false ∧ ∀ x, finishes o = some x → x = item

/-- Before its claim a worker finishes nothing. -/
def Starting : LoopProg ShadowIterationResult → Prop
  | .ret _ | .raise _ => True
  | .call o k => finishes o = none ∧ ∀ r,
      match claimed o r with
      | some item => Working item (k r)
      | none => Starting (k r)

section

variable {item : ShadowQueueItem} {repr : PyError → String} {self : ShadowEventLoop}

section

variable {J : LoopOp → Prop} (hother : ∀ o, isClaim o = false → finishes o = none → J o)
  (hack : ∀ completed, J (.acknowledge item completed))
  (hretry : ∀ error failedAt retryAt,
    J (.retryOrDeadLetter item error failedAt retryAt self.config.maximumAttempts))

include hother

theorem all_publish : self.publish.All J := by
  unfold ShadowEventLoop.publish
  split
  · exact .perform (hother _ rfl rfl)
  · trivial

variable {now : Instant}

theorem all_finish (hack : ∀ completed, J (.acknowledge item completed)) :
    (ShadowEventLoop.finish item now).All J :=
  .bind (.perform (hack now)) fun _ => .perform (hother _ rfl rfl)

include hretry

theorem all_handleFailure {error : String} :
    (self.handleFailure item now error).All J := by
  refine .bind (.perform (hretry ..)) fun status => ?_
  refine .bind (.perform (hother _ rfl rfl)) fun consecutive => ?_
  split
  · refine .bind (.perform (hother _ rfl rfl)) fun active => ?_
    split
    · trivial
    · refine .bind (.attempt (.bind (.perform (hother _ rfl rfl)) fun held => ?_)) fun r => ?_
      · split
        · trivial
        · exact .perform (hother _ rfl rfl)
      · cases r <;> trivial
  · trivial

include hack

theorem all_process : (self.process repr item now).All J := by
  refine .bind (.attempt (.perform (hother _ rfl rfl))) fun loaded => ?_
  cases loaded with
  | error e => exact all_handleFailure hother hretry
  | ok work =>
    refine .bind (.attempt (.bind (.perform (hother _ rfl rfl)) fun _ =>
      all_finish hother hack)) fun r => ?_
    split
    · trivial
    · refine .bind (.perform (hother _ rfl rfl)) fun recorded => ?_
      split
      · exact .bind (all_finish hother hack) fun _ => trivial
      · exact all_handleFailure hother hretry
    · exact all_handleFailure hother hretry

end

variable {now : Instant}

theorem working_process :
    Working item (do let result ← self.process repr item now; self.publish; pure result) := by
  have hother : ∀ o, isClaim o = false → finishes o = none →
      isClaim o = false ∧ ∀ x, finishes o = some x → x = item :=
    fun o hc hf => ⟨hc, fun x hx => by rw [hf] at hx; cases hx⟩
  exact .bind (all_process hother (fun _ => ⟨rfl, fun x hx => (Option.some.inj hx).symm⟩)
    fun _ _ _ => ⟨rfl, fun x hx => (Option.some.inj hx).symm⟩) fun result =>
      .bind (all_publish hother) fun _ => trivial

theorem starting_act {o : LoopOp} {f : o.Res → LoopProg ShadowIterationResult}
    (hf : finishes o = none) (hc : ∀ r, claimed o r = none) (h : ∀ a, Starting (f a)) :
    Starting (act o >>= f) := by
  refine ⟨hf, fun r => ?_⟩
  rw [hc r]
  cases r with
  | ok a => exact h a
  | error e => trivial

theorem starting_claim {lease : ℚ}
    {f : Option ShadowQueueItem → LoopProg ShadowIterationResult} (hnone : Starting (f none))
    (hsome : ∀ item, Working item (f (some item))) : Starting (act (.claim now lease) >>= f) := by
  refine ⟨rfl, fun r => ?_⟩
  rcases r with e | x
  · trivial
  · cases x with
    | some item => exact hsome item
    | none => exact hnone

theorem starting_runOnce : Starting (self.runOnce repr) := by
  refine starting_act rfl (fun _ => rfl) fun t => ?_
  cases utc t "shadow loop clock" with
  | error e => trivial
  | ok now =>
    refine starting_claim (starting_act rfl (fun _ => rfl) fun _ => ?_) fun item => ?_
    · unfold ShadowEventLoop.publish
      split
      · exact starting_act rfl (fun _ => rfl) fun _ => trivial
      · trivial
    · exact working_process

theorem starting_worker {allowed : ShadowEventLoop → Prop} {p : LoopProg ShadowIterationResult}
    (h : Worker repr allowed p) : Starting p := by
  rcases h with ⟨self, -, rfl⟩ | ⟨itemId, payloadUri, available, rfl⟩
  · exact starting_runOnce
  · exact starting_act rfl (fun _ => rfl) fun _ => trivial

end

/-! ### Pools -/

/-- A worker is starting, or works on one item, whose last claim is its own as long as it may
still finish it. -/
def InHand (claims : List ShadowQueueItem) (p : LoopProg ShadowIterationResult) : Prop :=
  Starting p ∨ ∃ item, Working item p ∧
    (MayFinish item p → claims.find? (fun x => x.itemId = item.itemId) = some item)

variable {p : LoopProg ShadowIterationResult} {item : ShadowQueueItem}

/-- A starting worker may finish nothing yet. -/
theorem not_mayFinish
    (h : Starting p) : ¬ MayFinish item p := by
  intro hm
  induction hm with
  | now hf => rw [h.1] at hf; cases hf
  | @later o k r hc _ ih =>
    have hr := h.2 r
    have hnone : claimed o r = none := by
      cases o with
      | claim _ _ => cases hc
      | _ => rfl
    rw [hnone] at hr
    exact ih hr

variable {o : LoopOp} {r : Except PyError o.Res}

theorem claims_after {s s' : Claimed}
    (hx : claimedExec o s r s') : s'.2 = (claimed o r).toList ++ s.2 := hx.2

/-- The retries of an operation compare the attempts with `n`. -/
def limits (n : Int) : LoopOp → Prop
  | .retryOrDeadLetter _ _ _ _ m => m = n
  | _ => True

/-- What an operation can do to the rows, and the item that it claims. -/
inductive RowStep (q q' : DurableShadowQueue) : LoopOp → Option ShadowQueueItem → Prop where
  | kept {o : LoopOp} (h : q'.rows = q.rows) : RowStep q q' o none
  | added {o : LoopOp} {row : QueueRow} (ho : finishes o = none)
      (hnone : q.rows.find row.itemId = none) (hattempts : row.attempts = 0)
      (hins : q.rows.insert row = some q'.rows) : RowStep q q' o none
  | claimed {now : Instant} {lease : ℚ} {row : QueueRow} (hnext : q.nextDue now = some row)
      (hq : q' = q.update row.itemId (claimRow (now + timedelta lease)) (claimRow_itemId _)) :
      RowStep q q' (.claim now lease) (some (itemOf (claimRow (now + timedelta lease) row)))
  | finished {o : LoopOp} {item : ShadowQueueItem} {row : QueueRow} {f : QueueRow → QueueRow}
      {hf : ∀ r, (f r).itemId = r.itemId} (ho : finishes o = some item)
      (hrow : q.rows.find item.itemId = some row) (hstatus : row.status = .processing)
      (hq : q' = q.update item.itemId f hf) (hattempts : (f row).attempts = row.attempts)
      (hpending : (f row).status = .pending → ∀ n, limits n o → (row.attempts : Int) < n) :
      RowStep q q' o none

variable {q q' : DurableShadowQueue}

theorem rowStep
    (hx : loopExec o q r q') : RowStep q q' o (claimed o r) := by
  have herror : ∀ e, q' = q → RowStep q q' o (claimed o (.error e)) := by
    rintro e rfl
    cases o <;> exact .kept rfl
  unfold loopExec at hx
  split at hx
  · next t ht =>
    rcases hx with hx | ⟨hq, msg, rfl⟩
    · rcases outcome_cases hx with ⟨a, rfl, rfl⟩ | ⟨e, rfl, -, hq⟩
      · cases o with
        | enqueue itemId payloadUri available =>
          rcases enqueue_cases (Option.some.inj ht) with rfl | ⟨row, hnone, -, hattempts, hins⟩
          · exact .kept rfl
          · exact .added rfl hnone hattempts hins
        | claim now lease =>
          rcases claim_cases (Option.some.inj ht) with ⟨rfl, rfl⟩ | ⟨row, hnext, rfl, hq⟩
          · exact .kept rfl
          · exact .claimed hnext hq
        | acknowledge item completed =>
          obtain ⟨row, hrow, hstatus, hq⟩ := acknowledge_cases (Option.some.inj ht)
          exact .finished rfl hrow hstatus hq rfl fun h => by cases h
        | retryOrDeadLetter item error failedAt retryAt m =>
          obtain ⟨row, hrow, hstatus, ha, hq⟩ := retryOrDeadLetter_cases (Option.some.inj ht)
          refine .finished rfl hrow hstatus hq rfl fun hpending n hlim => ?_
          have hpending : a = .pending := hpending
          have hlim : m = n := hlim
          rw [ha] at hpending
          split at hpending
          · cases hpending
          · omega
        | recordSuccess now =>
          exact .kept (congrArg (fun x => x.2.rows) (Except.ok.inj (Option.some.inj ht))).symm
        | recordFailure now error =>
          obtain ⟨-, -, htxn⟩ := bind_eq_ok.mp (Option.some.inj ht)
          exact .kept (congrArg (fun x => x.2.rows) (Except.ok.inj htxn)).symm
        | recordHeartbeat now =>
          exact .kept (congrArg (fun x => x.2.rows) (Except.ok.inj (Option.some.inj ht))).symm
        | _ => cases ht
      · exact herror e hq
    · exact herror _ hq
  · next ht =>
    subst hx
    cases o with
    | claim _ _ => cases ht
    | _ => exact .kept rfl

/-- An operation that finishes an item changes the queue only while the item is processed. -/
theorem finish_processing
    (hx : loopExec o q r q') (hf : finishes o = some item)
    (hne : q'.rows ≠ q.rows) :
    ∃ row, q.rows.find item.itemId = some row ∧ row.status = .processing := by
  have hstep := rowStep hx
  generalize claimed o r = claims at hstep
  cases hstep with
  | kept h => exact absurd h hne
  | added ho => rw [ho] at hf; cases hf
  | claimed => cases hf
  | finished ho hrow hstatus =>
    rw [ho] at hf
    cases hf
    exact ⟨_, hrow, hstatus⟩

section

variable {repr : PyError → String} {allowed : ShadowEventLoop → Prop}

variable {o : LoopOp} {r : Except PyError o.Res} {s s' : Claimed}

/-- The worker's own operation. -/
theorem inHand_own {k : Except PyError o.Res → LoopProg ShadowIterationResult}
    (hx : claimedExec o s r s')
    (h : InHand s.2 (.call o k)) : InHand s'.2 (k r) := by
  rw [claims_after hx]
  rcases h with hstart | ⟨item, hwork, hlast⟩
  · have hr := hstart.2 r
    split at hr
    · next x hx =>
      rw [hx]
      refine .inr ⟨x, hr, fun _ => ?_⟩
      rw [Option.toList_some, List.singleton_append, List.find?_cons_of_pos (by simp)]
    · next hx =>
      exact .inl hr
  · have hc : isClaim o = false := hwork.1.1
    have hnone : claimed o r = none := by
      cases o with
      | claim _ _ => cases hc
      | _ => rfl
    rw [hnone]
    exact .inr ⟨item, hwork.2 r, fun hm => hlast (.later hc hm)⟩

/-- An operation of another worker. -/
theorem inHand_other
    {others : List (LoopProg ShadowIterationResult)} {p : LoopProg ShadowIterationResult}
    (hx : claimedExec o s r s') (hok : Undisturbed o s r others) (hp : p ∈ others)
    (h : InHand s.2 p) : InHand s'.2 p := by
  rcases h with hstart | ⟨item, hwork, hlast⟩
  · exact .inl hstart
  · refine .inr ⟨item, hwork, fun hm => ?_⟩
    rw [claims_after hx]
    cases hc : claimed o r with
    | none => exact hlast hm
    | some x =>
      have hstep := rowStep hx.1
      rw [hc] at hstep
      cases hstep with
      | @claimed now lease row hnext =>
        have hne : item.itemId ≠ row.itemId := hok row hnext p hp item hm
        rw [Option.toList_some, List.singleton_append,
          List.find?_cons_of_neg fun h => hne (of_decide_eq_true h).symm]
        exact hlast hm

/-- **Leases are exclusive.** Whatever workers and producers do, in any order, under any
clock and crashing anywhere: as long as no claim takes an item that a running worker may
still finish, an acknowledgement or a retry has an effect only for the holder of the lease. -/
theorem lease_exclusive (repr : PyError → String) (s s' : Claimed)
    (pool : List (LoopProg ShadowIterationResult))
    (h : CrashReach claimedExec (Worker repr fun _ => True) Undisturbed ({}, []) (s, pool))
    (o : LoopOp) (k : Except PyError o.Res → LoopProg ShadowIterationResult)
    (r : Except PyError o.Res) (hp : .call o k ∈ pool) (hx : claimedExec o s r s')
    (item : ShadowQueueItem) (hf : finishes o = some item) (hne : s'.1.rows ≠ s.1.rows) :
    Holds s item := by
  have hhand : ∀ p ∈ pool, InHand s.2 p := by
    refine CrashReach.invariant (J := fun c => ∀ p ∈ c.2, InHand c.1.2 p)
      (fun p hp => absurd hp List.not_mem_nil) (fun _ _ hs hc => ?_) h
    exact hs.programs (K := fun s => InHand s.2) (fun _ _ hspawn => .inl (starting_worker hspawn))
      inHand_own inHand_other hc
  refine ⟨?_, finish_processing hx.1 hf hne⟩
  rcases hhand _ hp with hstart | ⟨x, hwork, hlast⟩
  · exact absurd (.now hf) (not_mayFinish hstart)
  · obtain rfl := hwork.1.2 item hf
    exact hlast (.now hf)

end

/-! ### Two workers -/

/-- Transactions as they are, everything else answered by `env`. -/
def loopHandle (env : (o : LoopOp) → Claimed → Except PyError o.Res) (o : LoopOp) (s : Claimed) :
    Except PyError o.Res × Claimed :=
  match o.txn s.1 with
  | some t => ((outcome t s.1).1, (outcome t s.1).2, (claimed o (outcome t s.1).1).toList ++ s.2)
  | none => (env o s, s)

theorem claimedExec_handle (env : (o : LoopOp) → Claimed → Except PyError o.Res) (o : LoopOp)
    (s : Claimed) : claimedExec o s (loopHandle env o s).1 (loopHandle env o s).2 := by
  cases o with
  | enqueue _ _ _ | claim _ _ | acknowledge _ _ | retryOrDeadLetter _ _ _ _ _ | recordSuccess _
  | recordFailure _ _ | recordHeartbeat _ => exact ⟨.inl rfl, rfl⟩
  | clock | load _ | observe _ | find _ | killSwitchActive | activateSafetyHold _ _ _
  | publish => exact ⟨rfl, rfl⟩

def sampleWork : ShadowWork where
  observationId := "observation-1"
  decision := noEdgeDecision
  proposals := []
  equity := 1000
  named := by decide
  positive := by decide +kernel

/-- A clock that has passed the lease of every claim, and a runtime that observes. -/
def sampleEnv : (o : LoopOp) → Claimed → Except PyError o.Res
  | .clock, s => .ok (.ofInstant (61000000 * s.2.length))
  | .load _, _ => .ok sampleWork
  | .observe _, _ => .ok ()
  | _, _ => .error (.databaseError "unused")

def sampleLoop : ShadowEventLoop where
  config :=
    { durations := by decide +kernel
      limits := by decide
      ordered := by decide +kernel }
  sessionId := "session"
  publishes := false

def sampleProducer : LoopProg ShadowIterationResult := do
  let _ ← act (.enqueue "one" "file:///one" (.ofInstant 0))
  pure .idle

/-- The item as the first claim returns it. -/
def firstItem : ShadowQueueItem where
  itemId := "one"
  payloadUri := "file:///one"
  status := .processing
  attempts := 1
  availableAtUtc := 0
  leaseUntilUtc := some 60000000
  lastError := none

/-- The next operation acknowledges `firstItem`. -/
def acknowledges : LoopProg ShadowIterationResult → Bool
  | .call (.acknowledge item completed) _ => item = firstItem ∧ completed = 0
  | _ => false

theorem acknowledges_eq (h : acknowledges p = true) :
    ∃ k, p = .call (.acknowledge firstItem 0) k := by
  unfold acknowledges at h
  split at h
  · obtain ⟨rfl, rfl⟩ := of_decide_eq_true h
    exact ⟨_, rfl⟩
  · cases h

/-- The sample producer runs and ends; then programs join. -/
theorem reach_enqueued {repr : PyError → String} {allowed : ShadowEventLoop → Prop}
    {ok : (o : LoopOp) → Claimed → Except PyError o.Res → List (LoopProg ShadowIterationResult) → Prop}
    (hok : ∀ o s r, ok o s r []) : CrashReach claimedExec (Worker repr allowed) ok ({}, [])
      ((runOps (loopHandle sampleEnv) 1 sampleProducer ({}, [])).2, []) := by
  have hspawn : Worker repr allowed sampleProducer := .inr ⟨_, _, _, rfl⟩
  have hsteps := steps_runOps (claimedExec_handle sampleEnv) 1 sampleProducer ({}, [])
  exact ((Relation.ReflTransGen.single (.spawn hspawn)).trans
    (crashSteps_of_steps hsteps hok)).tail (@CrashStep.crash _ _ _ _ _ _ _ _ _ [] [] _)

/-- A worker that is alone with the sample item. -/
def alone : LoopProg ShadowIterationResult × Claimed :=
  runOps (loopHandle sampleEnv) 4 (sampleLoop.runOnce fun _ => "error")
    (runOps (loopHandle sampleEnv) 1 sampleProducer ({}, [])).2

/-- It acknowledges its own item. -/
theorem lease_exclusive_alone : Holds alone.2 firstItem := by
  obtain ⟨k, hk⟩ := acknowledges_eq (show acknowledges alone.1 = true by decide +kernel)
  have hspawn : Worker (fun _ => "error") (fun _ => True) (sampleLoop.runOnce fun _ => "error") :=
    .inl ⟨sampleLoop, trivial, rfl⟩
  have hok : ∀ o s r, Undisturbed o s r [] := by
    intro o s r
    cases o with
    | claim now lease => exact fun row _ p hp => absurd hp List.not_mem_nil
    | _ => trivial
  have hreach : CrashReach claimedExec (Worker (fun _ => "error") fun _ => True) Undisturbed
      ({}, []) (alone.2, [alone.1]) :=
    ((reach_enqueued hok).tail (.spawn hspawn)).trans
      (crashSteps_of_steps (steps_runOps (claimedExec_handle sampleEnv) 4 _ _) hok)
  refine lease_exclusive (fun _ => "error") alone.2
    (loopHandle sampleEnv (.acknowledge firstItem 0) alone.2).2 [alone.1] hreach
    (.acknowledge firstItem 0) k _ (by rw [hk]; exact List.mem_cons_self)
    (claimedExec_handle sampleEnv _ _) firstItem rfl fun heq => ?_
  have hdone : ((loopHandle sampleEnv (.acknowledge firstItem 0) alone.2).2.1.rows.find "one").map
      QueueRow.status = some .done := by decide +kernel
  have hprocessing : (alone.2.1.rows.find "one").map QueueRow.status = some .processing := by
    decide +kernel
  rw [heq, hprocessing] at hdone
  cases hdone

/-- A producer and two workers. -/
def twoWorkers (self : ShadowEventLoop) : List (LoopProg ShadowIterationResult) :=
  [sampleProducer, self.runOnce fun _ => "error", self.runOnce fun _ => "error"]

theorem worker_twoWorkers (self : ShadowEventLoop) (allowed : ShadowEventLoop → Prop)
    (h : allowed self) : ∀ p ∈ twoWorkers self, Worker (fun _ => "error") allowed p := by
  intro p hp
  rcases List.mem_cons.mp hp with rfl | hp
  · exact .inr ⟨_, _, _, rfl⟩
  · have hp : p = self.runOnce fun _ => "error" := by simpa using hp
    exact .inl ⟨self, h, hp⟩

/-- The second worker claims the item after the lease of the first, which then comes to its
acknowledgement. -/
def takeover : Claimed × List (LoopProg ShadowIterationResult) :=
  runPool (fun _ _ => true) (loopHandle sampleEnv) [0, 1, 1, 2, 2, 1, 1] ({}, [])
    (twoWorkers sampleLoop)

/-- The first worker finishes the item that the second one holds. -/
theorem finished_after_takeover : ¬ ∀ (repr : PyError → String) (s s' : Claimed)
    (pool : List (LoopProg ShadowIterationResult)),
    CrashReach claimedExec (Worker repr fun _ => True) (fun _ _ _ _ => True) ({}, []) (s, pool) →
    ∀ (o : LoopOp) (k : Except PyError o.Res → LoopProg ShadowIterationResult)
      (r : Except PyError o.Res), .call o k ∈ pool → claimedExec o s r s' →
      ∀ item, finishes o = some item → s'.1.rows ≠ s.1.rows → Holds s item := by
  intro h
  have hany : takeover.2.any acknowledges = true := by decide +kernel
  obtain ⟨p, hp, hack⟩ := List.any_eq_true.mp hany
  obtain ⟨k, rfl⟩ := acknowledges_eq hack
  have hreach : CrashReach claimedExec (Worker (fun _ => "error") fun _ => True)
      (fun _ _ _ _ => True) ({}, []) takeover :=
    crashReach_of_pool (fun _ _ _ _ _ hx => ⟨hx, trivial⟩) (poolReach_runPool (fun _ _ => true)
      (loopHandle sampleEnv) (fun o s _ => claimedExec_handle sampleEnv o s)
      (worker_twoWorkers sampleLoop _ trivial) [0, 1, 1, 2, 2, 1, 1])
  have hholds := h _ takeover.1 (loopHandle sampleEnv (.acknowledge firstItem 0) takeover.1).2
    takeover.2 hreach (.acknowledge firstItem 0) k _ hp (claimedExec_handle sampleEnv _ _) firstItem
    rfl (fun heq => by
      have hdone : ((loopHandle sampleEnv (.acknowledge firstItem 0) takeover.1).2.1.rows.find
          "one").map QueueRow.status = some .done := by decide +kernel
      have hprocessing : (takeover.1.1.rows.find "one").map QueueRow.status =
          some .processing := by decide +kernel
      rw [heq, hprocessing] at hdone
      cases hdone)
  have hlast : (takeover.1.2.find? fun x => x.itemId = firstItem.itemId).map
      ShadowQueueItem.attempts = some 2 := by decide +kernel
  rw [hholds.1] at hlast
  cases hlast

/-! ## Attempts -/

/-- How often an item was claimed. -/
def claimsOf (claims : List ShadowQueueItem) (itemId : String) : Nat :=
  claims.countP fun x => x.itemId = itemId

/-- The item that is next for a claim has an attempt left, also when it is one whose lease is
over. -/
def unexhausted (n : Int) : LoopOp → Claimed → Bool
  | .claim now _, s =>
    (s.1.nextDue now).all fun row => row.status = .processing → (row.attempts : Int) < n
  | _, _ => true

def Unexhausted (n : Int) (o : LoopOp) (s : Claimed) (_ : Except PyError o.Res)
    (_ : List (LoopProg ShadowIterationResult)) : Prop := unexhausted n o s = true

/-- The row of an item counts its claims, which are at most `n`, and fewer as long as the
item is pending. -/
def Counted (n : Int) (claims : Nat) : Option QueueRow → Prop
  | none => claims = 0
  | some row => claims = row.attempts ∧ (row.attempts : Int) ≤ n ∧
      (row.status = .pending → (row.attempts : Int) < n)

def Tallied (n : Int) (s : Claimed) : Prop :=
  ∀ itemId, Counted n (claimsOf s.2 itemId) (s.1.rows.find itemId)

section

variable {n : Int} {s s' : Claimed} {o : LoopOp} {r : Except PyError o.Res}
  {others : List (LoopProg ShadowIterationResult)}

theorem claimsOf_after (hx : claimedExec o s r s') (itemId : String) :
    claimsOf s'.2 itemId = claimsOf s.2 itemId + claimsOf (claimed o r).toList itemId := by
  rw [claims_after hx, claimsOf, List.countP_append, Nat.add_comm]
  rfl

theorem claimsOf_singleton (item : ShadowQueueItem) (itemId : String) :
    claimsOf (some item).toList itemId = if item.itemId = itemId then 1 else 0 := by
  rw [Option.toList_some, claimsOf, List.countP_singleton]
  simp only [decide_eq_true_eq]

theorem tallied_step (hn : 0 < n) (hx : claimedExec o s r s') (hok : Unexhausted n o s r others)
    (hlim : limits n o) (h : Tallied n s) : Tallied n s' := by
  intro j
  have hj := h j
  have hclaims := claimsOf_after hx j
  have hstep := rowStep hx.1
  generalize claimed o r = claims at hclaims hstep
  rw [hclaims]
  cases hstep with
  | kept hrows =>
    rw [hrows]
    exact hj
  | @added o row _ hnone hattempts hins =>
    rw [Table.find_insert hins]
    split
    · next heq =>
      subst heq
      rw [hnone] at hj
      have hzero : claimsOf s.2 row.itemId = 0 := hj
      exact ⟨hzero.trans hattempts.symm, by omega, fun _ => by omega⟩
    · exact hj
  | @claimed now lease row hnext hq =>
    obtain ⟨hrow, hdue⟩ := nextDue_eq_some hnext
    rw [hq, find_update]
    split
    · next heq =>
      subst heq
      rw [hrow] at hj ⊢
      obtain ⟨hcount, -, hpending⟩ := hj
      have hless : (row.attempts : Int) < n := by
        simp only [due, decide_eq_true_eq] at hdue
        rcases hdue with ⟨hstatus, -⟩ | ⟨hstatus, -⟩
        · exact hpending hstatus
        · have hok : (s.1.nextDue now).all (fun row => row.status = .processing →
              (row.attempts : Int) < n) = true := hok
          rw [hnext, Option.all_some, decide_eq_true_eq] at hok
          exact hok hstatus
      refine ⟨?_, ?_, fun hstatus => by cases hstatus⟩
      · rw [claimsOf_singleton, hcount]
        exact congrArg _ (if_pos rfl)
      · show ((row.attempts + 1 : Nat) : Int) ≤ n
        omega
    · next hne =>
      rw [claimsOf_singleton, if_neg fun heq => hne heq.symm]
      exact hj
  | @finished o item row f hf ho hrow hstatus hq hattempts hpending =>
    rw [hq, find_update]
    split
    · next heq =>
      subst heq
      rw [hrow] at hj ⊢
      exact ⟨hj.1.trans hattempts.symm, by rw [hattempts]; exact hj.2.1,
        fun h => by rw [hattempts]; exact hpending h n hlim⟩
    · exact hj

/-- An item that is dead stays as it is and is not claimed. -/
theorem dead_step {itemId : String} {row : QueueRow} (hx : claimedExec o s r s')
    (hrow : s.1.rows.find itemId = some row) (hdead : row.status = .dead) :
    s'.1.rows.find itemId = some row ∧ claimsOf s'.2 itemId = claimsOf s.2 itemId := by
  have hother : ∀ {j : String} {x : QueueRow}, s.1.rows.find j = some x → x.status ≠ .dead →
      itemId ≠ j := by
    intro j x hj hx heq
    rw [← heq, hrow] at hj
    cases hj
    exact hx hdead
  have hclaims := claimsOf_after hx itemId
  have hstep := rowStep hx.1
  generalize claimed o r = claims at hclaims hstep
  rw [hclaims]
  cases hstep with
  | kept hrows =>
    rw [hrows]
    exact ⟨hrow, rfl⟩
  | @added o x _ hnone _ hins =>
    refine ⟨?_, rfl⟩
    rw [Table.find_insert hins, if_neg]
    · exact hrow
    · intro heq
      rw [← heq, hrow] at hnone
      cases hnone
  | @claimed now lease x hnext hq =>
    obtain ⟨hfind, hdue⟩ := nextDue_eq_some hnext
    have hne := hother hfind fun hstatus => by simp [due, hstatus] at hdue
    refine ⟨by rw [hq, find_update, if_neg hne]; exact hrow, ?_⟩
    rw [claimsOf_singleton, if_neg fun heq => hne heq.symm, Nat.add_zero]
  | @finished o item x f hf ho hfind hstatus hq =>
    have hne := hother hfind (by rw [hstatus]; decide)
    exact ⟨by rw [hq, find_update, if_neg hne]; exact hrow, rfl⟩

/-- Workers of one configuration compare the attempts with its maximum. -/
theorem limits_worker {repr : PyError → String} {config : ShadowLoopConfig}
    {p : LoopProg ShadowIterationResult} (h : Worker repr (fun self => self.config = config) p) :
    p.All (limits config.maximumAttempts) := by
  have hother : ∀ o, isClaim o = false → finishes o = none → limits config.maximumAttempts o := by
    intro o _ hf
    cases o with
    | retryOrDeadLetter _ _ _ _ _ => cases hf
    | _ => trivial
  rcases h with ⟨self, rfl, rfl⟩ | ⟨itemId, payloadUri, available, rfl⟩
  · refine .bind (.perform trivial) fun t => ?_
    refine .bind .lift fun now => ?_
    refine .bind (.perform trivial) fun x => ?_
    cases x with
    | none =>
      refine .bind (.perform trivial) fun _ => ?_
      exact .bind (all_publish hother) fun _ => trivial
    | some item =>
      refine .bind (all_process hother (fun _ => trivial) fun _ _ _ => rfl) fun _ => ?_
      exact .bind (all_publish hother) fun _ => trivial
  · exact .bind (.perform trivial) fun _ => trivial

end

/-- **Attempts are bounded.** As long as the item that is next for a claim has an attempt
left, no item is claimed more often than it may be. After its last attempt it is being
processed, done or dead; and an item that is dead is not claimed again. -/
theorem attempts_bounded (repr : PyError → String) (config : ShadowLoopConfig)
    (c : Claimed × List (LoopProg ShadowIterationResult))
    (h : CrashReach claimedExec (Worker repr fun self => self.config = config)
      (Unexhausted config.maximumAttempts) ({}, []) c) (itemId : String) :
    (claimsOf c.1.2 itemId : Int) ≤ config.maximumAttempts ∧
      (∀ row, c.1.1.rows.find itemId = some row →
        (claimsOf c.1.2 itemId : Int) = config.maximumAttempts →
          row.status = .processing ∨ row.status = .done ∨ row.status = .dead) ∧
      ∀ c', Relation.ReflTransGen (CrashStep claimedExec (Worker repr fun self =>
          self.config = config) (Unexhausted config.maximumAttempts)) c c' →
        ∀ row, c.1.1.rows.find itemId = some row → row.status = .dead →
          c'.1.1.rows.find itemId = some row ∧ claimsOf c'.1.2 itemId = claimsOf c.1.2 itemId := by
  have hn : 0 < config.maximumAttempts := config.limits.1
  have hall : Tallied config.maximumAttempts c.1 ∧ ∀ p ∈ c.2, p.All (limits config.maximumAttempts) := by
    have hempty : Tallied config.maximumAttempts ({}, []) := fun j => rfl
    refine CrashReach.invariant (J := fun c => Tallied config.maximumAttempts c.1 ∧
      ∀ p ∈ c.2, p.All (limits config.maximumAttempts))
      ⟨hempty, fun p hp => absurd hp List.not_mem_nil⟩ (fun c c' hs hc => ⟨?_, ?_⟩) h
    · cases hs with
      | spawn _ => exact hc.1
      | crash => exact hc.1
      | op hx hok =>
        exact tallied_step hn hx hok (hc.2 _ (List.mem_append_right _ List.mem_cons_self)).1 hc.1
    · exact hs.programs (K := fun _ p => p.All (limits config.maximumAttempts))
        (fun _ _ hspawn => limits_worker hspawn) (fun _ h => h.2 _) (fun _ _ _ h => h) hc.2
  have hcounted := hall.1 itemId
  refine ⟨?_, fun row hrow hmax => ?_, fun c' hsteps row hrow hdead => ?_⟩
  · cases hrow : c.1.1.rows.find itemId with
    | none =>
      rw [hrow] at hcounted
      have hzero : claimsOf c.1.2 itemId = 0 := hcounted
      omega
    | some row =>
      rw [hrow] at hcounted
      obtain ⟨hcount, hle, -⟩ := hcounted
      omega
  · rw [hrow] at hcounted
    obtain ⟨hcount, -, hpending⟩ := hcounted
    cases hstatus : row.status with
    | pending =>
      have := hpending hstatus
      omega
    | processing => exact .inl rfl
    | done => exact .inr (.inl rfl)
    | dead => exact .inr (.inr rfl)
  · induction hsteps with
    | refl => exact ⟨hrow, rfl⟩
    | tail _ hs ih =>
      cases hs with
      | spawn _ => exact ih
      | crash => exact ih
      | op hx _ =>
        obtain ⟨hfind, hcount⟩ := dead_step hx ih.1 hdead
        exact ⟨hfind, hcount.trans ih.2⟩

/-- A pool where the item is claimed again after its lease, and may be claimed more often. -/
def claimedTwice : Claimed × List (LoopProg ShadowIterationResult) :=
  runPool (unexhausted 5) (loopHandle sampleEnv) [0, 1, 1, 2, 2] ({}, []) (twoWorkers sampleLoop)

theorem attempts_bounded_twice : claimsOf claimedTwice.1.2 "one" = 2 ∧
    (claimsOf claimedTwice.1.2 "one" : Int) ≤ 5 := by
  have hx : ∀ o s, unexhausted 5 o s = true → claimedExec o s (loopHandle sampleEnv o s).1
      (loopHandle sampleEnv o s).2 ∧ unexhausted 5 o s = true :=
    fun o s hok => ⟨claimedExec_handle sampleEnv o s, hok⟩
  have hreach : PoolReach (fun o s r s' => claimedExec o s r s' ∧ unexhausted 5 o s = true)
      (Worker (fun _ => "error") fun self => self.config = sampleLoop.config) ({}, [])
      claimedTwice :=
    poolReach_runPool (unexhausted 5) (loopHandle sampleEnv) hx
      (worker_twoWorkers sampleLoop (fun self => self.config = sampleLoop.config) rfl) [0, 1, 1, 2, 2]
  have hcrash : CrashReach claimedExec (Worker (fun _ => "error") fun self =>
      self.config = sampleLoop.config) (Unexhausted sampleLoop.config.maximumAttempts) ({}, [])
      claimedTwice :=
    crashReach_of_pool (fun _ _ _ _ _ hx => ⟨hx.1, hx.2⟩) hreach
  exact ⟨by decide +kernel, (attempts_bounded (fun _ => "error") sampleLoop.config claimedTwice
    hcrash "one").1⟩

/-- One attempt is allowed. -/
def onceLoop : ShadowEventLoop where
  config :=
    { maximumAttempts := 1
      durations := by decide +kernel
      limits := by decide
      ordered := by decide +kernel }
  sessionId := "session"
  publishes := false

def claimedAgain : Claimed × List (LoopProg ShadowIterationResult) :=
  runPool (fun _ _ => true) (loopHandle sampleEnv) [0, 1, 1, 2, 2] ({}, []) (twoWorkers onceLoop)

/-- The first worker stops in the only attempt that is allowed: the item is claimed again. -/
theorem claimed_after_last_attempt : ¬ ∀ (repr : PyError → String) (config : ShadowLoopConfig)
    (c : Claimed × List (LoopProg ShadowIterationResult)),
    CrashReach claimedExec (Worker repr fun self => self.config = config) (fun _ _ _ _ => True)
      ({}, []) c →
    ∀ itemId, (claimsOf c.1.2 itemId : Int) ≤ config.maximumAttempts := by
  intro h
  have hreach : CrashReach claimedExec (Worker (fun _ => "error") fun self =>
      self.config = onceLoop.config) (fun _ _ _ _ => True) ({}, []) claimedAgain :=
    crashReach_of_pool (fun _ _ _ _ _ hx => ⟨hx, trivial⟩) (poolReach_runPool (fun _ _ => true)
      (loopHandle sampleEnv) (fun o s _ => claimedExec_handle sampleEnv o s)
      (worker_twoWorkers onceLoop (fun self => self.config = onceLoop.config) rfl) [0, 1, 1, 2, 2])
  have hle := h (fun _ => "error") onceLoop.config claimedAgain hreach "one"
  have htwo : claimsOf claimedAgain.1.2 "one" = 2 := by decide +kernel
  rw [htwo] at hle
  exact absurd hle (by decide)

end Greenfield.Shadow
