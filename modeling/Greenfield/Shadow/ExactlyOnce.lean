import Greenfield.Lib.Interference
import Greenfield.Shadow.InStep
import Greenfield.Shadow.Lease
import Greenfield.Shadow.Service
import Greenfield.Shadow.Torn

/-!
# Exactly one audit record

The queue hands an item out at least once, and the journal refuses a second record of an
observation. A worker that finds the record of its item there has crashed between the
append and the acknowledgement, and acknowledges now. So an item is done only when its
record is held, and no identifier is held twice (`exactly_once`), in every run in which no
append is cut just before its line feed and none raises with its line made. A line without
its line feed is verified as any other, but is lost with the next one (`unended_line_lost`).
-/

namespace Greenfield.Shadow

open Keyed Py Risk Effects ShadowRuntime DurableShadowQueue

variable {D : Digests} {F : Floats} {lower : String → String} {rs : List ShadowAuditRecord}

/-- The text of the journal. -/
def ShadowRuntime.text (r : ShadowRuntime) : String := r.journal.file.getD ""

/-- No append is cut just before its line feed, and none raises with its line made, unless the
process ends there. -/
def Ended (D : Digests) (F : Floats) : Permit := fun goesOn r result r' =>
  (∀ x, r'.text ≠ r.text ++ recordLine D F r.journal.lastHash x) ∧
    (goesOn = true → ∀ err, result = .error err →
      ∀ x, r'.text ≠ r.text ++ (recordLine D F r.journal.lastHash x ++ "\n"))

/-- What the service has done exactly once. -/
structure ExactlyOnce (F : Floats) (s : ShadowService) : Prop where
  once : (heldIds F s.runtime.journal.file).Nodup
  done : ∀ row ∈ s.queue.rows.rows, row.status = .done →
    row.itemId ∈ heldIds F s.runtime.journal.file

/-! ## Calls of the runtime -/

namespace ShadowRuntime

variable {r r' : ShadowRuntime} {entry : AuditEntry} {result : Except PyError ShadowAuditRecord}

/-- A call raises and leaves the journal, or answers and raises as its append does. -/
def Appends (D : Digests) (F : Floats) (r : ShadowRuntime)
    (result : Except PyError ShadowAuditRecord) (r' : ShadowRuntime) : Prop :=
  (∃ err, result = .error err ∧ r'.journal = r.journal) ∨ ∃ x fault,
    (∃ checksum, r.journal.append D F x fault = (.ok checksum, r'.journal) ∧ result = .ok x) ∨
      ∃ err, r.journal.append D F x fault = (.error err, r'.journal) ∧ result = .error err

theorem record_appends {fault : Option WriteFault} (h : r.record D F entry fault = (result, r')) :
    Appends D F r result r' := by
  unfold ShadowRuntime.record at h
  split at h
  · cases h
    exact .inl ⟨_, rfl, rfl⟩
  · next x _ =>
    split at h
    · next err journal happend =>
      cases h
      exact .inr ⟨x, fault, .inr ⟨err, happend, rfl⟩⟩
    · next checksum journal happend =>
      cases h
      exact .inr ⟨x, fault, .inl ⟨checksum, happend, rfl⟩⟩

variable {faults : Faults}

theorem call_appends {c : RuntimeCall}
    (h : r.call D F lower c faults = (result, r')) : Appends D F r result r' := by
  rw [call_eq] at h
  unfold perform at h
  split at h
  · cases h
    exact .inl ⟨_, rfl, rfl⟩
  · exact record_appends h
  · unfold adopt at h
    split at h
    · cases h
      exact .inl ⟨_, rfl, rfl⟩
    · have happends := record_appends h
      exact happends

variable {decision : MetaDecision} {observationId : String}
  {proposals : List PortfolioEntryProposal} {equity : ℚ}

/-- An observation is recorded under its identifier. -/
theorem observation_named
    {plan : Plan}
    (h : r.observation lower decision observationId proposals equity = .ok plan) :
    (match plan with
      | .audited entry => entry.observationId
      | .adopted _ entry => entry.observationId) = observationId := by
  unfold observation at h
  obtain ⟨-, -, h⟩ := bind_eq_ok.mp h
  split at h
  · obtain ⟨-, -, h⟩ := bind_eq_ok.mp h
    cases h
    rfl
  · simp only [bind_eq_ok] at h
    obtain ⟨-, -, e, he, staging, hstaging, h⟩ := h
    split at h
    · cases h
      rfl
    · split at h
      · cases h
        rfl
      · cases h
        rfl

theorem observe_named
    {x : ShadowAuditRecord}
    (h : r.call D F lower (.observe decision observationId proposals equity) faults = (.ok x, r')) :
    x.observationId = observationId := by
  change r.perform D F (r.observation lower decision observationId proposals equity) faults = _ at h
  cases hplan : r.observation lower decision observationId proposals equity with
  | error err =>
    rw [hplan] at h
    cases h
  | ok plan =>
    rw [hplan] at h
    have hnamed := observation_named hplan
    cases plan with
    | audited entry =>
      exact (congrArg AuditFields.observationId (checked_status (record_eq_ok h).1)).trans hnamed
    | adopted staged entry =>
      obtain ⟨saved, savedAt, -, -, -, -, hchecked, -⟩ := adopt_eq_ok h
      exact (congrArg AuditFields.observationId (checked_status hchecked)).trans hnamed

/-- What is left of a call that raises: the journal as it was, the beginning of a line, or the
whole line of a process that ends there. -/
inductive Left (D : Digests) (F : Floats) (rs : List ShadowAuditRecord) (goesOn : Bool)
    (err : PyError) (j : ShadowAuditJournal) : Prop where
  | same (h : Wrote D F j rs)
  | torn {torn : List Char} (hne : torn ≠ []) (h : Kept D F j.file rs torn) {msg : String}
      (herr : err = .shadowAudit msg)
  | whole {x : ShadowAuditRecord} (hdown : goesOn = false) (h : Kept D F j.file (rs ++ [x]) [])

theorem Appends.left (hwrote : Wrote D F r.journal rs) {goesOn : Bool}
    (hended : Ended D F goesOn r result r') (h : Appends D F r result r') :
    (∃ x, result = .ok x ∧ Wrote D F r'.journal (rs ++ [x])) ∨
      ∃ err, result = .error err ∧ Left D F rs goesOn err r'.journal := by
  rcases h with ⟨err, rfl, hjournal⟩ | ⟨x, fault, ⟨checksum, happend, rfl⟩ | ⟨err, happend, rfl⟩⟩
  · exact .inr ⟨err, rfl, .same (hjournal ▸ hwrote)⟩
  · exact .inl ⟨x, rfl, append_eq_ok hwrote happend⟩
  · refine .inr ⟨err, rfl, ?_⟩
    rcases append_cases r.journal x fault with ⟨e, heq⟩ | ⟨hnew, ⟨c, j, heq⟩ |
      ⟨e, written, rest, hline, hreported, heq⟩⟩
    · rw [heq] at happend
      rw [← (Prod.mk.inj happend).2]
      exact .same hwrote
    · rw [heq] at happend
      cases happend
    · rw [heq] at happend
      obtain ⟨herr, hj⟩ := Prod.mk.inj happend
      cases herr
      have htext : r'.text = r.text ++ String.ofList written := by
        unfold ShadowRuntime.text
        rw [← hj, Option.getD_some]
      rcases List.eq_nil_or_concat' rest with rfl | ⟨rest, c, rfl⟩
      · rw [List.append_nil] at hline
        rw [← hline, String.ofList_toList] at htext hj
        cases goesOn with
        | true => exact absurd htext (hended.2 rfl err rfl x)
        | false =>
          rw [← hj]
          exact .whole rfl (hwrote.longer hnew)
      · have hwritten : (recordLine D F r.journal.lastHash x).toList = written ++ rest := by
          rw [String.toList_append, ← List.append_assoc] at hline
          exact (List.append_inj' hline rfl).1
        by_cases hrest : rest = []
        · rw [hrest, List.append_nil] at hwritten
          rw [← hwritten, String.ofList_toList] at htext
          exact absurd htext (hended.1 x)
        · obtain ⟨msg, rfl⟩ := hreported (by simp)
          by_cases hnil : written = []
          · subst hnil
            have hempty : r.journal.file.getD "" ++ String.ofList [] = r.journal.file.getD "" :=
              String.append_empty
            rw [← hj, hempty]
            exact .same ⟨hwrote.text, hwrote.ids, hwrote.last, hwrote.distinct⟩
          · rw [← hj]
            exact .torn hnil (hwrote.cut hrest hwritten) rfl

end ShadowRuntime

/-! ## The queue -/

/-- The item that an operation makes done. -/
def completes : LoopOp → Option String
  | .acknowledge item _ => some item.itemId
  | _ => none

/-- What a transaction does to the rows: nothing, it rewrites one that is not done, or it adds
one. -/
inductive RowChange (o : LoopOp) (q q' : DurableShadowQueue) : Prop where
  | same (h : q'.rows = q.rows)
  | rewritten {row : QueueRow} {f : QueueRow → QueueRow} (hf : ∀ r, (f r).itemId = r.itemId)
      (hrow : q.rows.find row.itemId = some row) (hlive : row.status ≠ .done)
      (huri : (f row).payloadUri = row.payloadUri)
      (hdone : (f row).status = .done → completes o = some row.itemId)
      (h : q'.rows = q.rows.modify row.itemId f hf)
  | added {row : QueueRow} {available : Datetime} (hstatus : row.status = .pending)
      (ho : o = .enqueue row.itemId row.payloadUri available)
      (h : q'.rows.rows = q.rows.rows ++ [row])

section

variable {q q' : DurableShadowQueue} {ids : List String}

variable {available : Datetime} {added : Bool}

theorem enqueue_change {itemId payloadUri : String}
    (h : q.enqueue itemId payloadUri available = .ok (added, q')) :
    RowChange (.enqueue itemId payloadUri available) q q' := by
  simp only [DurableShadowQueue.enqueue, bind_eq_ok] at h
  obtain ⟨-, -, i, -, h⟩ := h
  split at h
  · simp only [bind_eq_ok] at h
    obtain ⟨-, -, h⟩ := h
    cases h
    exact .same rfl
  · next rows hnone hins =>
    cases h
    exact .added rfl rfl (Table.insert_eq_some.mp hins).2
  · cases h

variable {o : LoopOp}

theorem loopExec_change {answer : Except PyError o.Res}
    (h : loopExec o q answer q') : RowChange o q q' := by
  unfold loopExec at h
  split at h
  · next t htxn =>
    rcases h with h | ⟨rfl, -⟩
    · rcases outcome_cases h with ⟨a, -, hok⟩ | ⟨e, -, -, rfl⟩
      · subst hok
        cases o with
        | enqueue itemId payloadUri available =>
          exact enqueue_change (Option.some.inj htxn)
        | claim now lease =>
          rcases claim_cases (Option.some.inj htxn) with ⟨-, rfl⟩ | ⟨row, hnext, -, rfl⟩
          · exact .same rfl
          · obtain ⟨hrow, hdue⟩ := nextDue_eq_some hnext
            refine .rewritten (claimRow_itemId _) hrow ?_ rfl (fun hdone => by cases hdone) rfl
            intro hdone
            rw [due, hdone] at hdue
            exact absurd hdue (by simp)
        | acknowledge item completed =>
          obtain ⟨row, hrow, hstatus, rfl⟩ := acknowledge_cases (Option.some.inj htxn)
          have hid := Table.find_key hrow
          rw [← hid] at hrow
          refine .rewritten (acknowledgeRow_itemId _) hrow (by rw [hstatus]; decide) rfl (fun _ => ?_)
            (show _ = q.rows.modify row.itemId _ _ by rw [hid]; rfl)
          rw [hid]
          rfl
        | retryOrDeadLetter item error failedAt retryAt m =>
          obtain ⟨row, hrow, hstatus, rfl, rfl⟩ := retryOrDeadLetter_cases (Option.some.inj htxn)
          have hid := Table.find_key hrow
          rw [← hid] at hrow
          refine .rewritten (retryRow_itemId _ _ _ _) hrow (by rw [hstatus]; decide) rfl (fun hdone => ?_)
            (show _ = q.rows.modify row.itemId _ _ by rw [hid]; rfl)
          simp only [retryRow] at hdone
          split at hdone <;> cases hdone
        | recordSuccess now =>
          cases Option.some.inj htxn
          exact .same rfl
        | recordFailure now error =>
          have hok := Option.some.inj htxn
          simp only [DurableShadowQueue.recordFailure, bind_eq_ok] at hok
          obtain ⟨-, -, hok⟩ := hok
          cases hok
          exact .same rfl
        | recordHeartbeat now =>
          cases Option.some.inj htxn
          exact .same rfl
        | _ => cases htxn
      · exact .same rfl
    · exact .same rfl
  · rw [h]
    exact .same rfl

/-- A row that is done is never written again. -/
theorem RowChange.keeps_done (h : RowChange o q q') {row : QueueRow}
    (hrow : row ∈ q.rows.rows) (hdone : row.status = .done) : row ∈ q'.rows.rows := by
  cases h with
  | same h =>
    rw [h]
    exact hrow
  | @rewritten live f hf hfind hlive huri hto h =>
    rw [h]
    refine Table.mem_modify.mpr (.inl ⟨hrow, fun hid => hlive ?_⟩)
    rw [← Table.eq_of_key_eq hrow (Table.find_mem hfind) hid]
    exact hdone
  | added hstatus ho h =>
    rw [h]
    exact List.mem_append_left _ hrow

/-- An item is of the observation that its URI names, and is done only if this is one of `ids`. -/
structure Filed (q : DurableShadowQueue) (ids : List String) : Prop where
  uri : ∀ row ∈ q.rows.rows, parseShadowWorkUri row.payloadUri = some row.itemId
  done : ∀ row ∈ q.rows.rows, row.status = .done → row.itemId ∈ ids

theorem Filed.mono (h : Filed q ids) {ids' : List String} (hsub : ∀ id ∈ ids, id ∈ ids') :
    Filed q ids' := ⟨h.uri, fun row hrow hdone => hsub _ (h.done row hrow hdone)⟩

theorem RowChange.filed (hchange : RowChange o q q') (h : Filed q ids)
    (huri : ∀ id uri available, o = .enqueue id uri available → parseShadowWorkUri uri = some id)
    (hdone : ∀ id, completes o = some id → id ∈ ids) : Filed q' ids := by
  cases hchange with
  | same hrows => exact ⟨hrows ▸ h.uri, hrows ▸ h.done⟩
  | @rewritten live f hf hfind hlive hsame hto hrows =>
    refine ⟨fun row hrow => ?_, fun row hrow hstatus => ?_⟩
    · rw [hrows] at hrow
      rcases Table.mem_modify.mp hrow with ⟨hrow, -⟩ | ⟨r, hr, rfl⟩
      · exact h.uri row hrow
      · cases hfind.symm.trans hr
        rw [hsame, hf]
        exact h.uri live (Table.find_mem hfind)
    · rw [hrows] at hrow
      rcases Table.mem_modify.mp hrow with ⟨hrow, -⟩ | ⟨r, hr, rfl⟩
      · exact h.done row hrow hstatus
      · cases hfind.symm.trans hr
        rw [hf]
        exact hdone _ (hto hstatus)
  | added hstatus ho hrows =>
    refine ⟨fun row hrow => ?_, fun row hrow hrowStatus => ?_⟩
    · rw [hrows] at hrow
      rcases List.mem_append.mp hrow with hrow | hrow
      · exact h.uri row hrow
      · rw [List.mem_singleton.mp hrow]
        exact huri _ _ _ ho
    · rw [hrows] at hrow
      rcases List.mem_append.mp hrow with hrow | hrow
      · exact h.done row hrow hrowStatus
      · rw [List.mem_singleton.mp hrow, hstatus] at hrowStatus
        cases hrowStatus

/-- A URI that is built names its observation. -/
theorem parseShadowWorkUri_build {observationId uri : String}
    (h : buildShadowWorkUri observationId = some uri) :
    parseShadowWorkUri uri = some observationId := by
  unfold buildShadowWorkUri at h
  split at h
  · next hid =>
    cases h
    have hstarts : startsWith (shadowWorkUriScheme ++ observationId) shadowWorkUriScheme = true := by
      unfold startsWith
      rw [String.toList_append]
      exact List.isPrefixOf_iff_prefix.mpr (List.prefix_append _ _)
    have hrest : String.ofList ((shadowWorkUriScheme ++ observationId).toList.drop
        shadowWorkUriScheme.length) = observationId := by
      rw [String.toList_append, ← String.length_toList, List.drop_left, String.ofList_toList]
    unfold parseShadowWorkUri
    rw [if_pos hstarts]
    simp only [hrest, if_pos hid]
  · cases h

theorem enqueueShadowWork_change {work : ShadowWork}
    (h : enqueueShadowWork q work available = some (.ok (added, q'))) : ∃ o, RowChange o q q' ∧
      completes o = none ∧
      ∀ id uri at', o = .enqueue id uri at' → parseShadowWorkUri uri = some id := by
  obtain ⟨uri, huri, h⟩ := Option.bind_eq_some_iff.mp h
  refine ⟨_, enqueue_change (Option.some.inj h), rfl, ?_⟩
  rintro id uri' at' heq
  cases heq
  exact parseShadowWorkUri_build huri

end

/-! ## The service -/

/-- The journal and the queue of a process that can go on: the records are `rs`, and the process
knows them. -/
structure Ready (D : Digests) (F : Floats) (rs : List ShadowAuditRecord) (s : ShadowService) :
    Prop where
  wrote : Wrote D F s.runtime.journal rs
  filed : Filed s.queue (rs.map (·.observationId))

/-- What is in the files, whatever the process knows. -/
def Stored (D : Digests) (F : Floats) (s : ShadowService) : Prop :=
  ∃ rs torn, Kept D F s.runtime.journal.file rs torn ∧ Filed s.queue (rs.map (·.observationId))

/-- The process has crashed. -/
def Lost (D : Digests) (F : Floats) (s : ShadowService) : Prop := s.alive = false ∧ Stored D F s

variable {s : ShadowService}

theorem Ready.stored (h : Ready D F rs s) : Stored D F s :=
  ⟨rs, [], h.wrote.kept, h.filed⟩

theorem Stored.exactlyOnce (h : Stored D F s) : ExactlyOnce F s := by
  obtain ⟨rs, torn, hkept, hfiled⟩ := h
  exact ⟨hkept.held ▸ hkept.distinct, hkept.held ▸ hfiled.done⟩

theorem Enqueues.filed {s s' : ShadowService} (h : Enqueues s s') {ids : List String}
    (hfiled : Filed s.queue ids) : s'.runtime = s.runtime ∧ s'.alive = s.alive ∧
      Filed s'.queue ids := by
  obtain ⟨work, available, added, queue, henqueue, rfl⟩ := h
  obtain ⟨o, hchange, hnone, huri⟩ := enqueueShadowWork_change henqueue
  exact ⟨rfl, rfl, hchange.filed hfiled huri fun id hid => by rw [hnone] at hid; cases hid⟩

theorem stable_ready : Stable Enqueues (Ready D F rs) := by
  intro s s' h hs
  obtain ⟨hruntime, -, hfiled⟩ := h.filed hs.filed
  exact ⟨hruntime ▸ hs.wrote, hfiled⟩

theorem stable_stored : Stable Enqueues (Stored D F) := by
  rintro s s' h ⟨rs, torn, hkept, hfiled⟩
  obtain ⟨hruntime, -, hfiled'⟩ := h.filed hfiled
  exact ⟨rs, torn, hruntime ▸ hkept, hfiled'⟩

theorem stable_lost : Stable Enqueues (Lost D F) := by
  rintro s s' h ⟨hdown, rs, torn, hkept, hfiled⟩
  obtain ⟨-, halive, -⟩ := h.filed hfiled
  exact ⟨halive.trans hdown, stable_stored s s' h ⟨rs, torn, hkept, hfiled⟩⟩

/-! ### Operations of the process -/

section

variable (D F lower) in
/-- The weakest precondition of a program of the process, among producers. -/
abbrev wpService {α : Type} (p : LoopProg α) (Q : α → ShadowService → Prop)
    (E : PyError → ShadowService → Prop) (s : ShadowService) : Prop :=
  wp (among Enqueues (serviceExec D F lower (Ended D F))) (Stored D F) p Q E s

variable (D F) in
/-- What holds of a process that has crashed. -/
def Forgets {α : Type} (Q : α → ShadowService → Prop) (E : PyError → ShadowService → Prop) : Prop :=
  (∀ a s, Lost D F s → Q a s) ∧ ∀ e s, Lost D F s → E e s

variable {α β : Type} {o : LoopOp} {s : ShadowService} {Q : α → ShadowService → Prop}
  {E : PyError → ShadowService → Prop}

theorem wp_lost (hforgets : Forgets D F Q E) (hs : Lost D F s) (p : LoopProg α) :
    wpService D F lower p Q E s := by
  refine wp_keeps_among stable_lost (fun o s r s' hx hs => ?_) (fun s hs => hs.2) hforgets.1
    hforgets.2 hs
  unfold serviceExec at hx
  rw [if_neg (by rw [hs.1]; decide)] at hx
  rw [hx]
  exact hs

variable {Q : o.Res → ShadowService → Prop}

/-- An operation of a process that goes on. -/
theorem wp_act {R : Except PyError o.Res → ShadowService → Prop}
    (hR : ∀ answer, Stable Enqueues (R answer)) (hs : Ready D F rs s)
    (hdoes : ∀ s answer s', Ready D F rs s → o.does D F lower (Ended D F) true s answer s' →
      R answer s')
    (hcrash : ∀ s answer s', Ready D F rs s → o.does D F lower (Ended D F) false s answer s' →
      Stored D F s')
    (hforgets : Forgets D F Q E) (hok : ∀ a s', R (.ok a) s' → Q a s')
    (herr : ∀ e s', R (.error e) s' → E e s') : wpService D F lower (act o) Q E s := by
  refine wp_perform_among (R := fun answer s' => Lost D F s' ∨ R answer s') stable_ready
    (fun answer s s' h hs => hs.imp (stable_lost s s' h) (hR answer s s' h)) ?_ hs.stored hs
    (fun a s' h => h.elim (hforgets.1 a s') (hok a s'))
    (fun e s' h => h.elim (hforgets.2 e s') (herr e s'))
  intro s answer s' hs hx
  unfold serviceExec at hx
  split at hx
  · rcases hx with hx | rfl | ⟨answer', s₁, hx, rfl⟩
    · exact .inr (hdoes s answer s' hs hx)
    · exact .inl ⟨rfl, hs.stored⟩
    · exact .inl ⟨rfl, hcrash s answer' s₁ hs hx⟩
  · next hdown =>
    rw [hx]
    exact .inl ⟨by simpa using hdown, hs.stored⟩

/-- An operation that writes no line, and makes no item done. -/
def quiet : LoopOp → Bool
  | .enqueue .. | .acknowledge .. | .observe _ | .activateSafetyHold .. => false
  | _ => true

variable {goesOn : Bool}

variable {s' : ShadowService}

theorem Ready.quiet {answer : Except PyError o.Res}
    (h : Ready D F rs s) (hquiet : quiet o = true)
    (hx : o.does D F lower (Ended D F) goesOn s answer s') : Ready D F rs s' := by
  have htxn : ∀ {queue : DurableShadowQueue}, loopExec o s.queue answer queue →
      s' = { s with queue } → Ready D F rs s' := by
    rintro queue hqueue rfl
    refine ⟨h.wrote, (loopExec_change hqueue).filed h.filed ?_ ?_⟩
    · rintro id uri available rfl
      cases hquiet
    · intro id hid
      cases o <;> cases hquiet <;> cases hid
  cases o with
  | clock => exact hx ▸ h
  | publish => exact hx ▸ h
  | load uri => exact hx.1 ▸ h
  | find observationId => exact hx.1 ▸ h
  | killSwitchActive => exact hx.1 ▸ h
  | enqueue | acknowledge | observe | activateSafetyHold => cases hquiet
  | _ =>
    obtain ⟨queue, hqueue, heq⟩ := hx
    exact htxn hqueue heq

/-- A quiet operation, with what its answer says. -/
theorem wp_quiet {R : Except PyError o.Res → Prop}
    (hquiet : quiet o = true) (hs : Ready D F rs s)
    (hfact : ∀ s answer s', Ready D F rs s → o.does D F lower (Ended D F) true s answer s' →
      R answer)
    (hforgets : Forgets D F Q E) (hok : ∀ a s', R (.ok a) → Ready D F rs s' → Q a s')
    (herr : ∀ e s', Ready D F rs s' → E e s') : wpService D F lower (act o) Q E s :=
  wp_act (R := fun answer s' => R answer ∧ Ready D F rs s')
    (fun _ s s' h hs => ⟨hs.1, stable_ready s s' h hs.2⟩) hs
    (fun s answer s' hs hx => ⟨hfact s answer s' hs hx, hs.quiet hquiet hx⟩)
    (fun _ _ _ hs hx => (hs.quiet hquiet hx).stored) hforgets (fun a s' h => hok a s' h.1 h.2)
    (fun e s' h => herr e s' h.2)

variable {s : ShadowService}

/-- The files after a call of the runtime that raises. -/
theorem ShadowRuntime.Left.stored {err : PyError}
    (h : Left D F rs goesOn err s.runtime.journal) (hfiled : Filed s.queue (rs.map (·.observationId))) :
    Stored D F s := by
  cases h with
  | same h => exact ⟨rs, [], h.kept, hfiled⟩
  | torn hne h herr => exact ⟨rs, _, h, hfiled⟩
  | @whole x hdown h =>
    refine ⟨rs ++ [x], [], h, hfiled.mono fun id hid => ?_⟩
    rw [List.map_append]
    exact List.mem_append_left _ hid

/-- What a call of the runtime leaves of a service. -/
def Called (D : Digests) (F : Floats) (rs : List ShadowAuditRecord) (goesOn : Bool)
    (answer : Except PyError Unit) (s : ShadowService) : Prop :=
  Filed s.queue (rs.map (·.observationId)) ∧
    ((∃ x, answer = .ok () ∧ Wrote D F s.runtime.journal (rs ++ [x])) ∨
      ∃ err, answer = .error err ∧ Left D F rs goesOn err s.runtime.journal)

variable {answer : Except PyError Unit}

theorem Ready.called {c : RuntimeCall}
    (h : Ready D F rs s)
    (hcall : s.calls D F lower (Ended D F) goesOn c answer s') : Called D F rs goesOn answer s' := by
  obtain ⟨faults, result, runtime, heq, hended, rfl, rfl⟩ := hcall
  refine ⟨h.filed, ?_⟩
  rcases (call_appends heq).left h.wrote hended with ⟨x, rfl, hwrote⟩ | ⟨err, rfl, hleft⟩
  · exact .inl ⟨x, rfl, hwrote⟩
  · exact .inr ⟨err, rfl, hleft⟩

theorem Filed.append {q : DurableShadowQueue} {x : ShadowAuditRecord}
    (h : Filed q (rs.map (·.observationId))) : Filed q ((rs ++ [x]).map (·.observationId)) := by
  refine h.mono fun id hid => ?_
  rw [List.map_append]
  exact List.mem_append_left _ hid

theorem Called.stored
    (h : Called D F rs goesOn answer s) : Stored D F s := by
  obtain ⟨hfiled, ⟨x, -, hwrote⟩ | ⟨err, -, hleft⟩⟩ := h
  · exact ⟨rs ++ [x], [], hwrote.kept, hfiled.append⟩
  · exact hleft.stored hfiled

theorem stable_called (answer : Except PyError Unit) :
    Stable Enqueues (Called D F rs goesOn answer) := by
  rintro s s' h ⟨hfiled, hcases⟩
  obtain ⟨hruntime, -, hfiled'⟩ := h.filed hfiled
  rw [Called, hruntime]
  exact ⟨hfiled', hcases⟩

/-! ### `run_once` -/

/-- A process that has crashed, or that can go on. -/
def Standing (D : Digests) (F : Floats) (s : ShadowService) : Prop :=
  Lost D F s ∨ ∃ rs, Ready D F rs s

theorem forgets_standing {α : Type} :
    Forgets D F (fun (_ : α) s => Standing D F s) (fun _ s => Stored D F s) :=
  ⟨fun _ _ h => .inl h, fun _ _ h => h.2⟩

/-- Every run of the program leaves the files in order, and the process can go on if it returns. -/
abbrev Sound (D : Digests) (F : Floats) (lower : String → String) {α : Type} (p : LoopProg α)
    (s : ShadowService) : Prop :=
  wpService D F lower p (fun _ => Standing D F) (fun _ => Stored D F) s

theorem forgets_sound {α β : Type} {f : α → LoopProg β} :
    Forgets D F (fun a s => Sound D F lower (f a) s) (fun _ s => Stored D F s) :=
  ⟨fun a _ h => wp_lost forgets_standing h (f a), fun _ _ h => h.2⟩

variable {item : ShadowQueueItem} {now : Instant} {self : ShadowEventLoop} {repr : PyError → String}

theorem sound_quiet {f : o.Res → LoopProg β} (hquiet : quiet o = true) (hs : Ready D F rs s)
    (hok : ∀ a s', Ready D F rs s' → Sound D F lower (f a) s') :
    Sound D F lower (act o >>= f) s :=
  (wp_bind f).mpr (wp_quiet (R := fun _ => True) hquiet hs (fun _ _ _ _ _ => trivial)
    forgets_sound (fun a s' _ h => hok a s' h) (fun _ _ h => h.stored))

theorem sound_publish {result : ShadowIterationResult} (hs : Ready D F rs s) :
    Sound D F lower (do self.publish; pure result) s := by
  unfold ShadowEventLoop.publish
  split
  · exact sound_quiet rfl hs fun _ s' h => .inr ⟨rs, h⟩
  · exact .inr ⟨rs, hs⟩

/-- An item of which the record is held is acknowledged. -/
theorem wp_finish {Q : Unit → ShadowService → Prop} (hs : Ready D F rs s)
    (hid : item.itemId ∈ rs.map (·.observationId)) (hforgets : Forgets D F Q E)
    (hok : ∀ s', Ready D F rs s' → Q () s') (herr : ∀ e s', Ready D F rs s' → E e s') :
    wpService D F lower (ShadowEventLoop.finish item now) Q E s := by
  have hack : ∀ {goesOn : Bool} (s : ShadowService) answer s', Ready D F rs s →
      (LoopOp.acknowledge item now).does D F lower (Ended D F) goesOn s answer s' →
      Ready D F rs s' := by
    rintro goesOn s answer s' hs ⟨queue, hqueue, rfl⟩
    refine ⟨hs.wrote, (loopExec_change hqueue).filed hs.filed ?_ ?_⟩
    · rintro id uri available h
      cases h
    · rintro id h
      cases h
      exact hid
  refine (wp_bind _).mpr (wp_act (R := fun _ s' => Ready D F rs s')
    (fun _ => stable_ready) hs hack (fun s answer s' hs hx => (hack s answer s' hs hx).stored)
    ⟨fun _ _ h => wp_lost hforgets h _, hforgets.2⟩ (fun _ s' h => ?_) (fun e s' h => herr e s' h))
  exact wp_quiet (R := fun _ => True) rfl h (fun _ _ _ _ _ => trivial) hforgets
    (fun _ s' _ h => hok s' h) herr

variable {error : String}

/-- A safety hold leaves the files in order, and raises if its line is cut. -/
theorem sound_hold (hs : Ready D F rs s) :
    Sound D F lower (self.hold item now error) s := by
  refine sound_quiet rfl hs fun held s' hs => ?_
  split
  · exact .inr ⟨rs, hs⟩
  · refine wp_act (R := Called D F rs true) stable_called hs
      (fun s answer s' hs hx => hs.called hx) (fun s answer s' hs hx => (hs.called hx).stored)
      forgets_standing (fun _ s' h => ?_) (fun _ s' h => h.stored)
    obtain ⟨hfiled, ⟨x, -, hwrote⟩ | ⟨err, heq, -⟩⟩ := h
    · exact .inr ⟨rs ++ [x], hwrote, hfiled.append⟩
    · cases heq

theorem sound_handleFailure (hs : Ready D F rs s) :
    Sound D F lower (self.handleFailure item now error) s := by
  refine sound_quiet rfl hs fun status s' hs => sound_quiet rfl hs fun consecutive s' hs => ?_
  split
  · refine sound_quiet rfl hs fun active s' hs => ?_
    split
    · exact .inr ⟨rs, hs⟩
    · refine (wp_bind _).mpr (wp_attempt.mpr (wp_mono (fun _ h => h) ?_ ?_ (sound_hold hs)))
      · exact fun _ s h => h
      · exact fun _ s h => h
  · exact .inr ⟨rs, hs⟩

/-- A process with a line that is cut. -/
def Cut (D : Digests) (F : Floats) (s : ShadowService) : Prop :=
  ∃ rs torn, torn ≠ [] ∧ Kept D F s.runtime.journal.file rs torn ∧
    Filed s.queue (rs.map (·.observationId))

/-- A process in which an observation, or what follows it, has raised. -/
inductive Faulted (D : Digests) (F : Floats) (e : PyError) (s : ShadowService) : Prop where
  | lost (h : Lost D F s)
  | ready {rs : List ShadowAuditRecord} (h : Ready D F rs s)
  | cut {msg : String} (herr : e = .shadowAudit msg) (h : Cut D F s)

theorem stable_cut : Stable Enqueues (Cut D F) := by
  rintro s s' h ⟨rs, torn, hne, hkept, hfiled⟩
  obtain ⟨hruntime, -, hfiled'⟩ := h.filed hfiled
  exact ⟨rs, torn, hne, hruntime ▸ hkept, hfiled'⟩

theorem Cut.stored (h : Cut D F s) : Stored D F s := by
  obtain ⟨rs, torn, -, hkept, hfiled⟩ := h
  exact ⟨rs, torn, hkept, hfiled⟩

/-- What an observation does: it records its identifier, or it raises. -/
def Observed (D : Digests) (F : Floats) (observationId : String) (answer : Except PyError Unit)
    (s : ShadowService) : Prop :=
  (∃ rs, Ready D F rs s ∧ (answer = .ok () → observationId ∈ rs.map (·.observationId))) ∨
    Cut D F s ∧ ∃ msg, answer = .error (.shadowAudit msg)

theorem stable_observed {observationId : String} (answer : Except PyError Unit) :
    Stable Enqueues (Observed D F observationId answer) := by
  rintro s s' h (⟨rs, hs, hid⟩ | ⟨hcut, herr⟩)
  · exact .inl ⟨rs, stable_ready s s' h hs, hid⟩
  · exact .inr ⟨stable_cut s s' h hcut, herr⟩

variable {work : ShadowWork}

theorem Ready.observed
    (h : Ready D F rs s)
    (hcall : (LoopOp.observe work).does D F lower (Ended D F) true s answer s') :
    Observed D F work.observationId answer s' := by
  obtain ⟨faults, result, runtime, heq, hended, rfl, rfl⟩ := hcall
  rcases (call_appends heq).left h.wrote hended with ⟨x, rfl, hwrote⟩ | ⟨err, rfl, hleft⟩
  · refine .inl ⟨rs ++ [x], ⟨hwrote, h.filed.append⟩, fun _ => ?_⟩
    rw [← observe_named heq, List.map_append]
    exact List.mem_append_right _ List.mem_cons_self
  · cases hleft with
    | same hwrote => exact .inl ⟨rs, ⟨hwrote, h.filed⟩, fun hok => by cases hok⟩
    | torn hne hkept herr =>
      rw [herr]
      exact .inr ⟨⟨rs, _, hne, hkept, h.filed⟩, _, rfl⟩
    | whole hdown => cases hdown

theorem wp_observed (hs : Ready D F rs s)
    (hid : work.observationId = item.itemId) :
    wpService D F lower (do act (.observe work); ShadowEventLoop.finish item now)
      (fun _ => Standing D F) (Faulted D F) s := by
  have hforgets : Forgets D F (fun (_ : Unit) s => Standing D F s) (Faulted D F) :=
    ⟨fun _ _ h => .inl h, fun _ _ h => .lost h⟩
  refine (wp_bind _).mpr (wp_act (R := Observed D F work.observationId) stable_observed hs
    (fun s answer s' hs hx => hs.observed hx) (fun s answer s' hs hx => (hs.called hx).stored)
    ⟨fun _ _ h => wp_lost hforgets h _, hforgets.2⟩ (fun _ s' h => ?_) (fun e s' h => ?_))
  · rcases h with ⟨rs, hs, hrecorded⟩ | ⟨-, msg, hno⟩
    · have hitem := hrecorded rfl
      rw [hid] at hitem
      exact wp_finish hs hitem hforgets (fun s' h => .inr ⟨rs, h⟩) (fun e s' h => .ready h)
    · cases hno
  · rcases h with ⟨rs, hs, -⟩ | ⟨hcut, msg, herr⟩
    · exact .ready hs
    · exact .cut (Except.error.inj herr) hcut

/-- After an observation that raised, the journal is searched. -/
theorem sound_recover (hhex : D.Hex) {msg : String}
    (h : Faulted D F (.shadowAudit msg) s) (hid : work.observationId = item.itemId) (error : String) :
    Sound D F lower (do
      let recorded ← act (.find work.observationId)
      if recorded then do
        ShadowEventLoop.finish item now
        pure .idempotentRecovery
      else self.handleFailure item now error) s := by
  cases h with
  | lost h => exact wp_lost forgets_standing h _
  | @ready rs hs =>
    refine (wp_bind _).mpr (wp_quiet
      (R := fun answer => answer = .ok true → work.observationId ∈ rs.map (·.observationId)) rfl
      hs ?_ forgets_sound (fun recorded s' hheld hs => ?_) (fun e s' hs => hs.stored))
    · rintro s answer s' hs ⟨-, hfind⟩ rfl
      rcases hfind with hfind | hfind
      · cases hrecord : s.runtime.journal.find D F work.observationId with
        | error err =>
          rw [hrecord] at hfind
          cases hfind
        | ok record =>
          rw [hrecord] at hfind
          cases record with
          | none => cases hfind
          | some record => exact hs.wrote.find hhex hrecord
      · cases hfind
    · split
      · next hrecorded =>
        have hitem := hheld (by rw [hrecorded])
        rw [hid] at hitem
        exact (wp_bind _).mpr (wp_finish hs hitem forgets_sound (fun s' h => .inr ⟨_, h⟩)
          fun e s' h => h.stored)
      · exact sound_handleFailure hs
  | cut herr hcut =>
    refine (wp_bind _).mpr (wp_perform_among
      (R := fun answer s' => Stored D F s' ∧ ∀ b, answer = .ok b → Lost D F s')
      stable_cut (fun answer s s' h hs => ⟨stable_stored s s' h hs.1, fun b hb =>
        stable_lost s s' h (hs.2 b hb)⟩) ?_ hcut.stored hcut
      (fun b s' h => wp_lost forgets_standing (h.2 b rfl) _) (fun e s' h => h.1))
    intro s answer s' hs hx
    unfold serviceExec at hx
    split at hx
    · rcases hx with ⟨rfl, hfind⟩ | rfl | ⟨answer', s₁, ⟨rfl, -⟩, rfl⟩
      · refine ⟨hs.stored, ?_⟩
        rintro b rfl
        obtain ⟨rs, torn, hne, hkept, -⟩ := hs
        rcases hfind with hfind | hfind
        · cases hrecord : s'.runtime.journal.find D F work.observationId with
          | error err =>
            rw [hrecord] at hfind
            cases hfind
          | ok record => exact absurd hrecord (hkept.find_torn hne _)
        · cases hfind
      · exact ⟨hs.stored, fun _ _ => ⟨rfl, hs.stored⟩⟩
      · exact ⟨hs.stored, fun _ _ => ⟨rfl, hs.stored⟩⟩
    · next hdown =>
      rw [hx]
      exact ⟨hs.stored, fun _ _ => ⟨by simpa using hdown, hs.stored⟩⟩

theorem sound_process (hhex : D.Hex) (hs : Ready D F rs s)
    (huri : parseShadowWorkUri item.payloadUri = some item.itemId) :
    Sound D F lower (self.process repr item now) s := by
  refine (wp_bind _).mpr (wp_attempt.mpr (wp_quiet
    (R := fun answer => ∀ work, answer = .ok work → work.observationId = item.itemId) rfl hs
    ?_ ⟨fun _ _ h => wp_lost forgets_standing h _, fun _ _ h => wp_lost forgets_standing h _⟩
    (fun work s' hwork hs => ?_) (fun e s' hs => sound_handleFailure hs)))
  · rintro s answer s' - ⟨-, hload⟩ work rfl
    have hparse := hload work rfl
    rw [huri] at hparse
    exact (Option.some.inj hparse).symm
  · have hid := hwork work rfl
    refine (wp_bind _).mpr (wp_attempt.mpr (wp_mono (fun _ h => h) (fun _ s h => h)
      (fun e s h => ?_) (wp_observed hs hid)))
    cases e with
    | shadowAudit msg => exact sound_recover hhex h hid _
    | _ =>
      cases h with
      | lost h => exact wp_lost forgets_standing h _
      | ready h => exact sound_handleFailure h
      | cut herr => cases herr

/-- **One iteration** leaves the files in order. -/
theorem sound_runOnce (hhex : D.Hex) (hs : Standing D F s) :
    Sound D F lower (self.runOnce repr) s := by
  rcases hs with hs | ⟨rs, hs⟩
  · exact wp_lost forgets_standing hs _
  · refine sound_quiet rfl hs fun t s' hs => (wp_bind _).mpr (wp_lift.mpr
      ⟨fun now _ => ?_, fun e _ => hs.stored⟩)
    refine (wp_bind _).mpr (wp_quiet (R := fun answer => ∀ item, answer = .ok (some item) →
        parseShadowWorkUri item.payloadUri = some item.itemId) rfl hs ?_ forgets_sound
      (fun claimed s' huri hs => ?_) (fun e s' hs => hs.stored))
    · rintro s answer s' hs ⟨queue, hclaim, -⟩ item rfl
      rcases hclaim with hclaim | ⟨-, msg, hclaim⟩
      · rcases outcome_cases hclaim with ⟨a, heq, hok⟩ | ⟨e, heq, -⟩
        · cases heq
          rcases claim_cases hok with ⟨hnone, -⟩ | ⟨row, hnext, hitem, -⟩
          · cases hnone
          · cases hitem
            exact hs.filed.uri row (Table.find_mem (nextDue_eq_some hnext).1)
        · cases heq
      · cases hclaim
    · cases claimed with
      | none => exact sound_quiet rfl hs fun _ s' hs => sound_publish hs
      | some item =>
        refine (wp_bind _).mpr (wp_mono (fun _ h => h) (fun result s h => ?_) (fun _ _ h => h)
          (sound_process hhex hs (huri item rfl)))
        rcases h with h | ⟨rs, h⟩
        · exact wp_lost forgets_standing h _
        · exact sound_publish h

end

/-! ## Runs -/

section

variable {permit : Permit} {repr : PyError → String} {c c' : RunningService}

/-- Whatever producers do, what the process is still to do leaves the files in order. -/
def InOrder (D : Digests) (F : Floats) (lower : String → String) (c : RunningService) : Prop :=
  wpAmong Enqueues (serviceExec D F lower (Ended D F)) (Stored D F) c.2 (fun _ => Standing D F)
    (fun _ => Stored D F) c.1

theorem InOrder.stored (h : InOrder D F lower c) : Stored D F c.1 := by
  refine wpAmong.crash h (fun _ s hs => ?_) fun _ s hs => hs
  rcases hs with hs | ⟨rs, hs⟩
  · exact hs.2
  · exact hs.stored

/-- A service that was resumed can go on. -/
theorem Stored.reopened (hhex : D.Hex) {s : ShadowService} (h : Stored D F s)
    {context : ShadowSessionContext} {riskConfig : PortfolioRiskConfig} {runtime : ShadowRuntime}
    (hopen : s.runtime.reopen D F context riskConfig = .ok runtime) :
    ∃ rs, Ready D F rs { s with runtime, alive := true } := by
  obtain ⟨rs, torn, hkept, hfiled⟩ := h
  obtain ⟨journal, hjournal, hresume⟩ := bind_eq_ok.mp hopen
  obtain ⟨snapshot, records, latest, checksum, engine, -, -, -, -, -, -, -, -, rfl⟩ :=
    resume_eq_ok.mp hresume
  obtain ⟨-, -, hwrote⟩ := openJournal_kept hhex hkept hjournal
  refine ⟨_, hwrote, ?_⟩
  rw [List.map_map]
  exact hfiled

theorem InOrder.step (hhex : D.Hex) (h : InOrder D F lower c)
    (hstep : ServiceStep D F lower (Ended D F) repr c c') : InOrder D F lower c' := by
  cases hstep with
  | enqueue henqueue => exact wpAmong.beside h henqueue
  | op hop => exact wpAmong.op h hop
  | again self => exact fun s hs => sound_runOnce hhex (h s hs)
  | restart self hdown hopen =>
    obtain ⟨rs, hready⟩ := h.stored.reopened hhex hopen
    exact fun s hs => sound_runOnce hhex (.inr ⟨rs, stable_ready.run hs hready⟩)

theorem does_change {o : LoopOp} {goesOn : Bool} {s s' : ShadowService}
    {answer : Except PyError o.Res} (h : o.does D F lower permit goesOn s answer s') :
    RowChange o s.queue s'.queue := by
  cases o with
  | clock | publish =>
    rw [show s' = s from h]
    exact .same rfl
  | load | find | killSwitchActive =>
    rw [h.1]
    exact .same rfl
  | observe | activateSafetyHold =>
    obtain ⟨faults, result, runtime, -, -, -, rfl⟩ := h
    exact .same rfl
  | _ =>
    obtain ⟨queue, hqueue, rfl⟩ := h
    exact loopExec_change hqueue

/-- An item that is done stays as it is. -/
theorem done_step {row : QueueRow} (hstep : ServiceStep D F lower permit repr c c')
    (hrow : row ∈ c.1.queue.rows.rows) (hdone : row.status = .done) :
    row ∈ c'.1.queue.rows.rows := by
  cases hstep with
  | enqueue henqueue =>
    obtain ⟨work, available, added, queue, henqueue, rfl⟩ := henqueue
    obtain ⟨o, hchange, -⟩ := enqueueShadowWork_change henqueue
    exact hchange.keeps_done hrow hdone
  | op hop =>
    unfold serviceExec at hop
    split at hop
    · rcases hop with hop | rfl | ⟨answer, s₁, hop, rfl⟩
      · exact (does_change hop).keeps_done hrow hdone
      · exact hrow
      · exact (does_change hop).keeps_done hrow hdone
    · rw [hop]
      exact hrow
  | again self => exact hrow
  | restart self hdown hopen => exact hrow

end

/-- **Exactly once.** In every run from a new session in which every append is ended, no
identifier is held twice, an item is done only if the record of its observation is held, and
an item that is done is never claimed or written again, however the run goes on. -/
theorem exactly_once (D : Digests) (F : Floats) (lower : String → String) (repr : PyError → String)
    (hhex : D.Hex) (context : ShadowSessionContext) (riskEngine : PortfolioRiskEngine)
    (riskStore : PortfolioRiskStateStore) (file : Option String) (journal : ShadowAuditJournal)
    (hjournal : openJournal D F file = .ok journal) (initializedAtUtc : Datetime)
    (r₀ : ShadowRuntime)
    (h₀ : initializeNew D F context riskEngine riskStore journal initializedAtUtc = .ok r₀)
    (c : RunningService)
    (hrun : ServiceReach D F lower (Ended D F) repr (startedService r₀) c) :
    ExactlyOnce F c.1 ∧
      ∀ permit c', ServiceReach D F lower permit repr c c' →
        ∀ row ∈ c.1.queue.rows.rows, row.status = .done → row ∈ c'.1.queue.rows.rows := by
  obtain ⟨⟨rs, hrunning⟩, -⟩ := running_initializeNew hhex hjournal h₀
  have hready : Ready D F rs (startedService r₀).1 :=
    ⟨hrunning.wrote, fun row hrow => (List.not_mem_nil hrow).elim,
      fun row hrow => (List.not_mem_nil hrow).elim⟩
  have horder : InOrder D F lower c := by
    induction hrun with
    | refl => exact fun s hs => .inr ⟨rs, stable_ready.run hs hready⟩
    | tail _ hstep ih => exact ih.step hhex hstep
  refine ⟨horder.stored.exactlyOnce, fun permit c' hlater row hrow hdone => ?_⟩
  induction hlater with
  | refl => exact hrow
  | tail _ hstep ih => exact done_step hstep ih hdone

/-! ## Runs of the service -/

section

variable {permit : Permit} {repr : PyError → String} {s : ShadowService} {now : Instant}
  {row : QueueRow} {work : ShadowWork} {item : ShadowQueueItem}

theorem reach_steps {p p' : LoopProg ShadowIterationResult} {s' : ShadowService}
    (h : Steps (serviceExec D F lower permit) p s p' s') :
    ServiceReach D F lower permit repr (s, p) (s', p') := by
  induction h with
  | refl p s => exact .refl
  | head hop _ ih => exact .head (.op hop) ih

/-- What `run_once` does with a claimed item. -/
def served (repr : PyError → String) (item : ShadowQueueItem) (now : Instant) :
    LoopProg ShadowIterationResult := do
  let result ← sampleLoop.process repr item now
  sampleLoop.publish
  pure result

/-- The queue with the row claimed. -/
def claimedQueue (q : DurableShadowQueue) (row : QueueRow) (now : Instant) : DurableShadowQueue :=
  q.update row.itemId (claimRow (now + timedelta 60)) (claimRow_itemId _)

def acknowledgedQueue (q : DurableShadowQueue) (itemId : String) (now : Instant) :
    DurableShadowQueue := q.update itemId (acknowledgeRow now) (acknowledgeRow_itemId now)

/-- The queue with the row done. -/
def doneQueue (q : DurableShadowQueue) (itemId : String) (now : Instant) : DurableShadowQueue :=
  { acknowledgedQueue q itemId now with loopState := { q.loopState with
    status := "RUNNING"
    consecutiveFailures := 0
    totalProcessed := q.loopState.totalProcessed + 1
    heartbeatAtUtc := some now
    lastError := none } }

/-- The next operation of a process that is alive. -/
theorem steps_op {o : LoopOp} {r : Except PyError o.Res} {t u : ShadowService}
    {k : Except PyError o.Res → LoopProg ShadowIterationResult}
    {p : LoopProg ShadowIterationResult} (halive : s.alive = true)
    (h : o.does D F lower permit true s r t)
    (hrest : Steps (serviceExec D F lower permit) (k r) t p u) :
    Steps (serviceExec D F lower permit) (.call o k) s p u := by
  refine .head ?_ hrest
  unfold serviceExec
  rw [if_pos halive]
  exact .inl h

theorem steps_claim (halive : s.alive = true) (hnext : s.queue.nextDue now = some row) :
    Steps (serviceExec D F lower permit) (sampleLoop.runOnce repr) s
      (served repr (itemOf (claimRow (now + timedelta 60) row)) now)
      { s with queue := claimedQueue s.queue row now } := by
  have hclaim : s.queue.claim now 60 =
      .ok (some (itemOf (claimRow (now + timedelta 60) row)), claimedQueue s.queue row now) := by
    have hlease : require (0 < (60 : ℚ)) (.valueError "queue lease must be finite and positive") =
        .ok () := require_eq_ok.mpr (by norm_num)
    unfold DurableShadowQueue.claim
    rw [hlease, hnext]
    show Except.ok ((claimedQueue s.queue row now).get row.itemId, claimedQueue s.queue row now) = _
    rw [claimedQueue, DurableShadowQueue.get, find_update, if_pos rfl, (nextDue_eq_some hnext).1,
      Option.map_some, Option.map_some]
  refine steps_op halive (show LoopOp.does D F lower permit true s .clock
    (.ok (.ofInstant now)) s from rfl) ?_
  simp only [Prog.lift, Prog.bind, utc_ofInstant]
  refine steps_op (o := .claim now 60)
    (r := .ok (some (itemOf (claimRow (now + timedelta 60) row)))) halive
    ⟨claimedQueue s.queue row now, .inl ?_, rfl⟩ (.refl _ _)
  show _ = outcome (s.queue.claim now 60) s.queue
  rw [hclaim]
  rfl

/-- A row that is processed is acknowledged. -/
theorem acknowledge_processing {q : DurableShadowQueue} {itemId : String}
    (hrow : q.rows.find itemId = some row) (hstatus : row.status = .processing) :
    q.acknowledge itemId now = .ok ((), acknowledgedQueue q itemId now) := by
  unfold acknowledge
  rw [hrow]
  exact if_pos hstatus

theorem load_does (huri : parseShadowWorkUri item.payloadUri = some work.observationId) :
    (LoopOp.load item.payloadUri).does D F lower permit true s (.ok work) s :=
  ⟨rfl, fun _ heq => by cases heq; exact huri⟩

variable {runtime : ShadowRuntime}

variable (permit repr s now) in
/-- The process crashes in the observation. -/
theorem steps_crash (halive : s.alive = true)
    (huri : parseShadowWorkUri item.payloadUri = some work.observationId) {faults : Faults}
    {result : Except PyError ShadowAuditRecord}
    (hcall : s.runtime.call D F lower
      (.observe work.decision work.observationId work.proposals work.equity) faults =
        (result, runtime)) (hpermit : permit false s.runtime result runtime) :
    ∃ p, Steps (serviceExec D F lower permit) (served repr item now) s p
      { s with runtime, alive := false } := by
  have hcrash : serviceExec D F lower permit (.observe work) s (.error .osError)
      { s with runtime, alive := false } := by
    unfold serviceExec
    rw [if_pos halive]
    exact .inr (.inr ⟨_, _, ⟨faults, result, runtime, hcall, hpermit, rfl, rfl⟩, rfl⟩)
  have hsteps : ∀ {k : Except PyError ShadowWork → LoopProg ShadowIterationResult}
      {k' : Except PyError Unit → LoopProg ShadowIterationResult},
      k (.ok work) = .call (.observe work) k' →
      Steps (serviceExec D F lower permit) (.call (.load item.payloadUri) k) s
        (k' (.error .osError)) { s with runtime, alive := false } := by
    intro k k' hk
    refine steps_op (r := .ok work) halive (load_does huri) ?_
    rw [hk]
    exact .head hcrash (.refl _ _)
  exact ⟨_, hsteps rfl⟩

variable {x : ShadowAuditRecord}

variable (permit repr s now) in
/-- The observation is recorded, and the item is done. -/
theorem steps_done (halive : s.alive = true)
    (huri : parseShadowWorkUri item.payloadUri = some work.observationId)
    (hcall : s.runtime.call D F lower
      (.observe work.decision work.observationId work.proposals work.equity) {} =
        (.ok x, runtime)) (hpermit : permit true s.runtime (.ok x) runtime)
    (hrow : s.queue.rows.find item.itemId = some row) (hstatus : row.status = .processing) :
    Steps (serviceExec D F lower permit) (served repr item now) s (.ret .processed)
      { s with runtime, queue := doneQueue s.queue item.itemId now } := by
  refine steps_op (o := .load item.payloadUri) (r := .ok work) halive (load_does huri) ?_
  refine steps_op (o := .observe work) (r := .ok ()) (t := { s with runtime }) halive
    ⟨{}, .ok x, runtime, hcall, hpermit, rfl, rfl⟩ ?_
  refine steps_op (o := .acknowledge item now) (r := .ok ()) halive
    ⟨acknowledgedQueue s.queue item.itemId now, .inl ?_, rfl⟩ ?_
  · show _ = outcome (s.queue.acknowledge item.itemId now) s.queue
    rw [acknowledge_processing hrow hstatus]
    rfl
  · exact steps_op (o := .recordSuccess now) (r := .ok ()) halive
      ⟨doneQueue s.queue item.itemId now, .inl rfl, rfl⟩ (.refl _ _)

variable (permit repr s now) in
/-- The record of the observation is found in the journal, and the item is done. -/
theorem steps_recovered (halive : s.alive = true)
    (huri : parseShadowWorkUri item.payloadUri = some work.observationId) {msg : String}
    (hcall : s.runtime.call D F lower
      (.observe work.decision work.observationId work.proposals work.equity) {} =
        (.error (.shadowAudit msg), s.runtime))
    (hpermit : permit true s.runtime (.error (.shadowAudit msg)) s.runtime)
    (hfind : s.runtime.journal.find D F work.observationId = .ok (some x))
    (hrow : s.queue.rows.find item.itemId = some row) (hstatus : row.status = .processing) :
    Steps (serviceExec D F lower permit) (served repr item now) s (.ret .idempotentRecovery)
      { s with queue := doneQueue s.queue item.itemId now } := by
  refine steps_op (o := .load item.payloadUri) (r := .ok work) halive (load_does huri) ?_
  refine steps_op (o := .observe work) (r := .error (.shadowAudit msg)) (t := s) halive
    ⟨{}, .error (.shadowAudit msg), s.runtime, hcall, hpermit, rfl, rfl⟩ ?_
  refine steps_op (o := .find work.observationId) (r := .ok true) (t := s) halive
    ⟨rfl, .inl (by rw [hfind]; rfl)⟩ ?_
  refine steps_op (o := .acknowledge item now) (r := .ok ()) halive
    ⟨acknowledgedQueue s.queue item.itemId now, .inl ?_, rfl⟩ ?_
  · show _ = outcome (s.queue.acknowledge item.itemId now) s.queue
    rw [acknowledge_processing hrow hstatus]
    rfl
  · exact steps_op (o := .recordSuccess now) (r := .ok ()) halive
      ⟨doneQueue s.queue item.itemId now, .inl rfl, rfl⟩ (.refl _ _)

end

/-! ## A line without its line feed -/

namespace ShadowRuntime

variable {r r' : ShadowRuntime}

/-- A resumption looks only at the lines of the journal. -/
theorem reopen_lines {runtime : ShadowRuntime} {context : ShadowSessionContext}
    {config : PortfolioRiskConfig} (hstore : r.riskStore = r'.riskStore)
    (hlines : fileLines r.journal.file = fileLines r'.journal.file)
    (h : r'.reopen D F context config = .ok runtime) :
    r.reopen D F context config =
      .ok { runtime with journal := { runtime.journal with file := r.journal.file } } := by
  obtain ⟨journal, hopen, hresume⟩ := bind_eq_ok.mp h
  obtain ⟨records, hverify, hjournal⟩ := bind_eq_ok.mp hopen
  cases hjournal
  obtain ⟨snapshot, records', latest, checksum, engine, hload, hverify', hne, hmatch, hlatest, hsum,
    hsame, hfrom, rfl⟩ := resume_eq_ok.mp hresume
  have hsameVerify : verify D F r.journal.file = verify D F r'.journal.file := by
    unfold verify
    rw [hlines]
  have hsameHash : readLastHash F r.journal.file = readLastHash F r'.journal.file := by
    unfold readLastHash
    rw [hlines]
  unfold reopen openJournal
  rw [hsameVerify, hverify, hsameHash, hstore]
  refine resume_eq_ok.mpr ⟨snapshot, records', latest, checksum, engine, hload, ?_, hne, hmatch, ?_,
    hsum, hsame, hfrom, rfl⟩
  · exact hsameVerify.trans hverify'
  · unfold ShadowAuditJournal.latestRiskStateSha256 at hlatest ⊢
    rw [show verify D F r.journal.file = _ from hsameVerify]
    exact hlatest

variable {observationId : String}

variable (D F lower) in
/-- A decision to wait is recorded, or its line is cut before its line feed. -/
theorem observe_unended (r : ShadowRuntime)
    (hnamed : isBlank observationId = false) (hnew : observationId ∉ r.journal.observationIds) :
    ∃ x checksum j n, x.observationId = observationId ∧
      r.call D F lower (.observe noEdgeDecision observationId [] 1000) {} =
        (.ok x, { r with journal := j }) ∧
      r.journal.append D F x none = (.ok checksum, j) ∧
      j.file = some (r.text ++ (recordLine D F r.journal.lastHash x ++ "\n")) ∧
      r.call D F lower (.observe noEdgeDecision observationId [] 1000)
          { append := some (.short n) } =
        (.error (.shadowAudit "short write to shadow audit journal"),
          { r with journal := { r.journal with
            file := some (r.text ++ recordLine D F r.journal.lastHash x) } }) := by
  obtain ⟨x, hchecked⟩ := fields_checked r.context (waitEntry noEdgeDecision observationId)
    hnamed noEdgeDecision.aware ⟨show isBlank "WAIT" = false by decide, List.cons_ne_nil _ _⟩
    (by rintro v ⟨⟩)
  have hid : x.observationId = observationId :=
    congrArg AuditFields.observationId (checked_status hchecked)
  have hplan := observation_wait lower noEdgeDecision 1000 rfl hnamed hnew
  have hcall : ∀ faults {answer journal}, r.journal.append D F x faults.append = (answer, journal) →
      r.call D F lower (.observe noEdgeDecision observationId [] 1000) faults =
        (answer.map fun _ => x, { r with journal }) := by
    intro faults answer journal happend
    rw [call_eq]
    show r.perform D F (r.observation _ _ _ _ _) _ = _
    rw [hplan]
    show r.record D F (waitEntry noEdgeDecision observationId) _ = _
    unfold ShadowRuntime.record
    cases answer <;> simp only [hchecked, happend, Except.map]
  have hfresh : x.observationId ∉ r.journal.observationIds := hid ▸ hnew
  have htake : ((recordLine D F r.journal.lastHash x ++ "\n").toList.take
      (recordLine D F r.journal.lastHash x).toList.length) =
      (recordLine D F r.journal.lastHash x).toList := by
    rw [String.toList_append, List.take_left]
  have happend : ∃ checksum j, r.journal.append D F x none = (.ok checksum, j) ∧
      j.file = some (r.text ++ (recordLine D F r.journal.lastHash x ++ "\n")) := by
    unfold ShadowAuditJournal.append
    rw [if_neg hfresh]
    exact ⟨_, _, rfl, rfl⟩
  obtain ⟨checksum, j, happend, hfile⟩ := happend
  refine ⟨x, checksum, j, (recordLine D F r.journal.lastHash x).toList.length, hid,
    hcall {} happend, happend, hfile, ?_⟩
  have hshort : r.journal.append D F x
      (some (.short (recordLine D F r.journal.lastHash x).toList.length)) =
      (.error (.shadowAudit "short write to shadow audit journal"),
        { r.journal with file := some (r.text ++ recordLine D F r.journal.lastHash x) }) := by
    unfold ShadowAuditJournal.append
    rw [if_neg hfresh]
    simp only [htake, String.ofList_toList]
    rfl
  exact hcall { append := some (.short _) } hshort

variable (D F lower) in
/-- An observation that is recorded is refused. -/
theorem observe_again (decision : MetaDecision)
    (proposals : List PortfolioEntryProposal) (equity : ℚ)
    (hnamed : isBlank observationId = false) (hold : observationId ∈ r.journal.observationIds) :
    r.call D F lower (.observe decision observationId proposals equity) {} =
      (.error (.shadowAudit ("duplicate shadow observation id: " ++ observationId)), r) := by
  have havailable : r.journal.ensureAvailable observationId =
      .error (.shadowAudit ("duplicate shadow observation id: " ++ observationId)) := by
    simp only [ShadowAuditJournal.ensureAvailable, hnamed, hold, not_true_eq_false, decide_false,
      Bool.not_false]
    rfl
  rw [call_eq]
  show r.perform D F (r.observation _ _ _ _ _) _ = _
  unfold observation
  rw [havailable]
  rfl

end ShadowRuntime

variable {x : ShadowAuditRecord}

/-- A journal finds what is on its lines. -/
theorem find_lines (hhex : D.Hex) {j j' : ShadowAuditJournal}
    (hwrote : Wrote D F j' (rs ++ [x])) (hlines : fileLines j.file = fileLines j'.file) :
    ∃ y, j.find D F x.observationId = .ok (some y) := by
  have hverify : verify D F j.file = .ok ((rs ++ [x]).map ShadowAuditRecord.inUtc) := by
    rw [← verify_wrote hhex hwrote]
    unfold verify
    rw [hlines]
  have hmem : x.inUtc ∈ (rs ++ [x]).map ShadowAuditRecord.inUtc :=
    List.mem_map_of_mem (List.mem_append_right _ List.mem_cons_self)
  obtain ⟨y, hy⟩ := Option.isSome_iff_exists.mp (List.find?_isSome
    (p := fun z : ShadowAuditRecord => z.observationId = x.observationId).mpr
    ⟨x.inUtc, hmem, decide_eq_true rfl⟩)
  refine ⟨y, ?_⟩
  unfold ShadowAuditJournal.find
  rw [hverify]
  exact congrArg Except.ok hy

theorem waiting_positive : (0 : ℚ) < 1000 := by decide +kernel

theorem named_w : isBlank "w" = false := by decide

theorem named_v : isBlank "v" = false := by decide

/-- Work that waits. -/
def waitingWork (observationId : String) (named : isBlank observationId = false) : ShadowWork where
  observationId
  decision := noEdgeDecision
  proposals := []
  equity := 1000
  named
  positive := waiting_positive

/-- The queue with the work, if it can be enqueued. -/
def enqueued (q : DurableShadowQueue) (work : ShadowWork) (t : Instant) : DurableShadowQueue :=
  match enqueueShadowWork q work (.ofInstant t) with
  | some (.ok (_, q')) => q'
  | _ => q

def canEnqueue (q : DurableShadowQueue) (work : ShadowWork) (t : Instant) : Bool :=
  match enqueueShadowWork q work (.ofInstant t) with
  | some (.ok _) => true
  | _ => false

variable {work : ShadowWork}

theorem enqueues_enqueued {t : Instant}
    (h : canEnqueue s.queue work t = true) :
    Enqueues s { s with queue := enqueued s.queue work t } := by
  unfold canEnqueue at h
  unfold enqueued
  split at h
  · next p heq => exact ⟨work, .ofInstant t, p.1, p.2, heq, by rw [heq]⟩
  · cases h

def firstWork : ShadowWork := waitingWork "w" named_w

def secondWork : ShadowWork := waitingWork "v" named_v

/-- The row that is next is that of the work. -/
def nextIs (q : DurableShadowQueue) (now : Instant) (work : ShadowWork) : Bool :=
  (q.nextDue now).any fun row => row.itemId = work.observationId ∧
    parseShadowWorkUri row.payloadUri = some work.observationId

variable {now : Instant}

theorem nextIs_eq_true {q : DurableShadowQueue}
    (h : nextIs q now work = true) : ∃ row, q.nextDue now = some row ∧
      row.itemId = work.observationId ∧
      parseShadowWorkUri row.payloadUri = some work.observationId := by
  unfold nextIs at h
  cases hrow : q.nextDue now with
  | none =>
    rw [hrow] at h
    cases h
  | some row =>
    rw [hrow, Option.any_some, decide_eq_true_eq] at h
    exact ⟨row, rfl, h⟩

def claimNext (q : DurableShadowQueue) (now : Instant) : DurableShadowQueue :=
  match q.nextDue now with
  | some row => claimedQueue q row now
  | none => q

variable (D F lower) in
/-- The work is claimed. -/
theorem reach_claim (permit : Permit) (repr : PyError → String) (s : ShadowService)
    (halive : s.alive = true)
    (hnext : nextIs s.queue now work = true) :
    ∃ item row, item.itemId = work.observationId ∧
      parseShadowWorkUri item.payloadUri = some work.observationId ∧
      (claimNext s.queue now).rows.find item.itemId = some row ∧ row.status = .processing ∧
      ServiceReach D F lower permit repr (s, sampleLoop.runOnce repr)
        ({ s with queue := claimNext s.queue now }, served repr item now) := by
  obtain ⟨row, hrow, hid, huri⟩ := nextIs_eq_true hnext
  have hqueue : claimNext s.queue now = claimedQueue s.queue row now := by
    unfold claimNext
    rw [hrow]
  refine ⟨itemOf (claimRow (now + timedelta 60) row), claimRow (now + timedelta 60) row, hid, huri,
    ?_, rfl, ?_⟩
  · show (claimNext s.queue now).rows.find row.itemId = _
    rw [hqueue, claimedQueue, find_update, if_pos rfl, (nextDue_eq_some hrow).1, Option.map_some]
  · rw [hqueue]
    exact reach_steps (steps_claim halive hrow)

/-- Only the writes of a process that ends there fail. -/
def CrashesOnly : Permit := fun goesOn r result r' =>
  goesOn = true → (∃ x, result = .ok x) ∨ r' = r

/-- The queue when the first work was claimed, when it is done, and when both are done. -/
def crashedQueue : DurableShadowQueue := claimNext (enqueued {} firstWork 0) 0

def recoveredQueue : DurableShadowQueue := doneQueue (claimNext crashedQueue 60000000) "w" 60000000

def finishedQueue : DurableShadowQueue :=
  doneQueue (claimNext (enqueued recoveredQueue secondWork 60000000) 60000000) "v" 60000000

theorem sampleQueues : canEnqueue {} firstWork 0 = true ∧
    nextIs (enqueued {} firstWork 0) 0 firstWork = true ∧
    nextIs crashedQueue 60000000 firstWork = true ∧
    canEnqueue recoveredQueue secondWork 60000000 = true ∧
    nextIs (enqueued recoveredQueue secondWork 60000000) 60000000 secondWork = true ∧
    (doneQueue crashedQueue "w" 0).rows.rows.any (fun row => row.status = .done) = true ∧
    finishedQueue.rows.rows.any (fun row => row.status = .done ∧ row.itemId = "w") = true := by
  decide +kernel

/-- A call that appends its line with the line feed. -/
theorem ended_line {goesOn : Bool} {r r' : ShadowRuntime} {x y : ShadowAuditRecord}
    (hfile : r'.journal.file = some (r.text ++ (recordLine D F r.journal.lastHash x ++ "\n"))) :
    Ended D F goesOn r (.ok y) r' := by
  refine ⟨fun z htext => ?_, fun _ err herr => by cases herr⟩
  rw [ShadowRuntime.text, hfile, Option.getD_some] at htext
  have hline := congrArg String.toList htext
  simp only [String.toList_append] at hline
  have hlast : '\n' ∈ (recordLine D F r.journal.lastHash z).toList := by
    rw [← List.append_cancel_left hline]
    exact List.mem_append_right _ (by decide)
  have hend := recordLine_chars hlast
  cases hend

/-- The first work of a new session is done, and its record is held. -/
theorem exactly_once_served : ∃ r₀ c, initializeNew sessionDigests sampleFloats sampleContext
      tightEngine ⟨"portfolio.json", none⟩ {} (.ofInstant 0) = .ok r₀ ∧
    ServiceReach sessionDigests sampleFloats String.toLower (Ended sessionDigests sampleFloats)
      (fun _ => "error") (startedService r₀) c ∧
    (∃ row ∈ c.1.queue.rows.rows, row.status = .done) ∧ ExactlyOnce sampleFloats c.1 := by
  obtain ⟨hqueued, hnext, -, -, -, hdoneRow, -⟩ := sampleQueues
  obtain ⟨r₀, x₀, h₀, -, -, hwrote₀, hid₀, -⟩ := initializeNew_new (F := sampleFloats)
    sessionDigests_hex sampleContext "portfolio.json" tightEngine_snapshot 0
  have hnew : "w" ∉ r₀.journal.observationIds := by
    rw [hwrote₀.ids, List.map_singleton, hid₀]
    decide
  obtain ⟨x, checksum, j, n, -, hcall, -, hfile, -⟩ := observe_unended sessionDigests
    sampleFloats String.toLower r₀ (show isBlank "w" = false by decide) hnew
  obtain ⟨item, row, hitem, huri, hrow, hstatus, hclaim⟩ := reach_claim sessionDigests
    sampleFloats String.toLower (Ended sessionDigests sampleFloats) (fun _ => "error")
    ⟨enqueued {} firstWork 0, r₀, true⟩ rfl hnext
  have hdone := steps_done (Ended sessionDigests sampleFloats) (fun _ => "error")
    ⟨crashedQueue, r₀, true⟩ 0 rfl huri hcall (ended_line hfile) hrow hstatus
  rw [hitem] at hdone
  have hrun : ServiceReach sessionDigests sampleFloats String.toLower
      (Ended sessionDigests sampleFloats) (fun _ => "error") (startedService r₀)
      (⟨doneQueue crashedQueue "w" 0, { r₀ with journal := j }, true⟩, .ret .processed) :=
    .head (.enqueue (enqueues_enqueued hqueued)) (.head (.again sampleLoop)
      (hclaim.trans (reach_steps hdone)))
  obtain ⟨row, hmem, hrow⟩ := List.any_eq_true.mp hdoneRow
  exact ⟨r₀, _, h₀, hrun, ⟨row, hmem, of_decide_eq_true hrow⟩, (exactly_once sessionDigests
    sampleFloats String.toLower _ sessionDigests_hex sampleContext tightEngine
    ⟨"portfolio.json", none⟩ none {} rfl (.ofInstant 0) r₀ h₀ _ hrun).1⟩

/-- The lines of a journal whose last line has no line feed. -/
theorem fileLines_unended {j : ShadowAuditJournal} (h : Wrote D F j rs) :
    fileLines (some (j.file.getD "" ++ recordLine D F j.lastHash x)) =
      chainLines D F none (rs ++ [x]) := by
  have hne : (recordLine D F j.lastHash x).toList ≠ [] := by
    obtain ⟨cs, hcs⟩ := Json.write_obj (F := F) (envelope D F j.lastHash x)
    rw [recordLine_toList, hcs]
    exact List.cons_ne_nil _ _
  have hlines : splitlines (joinLines (chainLines D F none rs) ++
      String.ofList (recordLine D F j.lastHash x).toList) =
        chainLines D F none rs ++ [String.ofList (recordLine D F j.lastHash x).toList] :=
    splitlines_rest (fun l hl c hc => chainLines_chars hl hc) (fun c hc => recordLine_chars hc) hne
  unfold fileLines
  rw [Option.getD_some, h.text, chainLines_append, ← h.last]
  rw [String.ofList_toList] at hlines
  exact hlines

/-- A session whose last line lacks its line feed is resumed, with the record on that line. -/
theorem reopen_unended (hhex : D.Hex) {r : ShadowRuntime} (hrunning : Running D F r rs)
    (hstep : InStep D F r) (hfits : Fits r.riskEngine) {c : RuntimeCall} {x : ShadowAuditRecord}
    {checksum : String} {j : ShadowAuditJournal}
    (hcall : r.call D F lower c {} = (.ok x, { r with journal := j }))
    (happend : r.journal.append D F x none = (.ok checksum, j)) :
    ∃ r', ({ r with journal := { r.journal with
        file := some (r.text ++ recordLine D F r.journal.lastHash x) } } : ShadowRuntime).reopen D F
          r.context r.riskEngine.config = .ok r' ∧
      r'.journal.file = some (r.text ++ recordLine D F r.journal.lastHash x) ∧
      (∀ id, id ∈ r'.journal.observationIds ↔ id ∈ (rs ++ [x]).map (·.observationId)) ∧
      ∃ y, r'.journal.find D F x.observationId = .ok (some y) := by
  have hanswered := call_answered hcall
  have hwrote := append_eq_ok hrunning.wrote happend
  obtain ⟨runtime, hopen⟩ := ((hrunning.answered hanswered).resumes_iff hhex).mpr
    ⟨(hrunning.inStep hhex hanswered).1 hstep, hfits⟩
  obtain ⟨journal, hjournal, hresume⟩ := bind_eq_ok.mp hopen
  obtain ⟨snapshot, records, latest, checksum', engine, -, -, -, -, -, -, -, -, rfl⟩ :=
    resume_eq_ok.mp hresume
  obtain ⟨-, -, hids⟩ := openJournal_kept hhex hwrote.kept hjournal
  have hlines : fileLines (some (r.text ++ recordLine D F r.journal.lastHash x)) =
      fileLines j.file := by
    have hnil := hwrote.kept.lines
    rw [if_pos rfl, List.append_nil] at hnil
    rw [hnil]
    exact fileLines_unended hrunning.wrote
  refine ⟨_, reopen_lines (by rfl) ?_ hopen, rfl, fun id => ?_, find_lines hhex hwrote hlines⟩
  · exact hlines
  · have hid := hids.ids id
    rw [List.map_map] at hid
    exact hid

/-- The process crashes when the line of the first work lacks only its line feed. The new process
finds the record, and the item is done. Then the line of the second work is written behind it:
both items are done, and no record of theirs is held. -/
theorem unended_line_lost : ∃ r₀ c, initializeNew sessionDigests sampleFloats sampleContext
      tightEngine ⟨"portfolio.json", none⟩ {} (.ofInstant 0) = .ok r₀ ∧
    ServiceReach sessionDigests sampleFloats String.toLower CrashesOnly (fun _ => "error")
      (startedService r₀) c ∧
    ∃ row ∈ c.1.queue.rows.rows, row.status = .done ∧
      row.itemId ∉ heldIds sampleFloats c.1.runtime.journal.file := by
  obtain ⟨hqueued₁, hnext₁, hnext₂, hqueued₃, hnext₃, -, hdoneRow⟩ := sampleQueues
  obtain ⟨r₀, x₀, h₀, hengine, -, hwrote₀, hid₀, -⟩ := initializeNew_new (F := sampleFloats)
    sessionDigests_hex sampleContext "portfolio.json" tightEngine_snapshot 0
  obtain ⟨⟨rs, hrunning⟩, hinStep, -⟩ := running_initializeNew sessionDigests_hex
    (show openJournal _ _ none = .ok {} from rfl) h₀
  have hids : rs.map (·.observationId) = [x₀.observationId] :=
    hrunning.wrote.kept.held.symm.trans hwrote₀.kept.held
  have hnew : ∀ id, id ≠ x₀.observationId → id ∉ r₀.journal.observationIds := by
    intro id hne hmem
    rw [hrunning.wrote.ids, hids] at hmem
    exact hne (List.mem_singleton.mp hmem)
  obtain ⟨x, checksum, j, n, hid, hcall, happend, -, hcut⟩ := observe_unended
    sessionDigests sampleFloats String.toLower r₀
    (show isBlank "w" = false by decide) (hnew _ (by rw [hid₀]; decide))
  have hfits : Fits r₀.riskEngine := by
    rw [hengine]
    unfold Fits
    decide
  obtain ⟨r₂, hopen, hfile, hids₂, y, hfind⟩ := reopen_unended sessionDigests_hex hrunning hinStep
    hfits hcall happend
  have hheld : "w" ∈ r₂.journal.observationIds := by
    rw [hids₂, List.map_append, List.map_singleton, hid]
    exact List.mem_append_right _ List.mem_cons_self
  have hfresh : "v" ∉ r₂.journal.observationIds := by
    rw [hids₂, List.map_append, hids, hid₀, List.map_singleton, hid]
    decide
  obtain ⟨z, -, j', -, -, hcall', -, hfile', -⟩ := observe_unended sessionDigests
    sampleFloats String.toLower r₂ (show isBlank "v" = false by decide) hfresh
  obtain ⟨item₁, row₁, hitem₁, huri₁, -, -, hclaim₁⟩ := reach_claim sessionDigests
    sampleFloats String.toLower CrashesOnly (fun _ => "error")
    ⟨enqueued {} firstWork 0, r₀, true⟩ rfl hnext₁
  obtain ⟨p, hcrash⟩ := steps_crash CrashesOnly (fun _ => "error")
    ⟨crashedQueue, r₀, true⟩ 0 rfl huri₁ hcut (fun h => by cases h)
  obtain ⟨item₂, row₂, hitem₂, huri₂, hrow₂, hstatus₂, hclaim₂⟩ := reach_claim
    sessionDigests sampleFloats String.toLower CrashesOnly (fun _ => "error")
    ⟨crashedQueue, r₂, true⟩ rfl hnext₂
  have hrecovered := steps_recovered CrashesOnly (fun _ => "error")
    ⟨claimNext crashedQueue 60000000, r₂, true⟩ 60000000 rfl huri₂
    (observe_again sessionDigests sampleFloats String.toLower
      firstWork.decision firstWork.proposals firstWork.equity firstWork.named hheld)
    (fun _ => .inr rfl) (hid ▸ hfind) hrow₂ hstatus₂
  rw [hitem₂] at hrecovered
  obtain ⟨item₃, row₃, hitem₃, huri₃, hrow₃, hstatus₃, hclaim₃⟩ := reach_claim
    sessionDigests sampleFloats String.toLower CrashesOnly (fun _ => "error")
    ⟨enqueued recoveredQueue secondWork 60000000, r₂, true⟩ rfl hnext₃
  have hdone := steps_done CrashesOnly (fun _ => "error")
    ⟨claimNext (enqueued recoveredQueue secondWork 60000000) 60000000, r₂, true⟩ 60000000 rfl huri₃ hcall' (fun _ => .inl ⟨_, rfl⟩) hrow₃ hstatus₃
  rw [hitem₃] at hdone
  refine ⟨r₀, (⟨finishedQueue, { r₂ with journal := j' }, true⟩, .ret .processed), h₀, ?_, ?_⟩
  · have hfirst := ((hclaim₁.trans (reach_steps hcrash)).tail
      (.restart sampleLoop (.inl rfl) hopen)).trans (hclaim₂.trans (reach_steps hrecovered))
    have hsecond := hclaim₃.trans (reach_steps hdone)
    refine .head (.enqueue (enqueues_enqueued hqueued₁)) (.head (.again sampleLoop)
      (hfirst.trans ?_))
    exact .head (.enqueue (enqueues_enqueued hqueued₃)) (.head (.again sampleLoop)
      hsecond)
  · have htext : r₀.text = joinLines (chainLines sessionDigests sampleFloats none rs) :=
      hrunning.wrote.text
    have hglued : heldIds sampleFloats j'.file = rs.map (·.observationId) := by
      have htext₂ : r₂.text =
          r₀.text ++ recordLine sessionDigests sampleFloats r₀.journal.lastHash x := by
        unfold ShadowRuntime.text
        rw [hfile, Option.getD_some]
        rfl
      have hlast : j'.file.getD "" = joinLines (chainLines sessionDigests sampleFloats none rs) ++
          (recordLine sessionDigests sampleFloats r₀.journal.lastHash x ++
            (recordLine sessionDigests sampleFloats r₂.journal.lastHash z ++ "\n")) := by
        rw [hfile', Option.getD_some, ← htext, htext₂, String.append_assoc]
      exact glued_lost hlast
    obtain ⟨row, hmem, hrow⟩ := List.any_eq_true.mp hdoneRow
    obtain ⟨hstatus, hitem⟩ := of_decide_eq_true hrow
    refine ⟨row, hmem, hstatus, ?_⟩
    rw [hglued, hids, hid₀, hitem]
    decide

end Greenfield.Shadow
