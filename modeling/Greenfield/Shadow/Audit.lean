import Greenfield.Shadow.Journal

/-!
# What the audit journal proves

A journal that was written record by record verifies to these records (`verify_wrote`). A
file whose lines carry checksums of the journal verifies to a prefix of them or not at all
(`verify_prefix`), since each checksum is of one record at one place of the chain.
-/

namespace Greenfield.Shadow

open Keyed Py Risk Json

/-- The same record, with its timestamp in UTC. -/
def ShadowAuditRecord.inUtc (r : ShadowAuditRecord) : ShadowAuditRecord :=
  { r with
    decisionTimestampUtc := .ofInstant r.decisionTimestampUtc.instant
    aware := by
      intro h
      cases h }

section

variable {D : Digests} {F : Floats} {r : ShadowAuditRecord} {previous : Option String}

/-! ## Reading one line -/

theorem canonical_strings (values : List String) : Canonical (strings values) := by
  refine .arr fun v hv => ?_
  obtain ⟨s, -, rfl⟩ := List.mem_map.mp hv
  exact .str s

theorem canonical_recordToDict (r : ShadowAuditRecord) : Canonical (recordToDict r) := by
  refine .obj (sorted_of_keys ?_) ?_
  · simp only [List.map_cons, List.map_nil]
    decide +kernel
  · simp [canonical_strings, canonical_ofOptional]

theorem canonical_chained {actual record : PyJson} (ha : Canonical actual)
    (hr : Canonical record) : Canonical (chained actual record) := by
  refine .obj (sorted_of_keys ?_) ?_
  · simp only [List.map_cons, List.map_nil]
    decide +kernel
  · simp [ha, hr]

theorem ofValue_value (s : ShadowStatus) : ShadowStatus.ofValue s.value = some s := by
  cases s <;> decide +kernel

theorem stringTuple_strings (values : List String) :
    stringTuple (some (strings values)) = some values := by
  show (values.map Value.str).mapM (fun v => string (some v)) = some values
  induction values with
  | nil => rfl
  | cons s values ih =>
    rw [List.map_cons, List.mapM_cons, ih]
    rfl

theorem checked_record (r : ShadowAuditRecord) : r.toAuditFields.checked = .ok r := by
  unfold AuditFields.checked
  rw [dif_pos r.identifiers, dif_pos r.aware, dif_pos r.described, dif_pos r.fingerprints,
    dif_pos r.checksum]

theorem recordFromDict_recordToDict (r : ShadowAuditRecord) :
    recordFromDict (recordToDict r) = some r.inUtc := by
  simp only [recordFromDict, recordToDict, get_cons, String.reduceEq, if_true, if_false, string,
    parseDatetime_isoformat, ofValue_value, optionalString_ofOptional, stringTuple_strings,
    Option.bind_eq_bind, Option.bind_some]
  exact congrArg Except.toOption (checked_record r.inUtc)

/-- The envelope of a line. -/
def envelope (D : Digests) (F : Floats) (previous : Option String) (r : ShadowAuditRecord) :
    List (String × PyJson) :=
  [("previous_sha256", ofOptional previous), ("record", recordToDict r),
    ("sha256", .str (recordChecksum D F previous r))]

theorem loads_recordLine : loads F (recordLine D F previous r) =
    some (.obj (envelope D F previous r)) := by
  refine loads_dumps (.obj (sorted_of_keys ?_) ?_)
  · simp only [List.map_cons, List.map_nil]
    decide +kernel
  · simp [canonical_ofOptional, canonical_recordToDict]

theorem isPrevious_ofOptional (previous : Option String) :
    isPrevious (ofOptional previous) previous = true := by
  cases previous with
  | none => rfl
  | some s => exact decide_eq_true rfl

variable {seen : List String}

theorem verifyLine_recordLine (hhex : D.Hex) (h : r.observationId ∉ seen) :
    verifyLine D F previous seen (recordLine D F previous r) =
      some (r.inUtc, recordChecksum D F previous r) := by
  have hdigest : compareDigest (recordChecksum D F previous r)
      (digest D F (chained (ofOptional previous) (recordToDict r))) = .ok true :=
    compareDigest_eq_ok_true.mpr ⟨⟨hhex.ascii _, hhex.ascii _⟩, rfl⟩
  have hlen : (recordChecksum D F previous r).length = 64 := hhex.length _
  have hseen : r.inUtc.observationId ∉ seen := h
  simp only [verifyLine, loads_recordLine, envelope, get_cons, String.reduceEq, if_true, if_false,
    string, Option.bind_eq_bind, Option.bind_some, isPrevious_ofOptional, hlen, hdigest,
    recordFromDict_recordToDict, guard_true, hseen, not_false_eq_true]
  rfl

/-! ## Chains -/

variable (D F) in
/-- The lines of records after the line with checksum `previous`. -/
def chainLines (previous : Option String) : List ShadowAuditRecord → List String
  | [] => []
  | r :: rs => recordLine D F previous r :: chainLines (some (recordChecksum D F previous r)) rs

variable (D F) in
/-- The checksum of the last of them. -/
def lastChecksum (previous : Option String) : List ShadowAuditRecord → Option String
  | [] => previous
  | r :: rs => lastChecksum (some (recordChecksum D F previous r)) rs

theorem chainLines_append (rs : List ShadowAuditRecord) :
    chainLines D F previous (rs ++ [r]) =
      chainLines D F previous rs ++ [recordLine D F (lastChecksum D F previous rs) r] := by
  induction rs generalizing previous with
  | nil => rfl
  | cons x rs ih =>
    show recordLine D F previous x :: chainLines D F _ (rs ++ [r]) = _
    rw [ih]
    rfl

theorem lastChecksum_append (rs : List ShadowAuditRecord) :
    lastChecksum D F previous (rs ++ [r]) =
      some (recordChecksum D F (lastChecksum D F previous rs) r) := by
  induction rs generalizing previous with
  | nil => rfl
  | cons x rs ih => exact ih

variable {rs : List ShadowAuditRecord}

/-- A line of a chain is of a record, after the records before it. -/
theorem mem_chainLines {line : String}
    (h : line ∈ chainLines D F previous rs) : ∃ before x after, rs = before ++ x :: after ∧
      line = recordLine D F (lastChecksum D F previous before) x := by
  induction rs generalizing previous with
  | nil => cases h
  | cons x rs ih =>
    rcases List.mem_cons.mp h with rfl | h
    · exact ⟨[], x, rs, rfl, rfl⟩
    · obtain ⟨before, y, after, rfl, hline⟩ := ih h
      exact ⟨x :: before, y, after, rfl, hline⟩

theorem chainLines_mem (before after : List ShadowAuditRecord) (x : ShadowAuditRecord) :
    recordLine D F (lastChecksum D F previous before) x ∈
      chainLines D F previous (before ++ x :: after) := by
  induction before generalizing previous with
  | nil => exact List.mem_cons_self
  | cons y before ih => exact List.mem_cons_of_mem _ ih

/-- A written line is printable ASCII, so nothing in it ends a line. -/
theorem recordLine_chars {c : Char} (h : c ∈ (recordLine D F previous r).toList) :
    isLineEnd c = false := by
  rw [recordLine, dumps, String.toList_ofList] at h
  obtain ⟨hlow, hhigh⟩ := write_ascii _ h
  simp only [isLineEnd, Bool.or_eq_false_iff, Bool.and_eq_false_iff, decide_eq_false_iff_not,
    beq_eq_false_iff_ne, ne_eq]
  omega

theorem splitlines_chainLines (rs : List ShadowAuditRecord) :
    splitlines (joinLines (chainLines D F previous rs)) = chainLines D F previous rs := by
  refine splitlines_joinLines fun line hline c hc => ?_
  obtain ⟨before, x, after, -, rfl⟩ := mem_chainLines hline
  exact recordLine_chars hc

theorem verifyLines_chainLines (hhex : D.Hex)
    (hdistinct : (rs.map (·.observationId)).Nodup)
    (hseen : ∀ r ∈ rs, r.observationId ∉ seen) (n : Nat) :
    verifyLines D F n previous seen (chainLines D F previous rs) =
      .ok (rs.map ShadowAuditRecord.inUtc) := by
  induction rs generalizing previous seen n with
  | nil => rfl
  | cons r rs ih =>
    obtain ⟨hr, hrs⟩ := List.nodup_cons.mp hdistinct
    have hrest := @ih (some (recordChecksum D F previous r)) (r.observationId :: seen) hrs
      (fun x hx => ?_) (n + 1)
    · rw [chainLines, verifyLines, verifyLine_recordLine hhex (hseen r List.mem_cons_self)]
      show (do .ok (r.inUtc :: (← verifyLines D F (n + 1) _ (r.observationId :: seen) _))) = _
      rw [hrest]
      rfl
    · intro hmem
      rcases List.mem_cons.mp hmem with heq | hmem
      · exact hr (List.mem_map.mpr ⟨x, hx, heq⟩)
      · exact hseen x (List.mem_cons_of_mem r hx) hmem

/-! ## Journals that were written record by record -/

/-- The journal has written `rs`, and knows their identifiers and the last checksum. -/
structure Wrote (D : Digests) (F : Floats) (j : ShadowAuditJournal)
    (rs : List ShadowAuditRecord) : Prop where
  text : j.file.getD "" = joinLines (chainLines D F none rs)
  ids : ∀ id, id ∈ j.observationIds ↔ id ∈ rs.map (·.observationId)
  last : j.lastHash = lastChecksum D F none rs
  distinct : (rs.map (·.observationId)).Nodup

variable {j : ShadowAuditJournal} {rs : List ShadowAuditRecord}

theorem wrote_new : Wrote D F {} [] where
  text := rfl
  ids _ := Iff.rfl
  last := rfl
  distinct := List.nodup_nil

theorem Wrote.lines (h : Wrote D F j rs) : fileLines j.file = chainLines D F none rs := by
  unfold fileLines
  rw [h.text, splitlines_chainLines]

/-- **Round trip.** -/
theorem verify_wrote (hhex : D.Hex) (h : Wrote D F j rs) :
    verify D F j.file = .ok (rs.map ShadowAuditRecord.inUtc) := by
  unfold verify
  rw [h.lines]
  exact verifyLines_chainLines hhex h.distinct (fun r _ => List.not_mem_nil) 1

/-- **Appending.** A new record is appended. -/
theorem append_wrote (h : Wrote D F j rs) (hnew : r.observationId ∉ rs.map (·.observationId)) :
    ∃ j', j.append D F r none = (.ok (recordChecksum D F (lastChecksum D F none rs) r), j') ∧
      Wrote D F j' (rs ++ [r]) := by
  have hids : r.observationId ∉ j.observationIds := fun hmem => hnew ((h.ids _).mp hmem)
  unfold ShadowAuditJournal.append
  rw [if_neg hids, h.last, h.text]
  refine ⟨_, rfl, ?_, fun id => ?_, ?_, ?_⟩
  · rw [chainLines_append, joinLines_append]
    rfl
  · rw [List.map_append, List.mem_append, List.mem_cons, h.ids, List.map_singleton,
      List.mem_singleton, or_comm]
  · rw [lastChecksum_append]
  · rw [List.map_append]
    exact h.distinct.append (List.nodup_singleton _) (by simpa using hnew)

variable (D F) in
/-- Records appended one by one. -/
def appendAll (j : ShadowAuditJournal) : List ShadowAuditRecord → Except PyError ShadowAuditJournal
  | [] => .ok j
  | r :: rs =>
    match j.append D F r none with
    | (.ok _, j) => appendAll j rs
    | (.error err, _) => .error err

theorem appendAll_wrote {before : List ShadowAuditRecord} (h : Wrote D F j before)
    (hdistinct : ((before ++ rs).map (·.observationId)).Nodup) :
    ∃ j', appendAll D F j rs = .ok j' ∧ Wrote D F j' (before ++ rs) := by
  induction rs generalizing j before with
  | nil => exact ⟨j, rfl, by rw [List.append_nil]; exact h⟩
  | cons r rs ih =>
    have hsplit : before ++ r :: rs = (before ++ [r]) ++ rs := by
      rw [List.append_assoc, List.singleton_append]
    have hnew : r.observationId ∉ before.map (·.observationId) := by
      rw [List.map_append, List.nodup_append] at hdistinct
      exact fun hmem => hdistinct.2.2 _ hmem _ List.mem_cons_self rfl
    obtain ⟨j₁, happend, hwrote⟩ := append_wrote h hnew
    rw [hsplit] at hdistinct ⊢
    obtain ⟨j', hall, hwrote'⟩ := ih hwrote hdistinct
    refine ⟨j', ?_, hwrote'⟩
    rw [appendAll, happend]
    exact hall

variable {fault : Option WriteFault} {j' : ShadowAuditJournal}

/-- What an append that answers has done. -/
theorem append_eq_ok {checksum : String}
    (h : Wrote D F j rs) (happend : j.append D F r fault = (.ok checksum, j')) :
    Wrote D F j' (rs ++ [r]) := by
  by_cases hids : r.observationId ∈ j.observationIds
  · unfold ShadowAuditJournal.append at happend
    rw [if_pos hids] at happend
    cases happend
  · have hfault : fault = none := by
      unfold ShadowAuditJournal.append at happend
      rw [if_neg hids] at happend
      cases fault with
      | none => rfl
      | some fault => cases fault <;> cases happend
    obtain ⟨j'', hsome, hwrote⟩ := append_wrote h fun hmem => hids ((h.ids _).mpr hmem)
    rw [hfault, hsome] at happend
    cases happend
    exact hwrote

/-- An append whose write fails, if it fails, before its file is changed. -/
theorem append_error {err : PyError}
    (hfault : fault = none ∨ fault = some .before)
    (happend : j.append D F r fault = (.error err, j')) : j' = j := by
  unfold ShadowAuditJournal.append at happend
  split at happend
  · cases happend
    rfl
  · rcases hfault with rfl | rfl
    · cases happend
    · cases happend
      rfl

/-! ## Opening a journal anew -/

theorem recordToDict_inUtc (r : ShadowAuditRecord) : recordToDict r.inUtc = recordToDict r := by
  have hinstant : (Datetime.ofInstant r.decisionTimestampUtc.instant).instant =
      r.decisionTimestampUtc.instant := Int.sub_zero _
  simp only [recordToDict, ShadowAuditRecord.inUtc, hinstant]

theorem recordChecksum_inUtc : recordChecksum D F previous r.inUtc = recordChecksum D F previous r := by
  unfold recordChecksum
  rw [recordToDict_inUtc]

/-- The lines of records do not depend on the zones of their timestamps. -/
theorem chainLines_inUtc (rs : List ShadowAuditRecord) :
    chainLines D F previous (rs.map ShadowAuditRecord.inUtc) = chainLines D F previous rs ∧
      lastChecksum D F previous (rs.map ShadowAuditRecord.inUtc) = lastChecksum D F previous rs := by
  induction rs generalizing previous with
  | nil => exact ⟨rfl, rfl⟩
  | cons r rs ih =>
    obtain ⟨hlines, hlast⟩ := @ih (some (recordChecksum D F previous r))
    unfold chainLines lastChecksum
    rw [List.map_cons]
    simp only [recordLine, recordChecksum_inUtc, recordToDict_inUtc, hlines, hlast, and_self]

/-- A journal that is opened anew has written what was written before. -/
theorem openJournal_wrote (hhex : D.Hex) (h : Wrote D F j rs) :
    ∃ j', openJournal D F j.file = .ok j' ∧ j'.file = j.file ∧
      Wrote D F j' (rs.map ShadowAuditRecord.inUtc) := by
  unfold openJournal
  rw [verify_wrote hhex h]
  refine ⟨_, rfl, rfl, ?_, fun id => Iff.rfl, ?_, ?_⟩
  · rw [(chainLines_inUtc rs).1]
    exact h.text
  · rw [(chainLines_inUtc rs).2]
    show readLastHash F j.file = _
    unfold readLastHash
    rw [h.lines]
    rcases List.eq_nil_or_concat' rs with rfl | ⟨rs, x, rfl⟩
    · rfl
    · rw [chainLines_append, lastChecksum_append, List.getLast?_concat]
      simp only [Option.bind_some, loads_recordLine, envelope, get_cons, String.reduceEq, if_true,
        if_false, string]
  · rw [List.map_map]
    exact h.distinct

/-- So has one that is opened on a file without records. -/
theorem openJournal_empty {file : Option String} (h : openJournal D F file = .ok j)
    (hempty : verify D F j.file = .ok []) : Wrote D F j [] := by
  obtain ⟨records, hverify, h⟩ := bind_eq_ok.mp h
  cases h
  rw [hverify] at hempty
  cases hempty
  have hlines : fileLines file = [] := by
    unfold verify at hverify
    cases hfile : fileLines file with
    | nil => rfl
    | cons line lines =>
      rw [hfile] at hverify
      unfold verifyLines at hverify
      split at hverify
      · cases hverify
      · obtain ⟨rest, -, hverify⟩ := bind_eq_ok.mp hverify
        cases hverify
  refine ⟨splitlines_eq_nil hlines, fun id => Iff.rfl, ?_, List.nodup_nil⟩
  show readLastHash F file = none
  unfold readLastHash
  rw [hlines]
  rfl

theorem latestRiskStateSha256_wrote (hhex : D.Hex) (h : Wrote D F j rs) :
    j.latestRiskStateSha256 D F = .ok (rs.reverse.findSome? fun r => r.riskStateSha256) := by
  unfold ShadowAuditJournal.latestRiskStateSha256
  rw [verify_wrote hhex h]
  show Except.ok (List.findSome? _ (List.map ShadowAuditRecord.inUtc rs).reverse) = _
  rw [← List.map_reverse, List.findSome?_map]
  rfl

/-! ## Altered files -/

/-- The checksum that a line carries. -/
def lineChecksum (F : Floats) (line : String) : Option String :=
  match loads F line with
  | some (.obj envelope) => string (get envelope "sha256")
  | _ => none

/-- What the checksum of a line is over. -/
def lineChained (F : Floats) (line : String) : Option PyJson :=
  match loads F line with
  | some (.obj envelope) => do
    let actualPrevious ← get envelope "previous_sha256"
    let rawRecord ← get envelope "record"
    some (chained actualPrevious rawRecord)
  | _ => none

/-- Among the lines, a digest is of one text. -/
def Collisionless (D : Digests) (F : Floats) (lines : List String) : Prop :=
  ∀ u ∈ lines.filterMap (lineChained F), ∀ v ∈ lines.filterMap (lineChained F),
    NoCollision D F u v

theorem verifyLine_eq_some {line checksum : String}
    (h : verifyLine D F previous seen line = some (r, checksum)) :
    lineChecksum F line = some checksum ∧ ∃ actual raw,
      lineChained F line = some (chained actual raw) ∧ Canonical (chained actual raw) ∧
      isPrevious actual previous = true ∧ checksum = digest D F (chained actual raw) ∧
      recordFromDict raw = some r := by
  unfold verifyLine at h
  split at h
  · next items hloads =>
    simp only [Option.bind_eq_bind, Option.bind_eq_some_iff, Option.guard_eq_some'] at h
    obtain ⟨actual, hactual, c, hc, raw, hraw, -, hprevious, -, -, -, hdigest, x, hx, -, -, h⟩ := h
    cases h
    have hcanonical : Canonical (chained actual raw) := by
      cases canonical_loads hloads with
      | obj hs hitems =>
        exact canonical_chained (hitems _ (mem_of_get hactual)) (hitems _ (mem_of_get hraw))
    refine ⟨?_, actual, raw, ?_, hcanonical, hprevious, (compareDigest_eq_ok_true.mp hdigest).2, hx⟩
    · simp only [lineChecksum, hloads, hc]
    · simp only [lineChained, hloads, hactual, hraw, Option.bind_eq_bind, Option.bind_some]
  · cases h

theorem lineChained_recordLine : lineChained F (recordLine D F previous r) =
    some (chained (ofOptional previous) (recordToDict r)) := by
  simp only [lineChained, loads_recordLine, envelope, get_cons, String.reduceEq, if_true, if_false,
    Option.bind_eq_bind, Option.bind_some]

theorem lineChecksum_recordLine : lineChecksum F (recordLine D F previous r) =
    some (recordChecksum D F previous r) := by
  simp only [lineChecksum, loads_recordLine, envelope, get_cons, String.reduceEq, if_true, if_false,
    string]

theorem isPrevious_iff {actual : PyJson} :
    isPrevious actual previous = true ↔ actual = ofOptional previous := by
  constructor
  · intro h
    cases previous with
    | none => cases actual <;> first | rfl | cases h
    | some p =>
      cases actual with
      | str s => rw [of_decide_eq_true h]; rfl
      | _ => cases h
  · rintro rfl
    exact isPrevious_ofOptional previous

theorem ofOptional_inj {a b : Option String} (h : ofOptional a = ofOptional b) : a = b := by
  cases a <;> cases b <;> cases h <;> rfl

variable {lines : List String}

/-- Equal checksums of two records of the chain are of equal identifiers. -/
theorem recordChecksum_inj {previous' : Option String} {x y : ShadowAuditRecord}
    (hfree : Collisionless D F lines)
    (hx : recordLine D F previous x ∈ lines) (hy : recordLine D F previous' y ∈ lines)
    (h : recordChecksum D F previous x = recordChecksum D F previous' y) :
    x.observationId = y.observationId := by
  have htext := hfree _ (List.mem_filterMap.mpr ⟨_, hx, lineChained_recordLine⟩) _
    (List.mem_filterMap.mpr ⟨_, hy, lineChained_recordLine⟩) h
  have heq := dumps_injective
    (canonical_chained (canonical_ofOptional _) (canonical_recordToDict x))
    (canonical_chained (canonical_ofOptional _) (canonical_recordToDict y)) htext
  have hrecord : recordToDict x = recordToDict y := by
    injection heq with heq
    injection heq with _ heq
    injection heq with heq
    exact (Prod.mk.inj heq).2
  have hfind : ∀ z : ShadowAuditRecord, ∃ items, recordToDict z = .obj items ∧
      get items "observation_id" = some (.str z.observationId) := fun z => ⟨_, rfl, rfl⟩
  obtain ⟨items, hitems, hget⟩ := hfind x
  obtain ⟨items', hitems', hget'⟩ := hfind y
  rw [hrecord, hitems'] at hitems
  cases hitems
  exact Value.str.inj (Option.some.inj (hget.symm.trans hget'))

/-- The place of a record in a list of distinct identifiers. -/
theorem before_unique {α β : Type} {f : α → β} {a a' b b' : List α} {x x' : α}
    (h : a ++ x :: b = a' ++ x' :: b') (hdistinct : ((a ++ x :: b).map f).Nodup) (hx : f x = f x') :
    a = a' := by
  induction a generalizing a' with
  | nil =>
    cases a' with
    | nil => rfl
    | cons y a' =>
      obtain ⟨rfl, rfl⟩ := List.cons.inj h
      rw [List.nil_append, List.map_cons, List.nodup_cons] at hdistinct
      exact absurd (List.mem_map.mpr ⟨x', by simp, hx.symm⟩) hdistinct.1
  | cons y a ih =>
    cases a' with
    | nil =>
      obtain ⟨rfl, -⟩ := List.cons.inj h
      rw [List.cons_append, List.map_cons, List.nodup_cons] at hdistinct
      exact absurd (List.mem_map.mpr ⟨x, by simp, hx⟩) hdistinct.1
    | cons y' a' =>
      obtain ⟨rfl, htail⟩ := List.cons.inj h
      rw [List.cons_append, List.map_cons, List.nodup_cons] at hdistinct
      rw [ih htail hdistinct.2]

/-- The last checksum tells how many records were written. -/
theorem lastChecksum_inj (hfree : Collisionless D F lines)
    (hlines : ∀ line ∈ chainLines D F none rs, line ∈ lines)
    (hdistinct : (rs.map (·.observationId)).Nodup) {a a' b b' : List ShadowAuditRecord}
    (h : a ++ b = rs) (h' : a' ++ b' = rs)
    (hlast : lastChecksum D F none a = lastChecksum D F none a') : a = a' := by
  rcases List.eq_nil_or_concat' a with rfl | ⟨a, x, rfl⟩
  · rcases List.eq_nil_or_concat' a' with rfl | ⟨a', y, rfl⟩
    · rfl
    · rw [lastChecksum_append] at hlast
      cases hlast
  · rcases List.eq_nil_or_concat' a' with rfl | ⟨a', y, rfl⟩
    · rw [lastChecksum_append] at hlast
      cases hlast
    · rw [lastChecksum_append, lastChecksum_append] at hlast
      rw [List.append_assoc, List.singleton_append] at h h'
      have hmem : recordLine D F (lastChecksum D F none a) x ∈ lines :=
        hlines _ (h ▸ chainLines_mem a b x)
      have hmem' : recordLine D F (lastChecksum D F none a') y ∈ lines :=
        hlines _ (h' ▸ chainLines_mem a' b' y)
      have hid := recordChecksum_inj hfree hmem hmem' (Option.some.inj hlast)
      have ha := before_unique (f := fun r : ShadowAuditRecord => r.observationId)
        (h.trans h'.symm) (h ▸ hdistinct) hid
      subst ha
      obtain ⟨rfl, -⟩ := List.cons.inj (List.append_cancel_left (h.trans h'.symm))
      rfl

/-- Lines that carry checksums of the chain verify to the records that come next in it, or
not at all. -/
theorem verifyLines_prefix {file : List String}
    (hfree : Collisionless D F (chainLines D F none rs ++ file))
    (hdistinct : (rs.map (·.observationId)).Nodup)
    (hsub : ∀ line ∈ lines, line ∈ file)
    (hcarry : ∀ line ∈ lines, ∀ c, lineChecksum F line = some c →
      ∃ l ∈ chainLines D F none rs, lineChecksum F l = some c)
    {a b : List ShadowAuditRecord} (hsplit : a ++ b = rs) {n : Nat}
    {records : List ShadowAuditRecord}
    (h : verifyLines D F n (lastChecksum D F none a) seen lines = .ok records) :
    records <+: b.map ShadowAuditRecord.inUtc := by
  induction lines generalizing a b n seen records with
  | nil =>
    cases h
    exact List.nil_prefix
  | cons line lines ih =>
    have hmem : ∀ l ∈ chainLines D F none rs, l ∈ chainLines D F none rs ++ file :=
      fun l hl => List.mem_append_left _ hl
    unfold verifyLines at h
    split at h
    · cases h
    · next record checksum hline =>
      obtain ⟨rest, hrest, h⟩ := bind_eq_ok.mp h
      cases h
      obtain ⟨hsum, actual, raw, hchained, hcanonical, hprevious, hdigest, hrecord⟩ :=
        verifyLine_eq_some hline
      obtain ⟨l, hl, hlsum⟩ := hcarry line List.mem_cons_self checksum hsum
      obtain ⟨before, x, after, hrs, rfl⟩ := mem_chainLines hl
      rw [lineChecksum_recordLine] at hlsum
      -- The line is over what the record `x` of the chain is over.
      have htext := hfree _ (List.mem_filterMap.mpr
          ⟨line, List.mem_append_right _ (hsub line List.mem_cons_self), hchained⟩) _
        (List.mem_filterMap.mpr ⟨_, hmem _ hl, lineChained_recordLine⟩)
        (hdigest.symm.trans (Option.some.inj hlsum).symm)
      have heq := dumps_injective hcanonical
        (canonical_chained (canonical_ofOptional _) (canonical_recordToDict x)) htext
      injection heq with heq
      injection heq with hactual heq
      injection heq with hraw
      have hactual := (Prod.mk.inj hactual).2
      have hraw := (Prod.mk.inj hraw).2
      -- So it comes where `x` comes, which is here.
      have hlast : lastChecksum D F none a = lastChecksum D F none before :=
        ofOptional_inj ((isPrevious_iff.mp hprevious).symm.trans hactual)
      have ha := lastChecksum_inj hfree hmem hdistinct hsplit hrs.symm hlast
      subst ha
      obtain rfl : b = x :: after := List.append_cancel_left (hsplit.trans hrs)
      rw [hraw, recordFromDict_recordToDict] at hrecord
      cases hrecord
      have hnext : lastChecksum D F none (a ++ [x]) = some checksum := by
        rw [lastChecksum_append, ← hlsum]
      rw [← hnext] at hrest
      rw [List.map_cons]
      refine List.cons_prefix_cons.mpr ⟨rfl, ih (fun l hl => hsub l (List.mem_cons_of_mem _ hl))
        (fun l hl => hcarry l (List.mem_cons_of_mem _ hl)) ?_ hrest⟩
      rw [List.append_assoc, List.singleton_append]
      exact hrs.symm

end

/-- The records can be appended one by one, and the journal verifies to them; and a file whose
lines carry checksums of this journal verifies to a prefix of them or not at all. Timestamps
are compared as instants. -/
def TamperEvident (D : Digests) (F : Floats) (rs : List ShadowAuditRecord) : Prop :=
  ∃ j, appendAll D F {} rs = .ok j ∧ verify D F j.file = .ok (rs.map ShadowAuditRecord.inUtc) ∧
    ∀ file : Option String,
      (∀ line ∈ fileLines file, ∀ c, lineChecksum F line = some c →
        ∃ l ∈ fileLines j.file, lineChecksum F l = some c) →
      Collisionless D F (fileLines j.file ++ fileLines file) →
      (∃ err, verify D F file = .error err) ∨
        ∃ records, verify D F file = .ok records ∧ records <+: rs.map ShadowAuditRecord.inUtc

/-- **The audit journal** round trips, and tells when it was altered. -/
theorem audit_journal (D : Digests) (F : Floats) (hhex : D.Hex) (rs : List ShadowAuditRecord)
    (hdistinct : (rs.map (·.observationId)).Nodup) : TamperEvident D F rs := by
  obtain ⟨j, happend, hwrote⟩ := appendAll_wrote (D := D) (F := F) wrote_new hdistinct
  rw [List.nil_append] at hwrote
  refine ⟨j, happend, verify_wrote hhex hwrote, fun file hcarry hfree => ?_⟩
  rw [hwrote.lines] at hcarry hfree
  cases hverify : verify D F file with
  | error err => exact .inl ⟨err, rfl⟩
  | ok records =>
    exact .inr ⟨records, rfl, verifyLines_prefix hfree hdistinct (fun _ hl => hl) hcarry
      (List.nil_append rs) hverify⟩

/-- A record of a decision to wait, with a reason code. -/
def waitRecord (observationId reasonCode : String) (h : isBlank observationId = false) :
    ShadowAuditRecord where
  observationId
  sessionId := "s"
  decisionTimestampUtc := .ofInstant 0
  action := "WAIT"
  status := .wait
  selectedEngineId := none
  proposalKeys := []
  riskReasons := []
  reasonCodes := [reasonCode]
  datasetFingerprint := "d"
  codeCommit := "c"
  configFingerprint := "f"
  riskStateSha256 := none
  identifiers := ⟨h, by decide⟩
  aware := epoch_aware
  described := ⟨by decide, List.cons_ne_nil _ _⟩
  fingerprints := by decide
  checksum := by decide

def separatorRecord : ShadowAuditRecord := waitRecord "a" "\u2028" (by decide)

def quoteRecord : ShadowAuditRecord := waitRecord "b" "\"\n" (by decide)

/-- The SHA-256 of `separatorRecord`, and of `quoteRecord` after it. -/
def auditDigests : Digests :=
  let first := "fccaa539395e61390bfe5013f8372be3f52e3d2474bd36d3bcf6cd57d3bed6b6"
  digestOf
    [(dumps sampleFloats (chained .null (recordToDict separatorRecord)), first),
      (dumps sampleFloats (chained (.str first) (recordToDict quoteRecord)),
        "5d68aee5fb430344a7ffb14bcbb57a4b4ff23788ce92698c20cd4f3842ae0114")]

/-- A line separator in one record, a quote and a line feed in the other. -/
theorem audit_journal_separators : TamperEvident auditDigests sampleFloats
    [separatorRecord, quoteRecord] :=
  audit_journal _ _ (digestOf_hex (by decide +kernel)) _ (by decide)

end Greenfield.Shadow
