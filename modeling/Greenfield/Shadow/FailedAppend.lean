import Greenfield.Shadow.Torn

/-!
# Appends that fail

`append` writes a line in place and rolls nothing back. A call that raises before the first
byte leaves a journal that verifies as before and takes further records. Every byte that is
written is a further line for `verify` (`verify_written`): it raises on a line that is cut,
and a line that is whole is a record whose append had raised. So a failed append is
invisible exactly when it wrote nothing.
-/

namespace Greenfield.Shadow

open Keyed Py Risk Json

variable {D : Digests} {F : Floats} {previous : Option String} {seen : List String}
  {lines : List String} {records rs : List ShadowAuditRecord} {j : ShadowAuditJournal}
  {x : ShadowAuditRecord}

/-! ## Lines behind a line feed -/

/-- A line feed ends what is before it, whatever stands behind. -/
theorem linesFrom_ended (s line text : List Char) :
    linesFrom line (text ++ '\n' :: s) = linesFrom line (text ++ ['\n']) ++ linesFrom [] s := by
  have hfeed : isLineEnd '\n' = true := by decide
  induction line, text using linesFrom.induct with
  | case1 | case2 =>
    rw [List.nil_append, List.nil_append, linesFrom, linesFrom, if_pos hfeed, if_pos hfeed,
      linesFrom, if_pos rfl, List.singleton_append]
    all_goals exact fun _ h => absurd h (by decide)
  | case3 line text ih => simp only [List.cons_append, linesFrom, ih]
  | case4 line c text hpair hend ih | case5 line c text hpair hend ih =>
    by_cases hlast : c = '\r' ∧ text = []
    · obtain ⟨rfl, rfl⟩ := hlast
      simp only [List.cons_append, List.nil_append, linesFrom, if_true]
    · have hopen (u s' : List Char) (hc : c = '\r') : text ++ '\n' :: u ≠ '\n' :: s' := by
        cases text with
        | nil => exact absurd ⟨hc, rfl⟩ hlast
        | cons d text =>
          rintro h
          cases h
          exact hpair _ hc rfl
      rw [List.cons_append, List.cons_append, linesFrom.eq_3 _ _ _ (hopen s),
        linesFrom.eq_3 _ _ _ (hopen []), ih]
      simp only [hend, Bool.false_eq_true, if_true, if_false, List.cons_append]

/-- The text is empty, or its last line is ended. -/
def LineEnded (text : String) : Prop := text = "" ∨ ∃ body, text.toList = body ++ ['\n']

theorem LineEnded.append {text line : String} (h : LineEnded text) :
    splitlines (text ++ line) = splitlines text ++ splitlines line := by
  rcases h with rfl | ⟨body, hbody⟩
  · rw [String.empty_append]
    rfl
  · have htext : text.toList ++ line.toList = body ++ '\n' :: line.toList := by
      rw [hbody, List.append_assoc, List.singleton_append]
    unfold splitlines
    rw [String.toList_append, htext, linesFrom_ended, hbody, List.map_append]

variable {n : Nat}

theorem verifyLines_length (h : verifyLines D F n previous seen lines = .ok records) :
    records.length = lines.length := by
  induction lines generalizing n previous seen records with
  | nil =>
    cases h
    rfl
  | cons line lines ih =>
    unfold verifyLines at h
    split at h
    · cases h
    · obtain ⟨rest, hrest, h⟩ := bind_eq_ok.mp h
      cases h
      rw [List.length_cons, List.length_cons, ih hrest]

/-- A further line that verifies after the lines that verify. -/
theorem verifyLines_concat {line checksum : String} {record : ShadowAuditRecord}
    (h : verifyLines D F n previous seen lines = .ok records)
    (hline : verifyLine D F ((lines.getLast?.map (lineChecksum F)).getD previous)
      ((records.map (·.observationId)).reverse ++ seen) line = some (record, checksum)) :
    verifyLines D F n previous seen (lines ++ [line]) = .ok (records ++ [record]) := by
  induction lines generalizing n previous seen records with
  | nil =>
    cases h
    have hfirst : verifyLine D F previous seen line = some (record, checksum) := hline
    rw [List.nil_append, verifyLines, hfirst]
    rfl
  | cons first lines ih =>
    unfold verifyLines at h
    split at h
    · cases h
    · next r sum hfirst =>
      obtain ⟨rest, hrest, h⟩ := bind_eq_ok.mp h
      cases h
      have hlast : ((first :: lines).getLast?.map (lineChecksum F)).getD previous =
          (lines.getLast?.map (lineChecksum F)).getD (some sum) := by
        cases lines with
        | nil => exact (verifyLine_eq_some hfirst).1
        | cons second lines => rw [List.getLast?_cons_cons]; rfl
      rw [hlast, List.map_cons, List.reverse_cons, List.append_assoc] at hline
      rw [List.cons_append, verifyLines, hfirst]
      show (verifyLines D F (n + 1) (some sum) (r.observationId :: seen) (lines ++ [line]) >>=
        fun rest => .ok (r :: rest)) = _
      rw [ih hrest hline]
      rfl

/-! ## Journals -/

/-- A valid journal: the file verifies, its lines are ended, and the object holds what the file
holds. -/
structure Valid (D : Digests) (F : Floats) (j : ShadowAuditJournal)
    (records : List ShadowAuditRecord) : Prop where
  verified : verify D F j.file = .ok records
  ended : LineEnded (j.file.getD "")
  ids : ∀ id, id ∈ j.observationIds ↔ id ∈ records.map (·.observationId)
  last : j.lastHash = readLastHash F j.file

theorem readLastHash_eq (file : Option String) :
    readLastHash F file = ((fileLines file).getLast?.map (lineChecksum F)).getD none := by
  unfold readLastHash
  cases (fileLines file).getLast? with
  | none => rfl
  | some line => rfl

/-- What is written is valid. -/
theorem Wrote.valid (hhex : D.Hex) (h : Wrote D F j rs) :
    Valid D F j (rs.map ShadowAuditRecord.inUtc) where
  verified := verify_wrote hhex h
  ended := by
    unfold LineEnded
    rw [h.text]
    rcases List.eq_nil_or_concat' (chainLines D F none rs) with hnil | ⟨lines, line, hlines⟩
    · rw [hnil]
      exact .inl rfl
    · refine .inr ⟨(joinLines lines ++ line).toList, ?_⟩
      rw [hlines, joinLines_append, ← String.append_assoc, String.toList_append]
      rfl
  ids id := by
    rw [List.map_map]
    exact h.ids id
  last := by
    obtain ⟨j', hopen, -, hwrote⟩ := openJournal_wrote hhex h
    obtain ⟨verified, -, heq⟩ := bind_eq_ok.mp hopen
    cases heq
    have hlast : readLastHash F j.file = lastChecksum D F none (rs.map ShadowAuditRecord.inUtc) :=
      hwrote.last
    rw [h.last, hlast, (chainLines_inUtc rs).2]

/-- A valid journal is opened as it is. -/
theorem Valid.opened {j' : ShadowAuditJournal} (h : Valid D F j records)
    (hopen : openJournal D F j.file = .ok j') : Valid D F j' records := by
  unfold openJournal at hopen
  rw [h.verified] at hopen
  cases hopen
  exact ⟨h.verified, h.ended, fun id => Iff.rfl, rfl⟩

/-- **Appending** to a valid journal. -/
theorem Valid.append (hhex : D.Hex) (h : Valid D F j records)
    (hnew : x.observationId ∉ records.map (·.observationId)) : ∃ checksum j',
    j.append D F x none = (.ok checksum, j') ∧ Valid D F j' (records ++ [x.inUtc]) := by
  have hids : x.observationId ∉ j.observationIds := fun hmem => hnew ((h.ids _).mp hmem)
  have hline : splitlines (recordLine D F j.lastHash x ++ "\n") = [recordLine D F j.lastHash x] := by
    have hjoin : recordLine D F j.lastHash x ++ "\n" = joinLines [recordLine D F j.lastHash x] := by
      rw [← List.nil_append [_], joinLines_append]
      exact String.empty_append.symm
    rw [hjoin]
    refine splitlines_joinLines fun l hl c hc => ?_
    rw [List.mem_singleton.mp hl] at hc
    exact recordLine_chars hc
  have hlines : fileLines (some (j.file.getD "" ++ (recordLine D F j.lastHash x ++ "\n"))) =
      fileLines j.file ++ [recordLine D F j.lastHash x] := by
    unfold fileLines
    rw [Option.getD_some, h.ended.append, hline]
  have hnext : verifyLine D F (((fileLines j.file).getLast?.map (lineChecksum F)).getD none)
      ((records.map (·.observationId)).reverse ++ []) (recordLine D F j.lastHash x) =
        some (x.inUtc, recordChecksum D F j.lastHash x) := by
    rw [List.append_nil, ← readLastHash_eq, ← h.last]
    exact verifyLine_recordLine hhex fun hmem => hnew (List.mem_reverse.mp hmem)
  have hended : (j.file.getD "" ++ (recordLine D F j.lastHash x ++ "\n")).toList =
      (j.file.getD "" ++ recordLine D F j.lastHash x).toList ++ ['\n'] := by
    rw [← String.append_assoc, String.toList_append]
    rfl
  unfold ShadowAuditJournal.append
  rw [if_neg hids]
  refine ⟨_, _, rfl, ?_, .inr ⟨_, hended⟩, fun id => ?_, ?_⟩
  · have hfile := h.verified
    unfold verify at hfile ⊢
    rw [hlines]
    exact verifyLines_concat hfile hnext
  · rw [List.map_append, List.mem_append, List.mem_cons, h.ids, List.map_singleton,
      List.mem_singleton, or_comm]
    rfl
  · rw [readLastHash_eq, hlines, List.getLast?_concat]
    exact lineChecksum_recordLine.symm

theorem Valid.appendAll (hhex : D.Hex) (h : Valid D F j records)
    (hdistinct : ((records ++ rs).map (·.observationId)).Nodup) : ∃ j',
    appendAll D F j rs = .ok j' ∧ Valid D F j' (records ++ rs.map ShadowAuditRecord.inUtc) := by
  induction rs generalizing j records with
  | nil => exact ⟨j, rfl, by rw [List.map_nil, List.append_nil]; exact h⟩
  | cons x rs ih =>
    have hnew : x.observationId ∉ records.map (·.observationId) := by
      rw [List.map_append, List.nodup_append] at hdistinct
      exact fun hmem => hdistinct.2.2 _ hmem _ List.mem_cons_self rfl
    have hids : ((records ++ [x.inUtc] ++ rs).map (·.observationId)).Nodup := by
      simpa [ShadowAuditRecord.inUtc] using hdistinct
    obtain ⟨checksum, j₁, happend, hvalid⟩ := h.append hhex hnew
    obtain ⟨j', hall, hvalid'⟩ := ih hvalid hids
    refine ⟨j', ?_, ?_⟩
    · rw [Shadow.appendAll, happend]
      exact hall
    · rw [List.map_cons, ← List.singleton_append, ← List.append_assoc]
      exact hvalid'

/-! ## Failures -/

/-- Nothing is seen of an append that failed: the journal verifies with the records that it held,
and it, or one that is opened on its file, takes every further records and verifies with them. -/
structure Invisible (D : Digests) (F : Floats) (records : List ShadowAuditRecord)
    (j : ShadowAuditJournal) : Prop where
  verified : verify D F j.file = .ok records
  later : ∀ j', (j' = j ∨ openJournal D F j.file = .ok j') → ∀ rs : List ShadowAuditRecord,
    ((records ++ rs).map (·.observationId)).Nodup → ∃ j'', appendAll D F j' rs = .ok j'' ∧
      verify D F j''.file = .ok (records ++ rs.map ShadowAuditRecord.inUtc)

theorem Valid.invisible (hhex : D.Hex) (h : Valid D F j records) : Invisible D F records j where
  verified := h.verified
  later j' hj' rs hdistinct := by
    have hvalid : Valid D F j' records := by
      rcases hj' with rfl | hopen
      · exact h
      · exact h.opened hopen
    obtain ⟨j'', hall, hvalid'⟩ := hvalid.appendAll hhex hdistinct
    exact ⟨j'', hall, hvalid'.verified⟩

/-- What is written behind a valid journal is a further line. -/
theorem Valid.verify_written (h : Valid D F j records) {written : String} (hne : written ≠ "") :
    verify D F (some (j.file.getD "" ++ written)) ≠ .ok records := by
  intro hverify
  have hbefore := verifyLines_length h.verified
  have hafter := verifyLines_length hverify
  have hlines : fileLines (some (j.file.getD "" ++ written)) =
      fileLines j.file ++ splitlines written := h.ended.append
  have hmore : splitlines written ≠ [] := fun hnil => hne (splitlines_eq_nil hnil)
  have hpos := List.length_pos_iff.mpr hmore
  rw [hlines, List.length_append] at hafter
  omega

/-- A file that is made, or not, without a byte. -/
theorem Valid.unwritten (h : Valid D F j records) :
    Valid D F { j with file := some (j.file.getD "" ++ String.ofList []) } records := by
  have hfile : fileLines (some (j.file.getD "" ++ String.ofList [])) = fileLines j.file :=
    congrArg splitlines String.append_empty
  refine ⟨?_, ?_, h.ids, ?_⟩
  · have hverified := h.verified
    unfold verify at hverified ⊢
    rw [hfile]
    exact hverified
  · show LineEnded (j.file.getD "" ++ String.ofList [])
    rw [show j.file.getD "" ++ String.ofList [] = j.file.getD "" from String.append_empty]
    exact h.ended
  · rw [readLastHash_eq, hfile, ← readLastHash_eq]
    exact h.last

/-- A line that is cut before its last brace: nothing verifies from then on. -/
theorem Wrote.append_cut (h : Wrote D F j rs) (hnew : x.observationId ∉ j.observationIds)
    (hpos : 0 < n) (hlast : n < (recordLine D F j.lastHash x).toList.length)
    (records : List ShadowAuditRecord) :
    verify D F (j.append D F x (some (.short n))).2.file ≠ .ok records := by
  have hwritten : (recordLine D F j.lastHash x ++ "\n").toList.take n =
      (recordLine D F j.lastHash x).toList.take n := by
    rw [String.toList_append, List.take_append_of_le_length hlast.le]
  have hrest : (recordLine D F j.lastHash x).toList.drop n ≠ [] := by
    rw [Ne, List.drop_eq_nil_iff]
    omega
  have hkept := h.cut hrest (List.take_append_drop n _).symm
  unfold ShadowAuditJournal.append
  rw [if_neg hnew]
  show verify D F (some (j.file.getD "" ++
    String.ofList ((recordLine D F j.lastHash x ++ "\n").toList.take n))) ≠ _
  rw [hwritten]
  intro hverify
  have hnil := congrArg List.length (hkept.verified hverify)
  rw [List.length_take, List.length_nil] at hnil
  omega

/-- **Failed appends.** An append that raises is invisible exactly when it wrote no byte. -/
theorem failed_append (D : Digests) (F : Floats) (hhex : D.Hex) (h : Valid D F j records)
    (x : ShadowAuditRecord) (fault : WriteFault) :
    (∃ err, (j.append D F x (some fault)).1 = .error err) ∧
      (Invisible D F records (j.append D F x (some fault)).2 ↔
        x.observationId ∈ j.observationIds ∨ fault = .before ∨ fault = .short 0) := by
  have hline : (recordLine D F j.lastHash x ++ "\n").toList ≠ [] := by
    rw [String.toList_append]
    exact List.append_ne_nil_of_right_ne_nil _ (by decide)
  unfold ShadowAuditJournal.append
  by_cases hold : x.observationId ∈ j.observationIds
  · rw [if_pos hold]
    exact ⟨⟨_, rfl⟩, fun _ => .inl hold, fun _ => h.invisible hhex⟩
  · rw [if_neg hold]
    cases fault with
    | before => exact ⟨⟨_, rfl⟩, fun _ => .inr (.inl rfl), fun _ => h.invisible hhex⟩
    | short n =>
      refine ⟨⟨_, rfl⟩, fun hinvisible => ?_, ?_⟩
      · cases n with
        | zero => exact .inr (.inr rfl)
        | succ n =>
          -- the first bytes are a line of their own, which the records do not account for
          refine absurd hinvisible.verified (h.verify_written fun hempty => ?_)
          rw [← String.ofList_nil, String.ofList_inj, List.take_eq_nil_iff] at hempty
          exact hempty.elim (Nat.succ_ne_zero n) hline
      · rintro (hmem | hbefore | hnone)
        · exact absurd hmem hold
        · cases hbefore
        · cases hnone
          exact h.unwritten.invisible hhex
    | after =>
      refine ⟨⟨_, rfl⟩, fun hinvisible => ?_, ?_⟩
      · refine absurd hinvisible.verified (h.verify_written fun hempty => hline ?_)
        rw [hempty]
        rfl
      · rintro (hmem | hbefore | hnone)
        · exact absurd hmem hold
        · cases hbefore
        · cases hnone

theorem auditDigests_hex : auditDigests.Hex := digestOf_hex (by decide +kernel)

/-- The write of a first line that writes nothing. -/
theorem failed_append_unwritten : Invisible auditDigests sampleFloats []
    (({} : ShadowAuditJournal).append auditDigests sampleFloats separatorRecord
      (some (.short 0))).2 :=
  (failed_append _ _ auditDigests_hex (wrote_new.valid auditDigests_hex) _ _).2.mpr
    (.inr (.inr rfl))

/-- The write of a first line that ends after its first byte: nothing verifies from then on. -/
theorem cut_append_seen : Valid auditDigests sampleFloats {} [] ∧
    (∃ err, (({} : ShadowAuditJournal).append auditDigests sampleFloats separatorRecord
      (some (.short 1))).1 = .error err) ∧
    ∀ records, verify auditDigests sampleFloats (({} : ShadowAuditJournal).append auditDigests
      sampleFloats separatorRecord (some (.short 1))).2.file ≠ .ok records := by
  have hlong : 1 < (recordLine auditDigests sampleFloats none separatorRecord).toList.length := by
    obtain ⟨cs, hcs⟩ : ∃ cs, (recordLine auditDigests sampleFloats none separatorRecord).toList =
        '{' :: cs := by
      rw [recordLine_toList]
      exact write_obj _
    have hmore : cs ≠ [] := by
      rintro rfl
      have hbrace : recordLine auditDigests sampleFloats none separatorRecord = "\x7b" :=
        String.toList_injective hcs
      have hloads : loads sampleFloats (recordLine auditDigests sampleFloats none separatorRecord) =
          some (.obj (envelope auditDigests sampleFloats none separatorRecord)) := loads_recordLine
      have hnone : loads sampleFloats "\x7b" = none := rfl
      rw [hbrace, hnone] at hloads
      cases hloads
    rw [hcs, List.length_cons]
    have hpos := List.length_pos_iff.mpr hmore
    omega
  exact ⟨wrote_new.valid auditDigests_hex, ⟨_, rfl⟩,
    wrote_new.append_cut List.not_mem_nil Nat.one_pos hlong⟩

end Greenfield.Shadow
