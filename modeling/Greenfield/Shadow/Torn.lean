import Greenfield.Lib.JsonCut
import Greenfield.Shadow.Stored

/-!
# Journals with a line that is cut

A write that does not end leaves the beginning of a line behind the lines of the journal.
No part of a line that lacks its brace is read, so such a journal holds the records it held
before, and cannot be opened (`openJournal_kept`). A line that lacks only its line feed is
a line like any other for `verify`, but the next line is then written behind it, and
neither is read (`glued_lost`).
-/

namespace Greenfield.Shadow

open Keyed Py Risk Json

/-! ## Lines -/

theorem linesFrom_rest {cs : List Char} (h : ∀ c ∈ cs, isLineEnd c = false) {line : List Char}
    (hne : line ≠ [] ∨ cs ≠ []) : linesFrom line cs = [line.reverse ++ cs] := by
  induction cs generalizing line with
  | nil => rw [linesFrom, if_neg (hne.resolve_right fun h => h rfl), List.append_nil]
  | cons c cs ih =>
    have hc := h c List.mem_cons_self
    rw [linesFrom, if_neg (by rw [hc]; decide), ih (fun d hd => h d (List.mem_cons_of_mem c hd))
      (.inl (List.cons_ne_nil _ _)), List.reverse_cons, List.append_assoc]
    · rfl
    · rintro s' rfl
      cases hc

/-- What is behind the last line feed is a line. -/
theorem splitlines_rest {lines : List String} {rest : List Char}
    (hlines : ∀ l ∈ lines, ∀ c ∈ l.toList, isLineEnd c = false)
    (hrest : ∀ c ∈ rest, isLineEnd c = false) (hne : rest ≠ []) :
    splitlines (joinLines lines ++ String.ofList rest) = lines ++ [String.ofList rest] := by
  unfold splitlines joinLines
  rw [String.toList_append, String.toList_ofList, String.toList_ofList]
  induction lines with
  | nil => rw [List.flatMap_nil, List.nil_append, linesFrom_rest hrest (.inr hne)]; rfl
  | cons l lines ih =>
    have htext : (l :: lines).flatMap (fun l => l.toList ++ ['\n']) ++ rest =
        l.toList ++ '\n' :: (lines.flatMap (fun l => l.toList ++ ['\n']) ++ rest) := by
      simp only [List.flatMap_cons, List.append_assoc, List.cons_append, List.nil_append]
    rw [htext, linesFrom_line (hlines l List.mem_cons_self), List.map_cons, List.reverse_nil,
      List.nil_append, String.ofList_toList, ih fun k hk => hlines k (List.mem_cons_of_mem l hk),
      List.cons_append]

/-- The record on a line, wherever the line stands. -/
def lineRecord (F : Floats) (line : String) : Option ShadowAuditRecord :=
  match loads F line with
  | some (.obj envelope) => (get envelope "record").bind recordFromDict
  | _ => none

/-- The identifiers of the records on the lines of a journal. -/
def heldIds (F : Floats) (file : Option String) : List String :=
  ((fileLines file).filterMap (lineRecord F)).map (·.observationId)

variable {D : Digests} {F : Floats} {previous : Option String} {x : ShadowAuditRecord}
  {rs : List ShadowAuditRecord}

theorem lineRecord_recordLine : lineRecord F (recordLine D F previous x) = some x.inUtc := by
  have hrecord : get (envelope D F previous x) "record" = some (recordToDict x) := by
    simp only [envelope, get_cons, String.reduceEq, if_true, if_false]
  have hread : lineRecord F (recordLine D F previous x) =
      (get (envelope D F previous x) "record").bind recordFromDict := by
    unfold lineRecord
    rw [loads_recordLine]
  rw [hread, hrecord, Option.bind_some, recordFromDict_recordToDict]

theorem lineRecord_chainLines (rs : List ShadowAuditRecord) :
    (chainLines D F previous rs).filterMap (lineRecord F) = rs.map ShadowAuditRecord.inUtc := by
  induction rs generalizing previous with
  | nil => rfl
  | cons x rs ih => rw [chainLines, List.filterMap_cons_some lineRecord_recordLine, ih, List.map_cons]

theorem chainLines_chars {line : String} (h : line ∈ chainLines D F previous rs) {c : Char}
    (hc : c ∈ line.toList) : isLineEnd c = false := by
  obtain ⟨before, x, after, -, rfl⟩ := mem_chainLines h
  exact recordLine_chars hc

theorem recordLine_toList :
    (recordLine D F previous x).toList = write F (.obj (envelope D F previous x)) := by
  rw [recordLine, dumps, String.toList_ofList, envelope]

/-! ## Kept records -/

/-- The beginning of a line, without its last brace. -/
def Torn (D : Digests) (F : Floats) (torn : List Char) : Prop :=
  ∃ previous x rest, rest ≠ [] ∧ (recordLine D F previous x).toList = torn ++ rest

/-- The journal has the lines of `rs`, and behind them the beginning of a line, or nothing. -/
structure Kept (D : Digests) (F : Floats) (file : Option String) (rs : List ShadowAuditRecord)
    (torn : List Char) : Prop where
  text : file.getD "" = joinLines (chainLines D F none rs) ++ String.ofList torn
  distinct : (rs.map (·.observationId)).Nodup
  torn : torn = [] ∨ Torn D F torn

variable {torn : List Char} {file : Option String} {j : ShadowAuditJournal}

theorem Torn.loads (h : Torn D F torn) : loads F (String.ofList torn) = none := by
  obtain ⟨previous, x, rest, hne, htext⟩ := h
  rw [recordLine_toList] at htext
  exact loads_cut (canonical_loads (loads_recordLine (D := D))) htext hne

theorem Torn.chars (h : Torn D F torn) {c : Char} (hc : c ∈ torn) : isLineEnd c = false := by
  obtain ⟨previous, x, rest, -, htext⟩ := h
  have hline : c ∈ (recordLine D F previous x).toList := by
    rw [htext]
    exact List.mem_append_left _ hc
  exact recordLine_chars hline

theorem Wrote.kept (h : Wrote D F j rs) : Kept D F j.file rs [] where
  text := by rw [h.text]; exact String.append_empty.symm
  distinct := h.distinct
  torn := .inl rfl

theorem Kept.lines (h : Kept D F file rs torn) : fileLines file =
    chainLines D F none rs ++ if torn = [] then [] else [String.ofList torn] := by
  unfold fileLines
  rw [h.text]
  split
  · next hnil =>
    rw [hnil, List.append_nil]
    have hempty : joinLines (chainLines D F none rs) ++ String.ofList [] =
        joinLines (chainLines D F none rs) := String.append_empty
    rw [hempty, splitlines_chainLines]
  · next hne =>
    exact splitlines_rest (fun l hl c hc => chainLines_chars hl hc)
      (fun c hc => (h.torn.resolve_left hne).chars hc) hne

/-- **Held records.** A line that is cut takes no record from the journal. -/
theorem Kept.held (h : Kept D F file rs torn) :
    heldIds F file = rs.map (·.observationId) := by
  have htorn : (if torn = [] then [] else [String.ofList torn]).filterMap (lineRecord F) = [] := by
    split
    · rfl
    · next hne =>
      rw [List.filterMap_cons_none, List.filterMap_nil]
      unfold lineRecord
      rw [(h.torn.resolve_left hne).loads]
  unfold heldIds
  rw [h.lines, List.filterMap_append, lineRecord_chainLines, htorn, List.append_nil, List.map_map]
  rfl

variable {records : List ShadowAuditRecord}

/-- Every line of a journal that verifies is JSON. -/
theorem loads_verified {n : Nat} {seen : List String} {lines : List String}
    (h : verifyLines D F n previous seen lines = .ok records) :
    ∀ line ∈ lines, loads F line ≠ none := by
  induction lines generalizing n previous seen records with
  | nil => exact fun line hline => absurd hline List.not_mem_nil
  | cons line lines ih =>
    unfold verifyLines at h
    split at h
    · cases h
    · next record checksum hline =>
      obtain ⟨rest, hrest, -⟩ := bind_eq_ok.mp h
      intro l hl
      rcases List.mem_cons.mp hl with rfl | hl
      · intro hnone
        unfold verifyLine at hline
        rw [hnone] at hline
        cases hline
      · exact ih hrest l hl

/-- A journal that verifies has no line that is cut. -/
theorem Kept.verified (h : Kept D F file rs torn)
    (hverify : verify D F file = .ok records) : torn = [] := by
  by_contra hne
  unfold verify at hverify
  rw [h.lines, if_neg hne] at hverify
  refine loads_verified hverify (String.ofList torn) ?_ (h.torn.resolve_left hne).loads
  exact List.mem_append_right _ (List.mem_singleton_self _)

theorem Kept.wrote (h : Kept D F file rs []) : Wrote D F
    ⟨file, rs.map (·.observationId), lastChecksum D F none rs⟩ rs where
  text := by rw [h.text]; exact String.append_empty
  ids _ := Iff.rfl
  last := rfl
  distinct := h.distinct

/-- **Opening.** A journal with a line that is cut is not opened. -/
theorem openJournal_kept (hhex : D.Hex) (h : Kept D F file rs torn)
    (hopen : openJournal D F file = .ok j) :
    torn = [] ∧ j.file = file ∧ Wrote D F j (rs.map ShadowAuditRecord.inUtc) := by
  obtain ⟨records, hverify, -⟩ := bind_eq_ok.mp hopen
  obtain rfl := h.verified hverify
  obtain ⟨j', hopen', hfile, hwrote⟩ := openJournal_wrote hhex h.wrote
  rw [show openJournal D F file = .ok j' from hopen'] at hopen
  cases hopen
  exact ⟨rfl, hfile, hwrote⟩

/-- A journal with a line that is cut is not searched either. -/
theorem Kept.find_torn (h : Kept D F j.file rs torn) (hne : torn ≠ []) (observationId : String)
    {found : Option ShadowAuditRecord} : j.find D F observationId ≠ .ok found := by
  intro hfind
  obtain ⟨records, hverify, -⟩ := bind_eq_ok.mp hfind
  exact hne (h.verified hverify)

/-- What a journal finds it has written. -/
theorem Wrote.find (hhex : D.Hex) (h : Wrote D F j rs) {observationId : String}
    {record : ShadowAuditRecord} (hfind : j.find D F observationId = .ok (some record)) :
    observationId ∈ rs.map (·.observationId) := by
  unfold ShadowAuditJournal.find at hfind
  rw [verify_wrote hhex h] at hfind
  have hfound := Except.ok.inj hfind
  have hid : record.observationId = observationId := by simpa using List.find?_some hfound
  obtain ⟨x, hx, rfl⟩ := List.mem_map.mp (List.mem_of_find?_eq_some hfound)
  exact List.mem_map.mpr ⟨x, hx, hid⟩

/-! ## Appending -/

/-- An append makes its line in full and answers, or it raises and has made some beginning of
it. A line that is made in part is reported. -/
theorem append_cases (j : ShadowAuditJournal) (x : ShadowAuditRecord) (fault : Option WriteFault) :
    (∃ err, j.append D F x fault = (.error err, j)) ∨
      x.observationId ∉ j.observationIds ∧
        ((∃ checksum j', j.append D F x fault = (.ok checksum, j')) ∨
          ∃ err written rest, (recordLine D F j.lastHash x ++ "\n").toList = written ++ rest ∧
            (rest ≠ [] → ∃ msg, err = .shadowAudit msg) ∧
            j.append D F x fault = (.error err,
              { j with file := some (j.file.getD "" ++ String.ofList written) })) := by
  by_cases hold : x.observationId ∈ j.observationIds
  · unfold ShadowAuditJournal.append
    rw [if_pos hold]
    exact .inl ⟨_, rfl⟩
  · unfold ShadowAuditJournal.append
    rw [if_neg hold]
    cases fault with
    | none => exact .inr ⟨hold, .inl ⟨_, _, rfl⟩⟩
    | some fault =>
      cases fault with
      | before => exact .inl ⟨_, rfl⟩
      | short n =>
        exact .inr ⟨hold, .inr ⟨_, _, _, (List.take_append_drop n _).symm, fun _ => ⟨_, rfl⟩, rfl⟩⟩
      | after =>
        refine .inr ⟨hold, .inr ⟨.osError, (recordLine D F j.lastHash x ++ "\n").toList, [],
          (List.append_nil _).symm, fun hne => absurd rfl hne, ?_⟩⟩
        rw [String.ofList_toList]

/-- The lines, with the beginning of a further one, which is cut before its last brace. -/
theorem Wrote.cut (h : Wrote D F j rs) {written rest : List Char} (hne : rest ≠ [])
    (hline : (recordLine D F j.lastHash x).toList = written ++ rest) :
    Kept D F (some (j.file.getD "" ++ String.ofList written)) rs written where
  text := by rw [Option.getD_some, h.text]
  distinct := h.distinct
  torn := .inr ⟨_, _, rest, hne, hline⟩

/-- The lines, with a further one. -/
theorem Wrote.longer (h : Wrote D F j rs) (hnew : x.observationId ∉ j.observationIds) :
    Kept D F (some (j.file.getD "" ++ (recordLine D F j.lastHash x ++ "\n"))) (rs ++ [x]) [] := by
  obtain ⟨j', happend, hwrote⟩ := append_wrote h fun hmem => hnew ((h.ids _).mpr hmem)
  have hfile : some (j.file.getD "" ++ (recordLine D F j.lastHash x ++ "\n")) = j'.file := by
    unfold ShadowAuditJournal.append at happend
    rw [if_neg hnew] at happend
    rw [← (Prod.mk.inj happend).2]
  rw [hfile]
  exact hwrote.kept

/-- A line that lacks its line feed and the next one behind it are no records. -/
theorem glued_lost {y : ShadowAuditRecord} {previous' : Option String}
    (htext : file.getD "" = joinLines (chainLines D F none rs) ++
      (recordLine D F previous x ++ (recordLine D F previous' y ++ "\n"))) :
    heldIds F file = rs.map (·.observationId) := by
  obtain ⟨cs, hcs⟩ : ∃ cs, (recordLine D F previous' y).toList = '{' :: cs := by
    rw [recordLine_toList]
    exact write_obj _
  have hglued : recordLine D F previous x ++ recordLine D F previous' y = String.ofList
      (write F (.obj (envelope D F previous x)) ++ '{' :: cs) := by
    apply String.toList_injective
    rw [String.toList_append, hcs, recordLine_toList, String.toList_ofList]
  have hnone : lineRecord F (recordLine D F previous x ++ recordLine D F previous' y) = none := by
    unfold lineRecord
    rw [hglued, loads_glued (canonical_loads (loads_recordLine (D := D))) cs]
  have hlines : fileLines file = chainLines D F none rs ++
      [recordLine D F previous x ++ recordLine D F previous' y] := by
    have hline : recordLine D F previous x ++ (recordLine D F previous' y ++ "\n") =
        recordLine D F previous x ++ recordLine D F previous' y ++ "\n" := String.append_assoc.symm
    unfold fileLines
    rw [htext, hline, ← joinLines_append]
    refine splitlines_joinLines fun l hl c hc => ?_
    rcases List.mem_append.mp hl with hl | hl
    · exact chainLines_chars hl hc
    · rw [List.mem_singleton.mp hl, String.toList_append] at hc
      exact (List.mem_append.mp hc).elim recordLine_chars recordLine_chars
  unfold heldIds
  rw [hlines, List.filterMap_append, lineRecord_chainLines, List.filterMap_cons_none hnone,
    List.filterMap_nil, List.append_nil, List.map_map]
  rfl

end Greenfield.Shadow
