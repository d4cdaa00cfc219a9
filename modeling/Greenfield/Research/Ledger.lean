import Greenfield.Lib.JsonCut
import Greenfield.Lib.Run
import Greenfield.Risk.StateStore

/-!
# The trial ledger

`TrialLedger` of `src/research/ledger.py`, on the text of its file. Every reader reads the whole
file, so a line that is cut inside its JSON text stops all of them, and the next line is written
behind one that lacks its line feed. Otherwise trials stay readable (`ledger_durable`).
-/

namespace Greenfield.Research.Ledger

open Py Risk Json JsonText

/-! ## Numbers in identifiers -/

/-- Digits, with single underscores between them. -/
def digitsWith (afterDigit : Bool) : List Char → Bool
  | [] => afterDigit
  | '_' :: s => afterDigit && digitsWith false s
  | c :: s => c.isDigit && digitsWith true s

def unsigned (s : List Char) : Option Int :=
  if digitsWith false s then some (Nat.ofDigitChars 10 (s.filter (· ≠ '_')) 0) else none

/-- `int(text)`. -/
def intOf (text : List Char) : Option Int :=
  match (strip (String.ofList text)).toList with
  | '-' :: s => (unsigned s).map fun n => -n
  | '+' :: s => unsigned s
  | s => unsigned s

/-- `text.split("-")[1]`. -/
def afterDash (text : List Char) : Option (List Char) :=
  match text.dropWhile (· ≠ '-') with
  | _ :: rest => some (rest.takeWhile (· ≠ '-'))
  | [] => none

/-- `f"{n:0{w}d}"`. -/
def padInt (w : Nat) (n : Int) : List Char :=
  if n < 0 then '-' :: pad (w - 1) n.natAbs else pad w n.toNat

/-- `f"TRIAL-{n:06d}"`. -/
def trialIdOf (n : Int) : String := String.ofList ("TRIAL-".toList ++ padInt 6 n)

variable {s : List Char}

theorem digitsWith_digits (hs : ∀ c ∈ s, c.isDigit = true) {b : Bool}
    (hb : b = true ∨ s ≠ []) : digitsWith b s = true := by
  induction s generalizing b with
  | nil => exact hb.resolve_right fun h => h rfl
  | cons c s ih =>
    have hc := hs c List.mem_cons_self
    have hunderscore : c ≠ '_' := by
      rintro rfl
      cases hc
    rw [digitsWith]
    · rw [hc, Bool.true_and]
      exact ih (fun d hd => hs d (List.mem_cons_of_mem c hd)) (.inl rfl)
    · exact hunderscore

theorem pad_ne_nil {w n : Nat} : pad w n ≠ [] := by
  unfold pad List.leftpad
  simp [Nat.toDigits_ne_nil]

theorem strip_digits (hs : ∀ c ∈ s, c.isDigit = true) :
    (strip (String.ofList s)).toList = s := by
  have hspace : ∀ c, c.isDigit = true → isSpace c = false := by
    intro c hc
    have hall : ∀ d ∈ ['0', '1', '2', '3', '4', '5', '6', '7', '8', '9'], isSpace d = false := by
      simp [isSpace]
    exact hall c (isDigit_cases hc)
  have hdrop : ∀ t : List Char, (∀ c ∈ t, c.isDigit = true) → t.dropWhile isSpace = t := by
    intro t ht
    cases t with
    | nil => rfl
    | cons c t =>
      rw [List.dropWhile_cons_of_neg]
      simp [hspace c (ht c List.mem_cons_self)]
  unfold strip
  rw [String.toList_ofList, String.toList_ofList, hdrop s hs, hdrop s.reverse fun c hc =>
    hs c (List.mem_reverse.mp hc), List.reverse_reverse]

/-- The number of an identifier is read back. -/
theorem intOf_pad (w n : Nat) : intOf (pad w n) = some (n : Int) := by
  have hdigits : ∀ c ∈ pad w n, c.isDigit = true := fun c hc => pad_digits hc
  have hfilter : (pad w n).filter (· ≠ '_') = pad w n := by
    apply List.filter_eq_self.mpr
    intro c hc
    simp only [ne_eq, decide_not, Bool.not_eq_true', decide_eq_false_iff_not]
    rintro rfl
    cases hdigits '_' hc
  have hunsigned : unsigned (pad w n) = some (n : Int) := by
    unfold unsigned
    rw [if_pos (digitsWith_digits hdigits (.inr pad_ne_nil)), hfilter, ofDigitChars_pad]
  unfold intOf
  rw [strip_digits hdigits]
  split
  · next heq =>
    have hminus := hdigits '-' (heq ▸ List.mem_cons_self)
    cases hminus
  · next heq =>
    have hplus := hdigits '+' (heq ▸ List.mem_cons_self)
    cases hplus
  · exact hunsigned

theorem afterDash_trialId {ds : List Char} (hds : ∀ c ∈ ds, c.isDigit = true) :
    afterDash ("TRIAL-".toList ++ ds) = some ds := by
  have htake : ds.takeWhile (· ≠ '-') = ds := by
    apply List.takeWhile_eq_self_iff.mpr
    intro c hc
    simp only [ne_eq, decide_not, Bool.not_eq_true', decide_eq_false_iff_not]
    rintro rfl
    cases hds '-' hc
  have hdrop : ("TRIAL-".toList ++ ds).dropWhile (· ≠ '-') = '-' :: ds := rfl
  unfold afterDash
  rw [hdrop]
  exact congrArg some htake

/-- **Identifiers.** The number of `f"TRIAL-{n:06d}"`. -/
theorem number_trialIdOf {n : Int} (hn : 0 ≤ n) :
    (afterDash (trialIdOf n).toList).bind intOf = some n := by
  obtain ⟨m, rfl⟩ := Int.eq_ofNat_of_zero_le hn
  have hpad : padInt 6 (m : Int) = pad 6 m := by
    unfold padInt
    rw [if_neg (by omega), Int.toNat_natCast]
  unfold trialIdOf
  rw [String.toList_ofList, hpad, afterDash_trialId fun c hc => pad_digits hc, Option.bind_some,
    intOf_pad]

/-! ## Values -/

theorem canonical_get {d : List (String × PyJson)} {key : String} {v : PyJson}
    (h : Canonical (.obj d)) (hget : get d key = some v) : Canonical v := by
  cases h with
  | obj _ hitems => exact hitems _ (mem_of_get hget)

/-! ## Trials -/

/-- `TRIAL_STATUSES`. -/
def trialStatuses : List String :=
  ["PENDING", "RUNNING", "PASSED", "FAILED_GATE", "ERROR", "REJECTED"]

/-- A dictionary, with its items in the order of their keys. -/
structure Dictionary where
  items : List (String × PyJson)
  canonical : Canonical (.obj items)

def Dictionary.empty : Dictionary := ⟨[], .obj List.Pairwise.nil fun _ hp => by cases hp⟩

structure TrialRecord where
  trialId : String
  hypothesisId : String
  parentHypothesisId : Option String
  family : String
  rationale : String
  symbol : String
  timeframe : String
  costScenario : String
  status : String
  experimentId : Option String := none
  datasetFingerprint : Option String := none
  holdoutUsed : Bool := false
  holdoutId : Option String := none
  metricsSummary : Dictionary := .empty
  notes : String := ""
  createdAt : String
  known : status ∈ trialStatuses

/-- The items of `asdict(trial)`, in the order of their keys. -/
def TrialRecord.row (t : TrialRecord) : List (String × PyJson) :=
  [("cost_scenario", .str t.costScenario), ("created_at", .str t.createdAt),
    ("dataset_fingerprint", ofOptional t.datasetFingerprint),
    ("experiment_id", ofOptional t.experimentId), ("family", .str t.family),
    ("holdout_id", ofOptional t.holdoutId), ("holdout_used", .bool t.holdoutUsed),
    ("hypothesis_id", .str t.hypothesisId), ("metrics_summary", .obj t.metricsSummary.items),
    ("notes", .str t.notes), ("parent_hypothesis_id", ofOptional t.parentHypothesisId),
    ("rationale", .str t.rationale), ("status", .str t.status), ("symbol", .str t.symbol),
    ("timeframe", .str t.timeframe), ("trial_id", .str t.trialId)]

/-- `to_json`. -/
def TrialRecord.toJson (F : Floats) (t : TrialRecord) : List Char := writeSep F [' '] (.obj t.row)

theorem TrialRecord.canonical_row (t : TrialRecord) : Canonical (.obj t.row : PyJson) := by
  refine .obj (sorted_of_keys ?_) ?_
  · simp only [TrialRecord.row, List.map_cons, List.map_nil]
    decide +kernel
  · simp [TrialRecord.row, canonical_ofOptional, t.metricsSummary.canonical]

/-! ## Reading

A reader answers `none` where the code raises. -/

/-- What `json.loads` reads. -/
abbrev Row := {v : PyJson // Canonical v}

/-- The characters of a line that iteration over a text file ends, with its line feed. -/
def readLinesFrom (line : List Char) : List Char → List (List Char)
  | [] => if line = [] then [] else [line.reverse]
  | '\r' :: '\n' :: s => ('\n' :: line).reverse :: readLinesFrom [] s
  | c :: s =>
    if c = '\n' ∨ c = '\r' then ('\n' :: line).reverse :: readLinesFrom [] s
    else readLinesFrom (c :: line) s

/-- `json.loads(line)`. -/
def loadRow (F : Floats) (line : List Char) : Option Row :=
  match h : loads F (String.ofList line) with
  | some v => some ⟨v, canonical_loads h⟩
  | none => none

/-- `line.strip()` is not empty. -/
def isFilled (line : List Char) : Bool := !line.all isSpace

/-- `_load_lines`, of the text of the file if it exists. -/
def loadLines (F : Floats) (file : Option (List Char)) : Option (List Row) :=
  ((readLinesFrom [] (file.getD [])).filter isFilled).mapM (loadRow F)

/-- `row[key]`. -/
def rowItem (row : Row) (key : String) : Option PyJson :=
  match row.val with
  | .obj d => get d key
  | _ => none

/-- `int(row["trial_id"].split("-")[1])`. -/
def trialNumber (row : Row) : Option Int :=
  (string (rowItem row "trial_id")).bind fun trialId => (afterDash trialId.toList).bind intOf

/-- `next_trial_id`. -/
def nextTrialId (F : Floats) (file : Option (List Char)) : Option String :=
  (loadLines F file).bind fun existing =>
    if existing.isEmpty then some "TRIAL-000001"
    else (existing.mapM trialNumber).bind fun numbers =>
      numbers.max?.map fun number => trialIdOf (number + 1)

/-- `value == text`. -/
def isText (value : PyJson) (text : String) : Bool :=
  match value with
  | .str s => s = text
  | _ => false

/-- `global_trial_count`. -/
def globalTrialCount (F : Floats) (file : Option (List Char)) (family : Option String) :
    Option Nat :=
  (loadLines F file).bind fun rows =>
    match family with
    | none => some rows.length
    | some family => (rows.mapM fun row => rowItem row "family").map fun families =>
        (families.filter fun value => isText value family).length

/-- The condition of `holdout_already_used` on a row. -/
def usesHoldout (family holdoutId : String) (row : Row) : Option Bool :=
  match rowItem row "family" with
  | none => none
  | some value =>
    if isText value family && isText ((rowItem row "holdout_id").getD .null) holdoutId then
      (rowItem row "holdout_used").map truth
    else some false

/-- `any(...)`, which stops at the first row that fulfils it. -/
def anyRow (p : Row → Option Bool) : List Row → Option Bool
  | [] => some false
  | row :: rows =>
    match p row with
    | none => none
    | some true => some true
    | some false => anyRow p rows

/-- `holdout_already_used`. -/
def holdoutAlreadyUsed (F : Floats) (file : Option (List Char)) (family holdoutId : String) :
    Option Bool :=
  (loadLines F file).bind (anyRow (usesHoldout family holdoutId))

/-- The parameters of `TrialRecord`. -/
def trialFields : List String :=
  ["trial_id", "hypothesis_id", "parent_hypothesis_id", "family", "rationale", "symbol", "timeframe",
    "cost_scenario", "status", "experiment_id", "dataset_fingerprint", "holdout_used", "holdout_id",
    "metrics_summary", "notes", "created_at"]

/-- An argument that may be left out. -/
def defaulted {α : Type} (default : α) (read : Option PyJson → Option α) :
    Option PyJson → Option α
  | none => some default
  | some v => read (some v)

def bool : Option PyJson → Option Bool
  | some (.bool b) => some b
  | _ => none

/-- The item of a dictionary that is a dictionary. -/
def dictionaryItem (d : List (String × PyJson)) (h : Canonical (.obj d)) (key : String) :
    Option Dictionary :=
  match hget : get d key with
  | none => some .empty
  | some (.obj items) => some ⟨items, canonical_get h hget⟩
  | some _ => none

/-- `TrialRecord(**row)` at the time `now`, of arguments of the declared types. -/
def trialOfRow (now : String) : Row → Option TrialRecord
  | ⟨.obj d, h⟩ =>
    if ∀ p ∈ d, p.1 ∈ trialFields then do
      let trialId ← string (get d "trial_id")
      let hypothesisId ← string (get d "hypothesis_id")
      let parentHypothesisId ← optionalString (get d "parent_hypothesis_id")
      let family ← string (get d "family")
      let rationale ← string (get d "rationale")
      let symbol ← string (get d "symbol")
      let timeframe ← string (get d "timeframe")
      let costScenario ← string (get d "cost_scenario")
      let status ← string (get d "status")
      let experimentId ← defaulted none optionalString (get d "experiment_id")
      let datasetFingerprint ← defaulted none optionalString (get d "dataset_fingerprint")
      let holdoutUsed ← defaulted false bool (get d "holdout_used")
      let holdoutId ← defaulted none optionalString (get d "holdout_id")
      let metricsSummary ← dictionaryItem d h "metrics_summary"
      let notes ← defaulted "" string (get d "notes")
      let createdAt ← defaulted now string (get d "created_at")
      if known : status ∈ trialStatuses then
        some
          { trialId, hypothesisId, parentHypothesisId, family, rationale, symbol, timeframe
            costScenario, status, experimentId, datasetFingerprint, holdoutUsed, holdoutId
            metricsSummary, notes, createdAt, known }
      else none
    else none
  | _ => none

/-- `load_all`. -/
def loadAll (F : Floats) (now : String) (file : Option (List Char)) : Option (List TrialRecord) :=
  (loadLines F file).bind fun rows => rows.mapM (trialOfRow now)

/-! ## Lines -/

/-- A character that no line ends at. -/
def isPlain (c : Char) : Bool := c ≠ '\n' ∧ c ≠ '\r'

variable {cs : List Char}

theorem readLinesFrom_line (h : ∀ c ∈ cs, isPlain c = true) (line s : List Char) :
    readLinesFrom line (cs ++ '\n' :: s) =
      (line.reverse ++ (cs ++ ['\n'])) :: readLinesFrom [] s := by
  induction cs generalizing line with
  | nil =>
    rw [List.nil_append, readLinesFrom, if_pos (.inl rfl), List.reverse_cons, List.nil_append]
    intro s' hr
    cases hr
  | cons c cs ih =>
    have hc : c ≠ '\n' ∧ c ≠ '\r' := by simpa [isPlain] using h c List.mem_cons_self
    rw [List.cons_append, readLinesFrom, if_neg (not_or.mpr hc),
      ih (fun d hd => h d (List.mem_cons_of_mem c hd)), List.reverse_cons, List.append_assoc]
    · rfl
    · rintro s' rfl
      exact absurd rfl hc.2

theorem readLinesFrom_rest (h : ∀ c ∈ cs, isPlain c = true) {line : List Char}
    (hne : line ≠ [] ∨ cs ≠ []) : readLinesFrom line cs = [line.reverse ++ cs] := by
  induction cs generalizing line with
  | nil => rw [readLinesFrom, if_neg (hne.resolve_right fun h => h rfl), List.append_nil]
  | cons c cs ih =>
    have hc : c ≠ '\n' ∧ c ≠ '\r' := by simpa [isPlain] using h c List.mem_cons_self
    rw [readLinesFrom, if_neg (not_or.mpr hc),
      ih (fun d hd => h d (List.mem_cons_of_mem c hd)) (.inl (List.cons_ne_nil _ _)),
      List.reverse_cons, List.append_assoc]
    · rfl
    · rintro s' rfl
      exact absurd rfl hc.2

theorem mapM_map_eq_some {α β γ : Type} {f : α → β} {g : β → Option γ} {k : α → γ} {l : List α}
    (h : ∀ x ∈ l, g (f x) = some (k x)) : (l.map f).mapM g = some (l.map k) := by
  induction l with
  | nil => rfl
  | cons x l ih =>
    rw [List.map_cons, List.mapM_cons, h x List.mem_cons_self,
      ih fun y hy => h y (List.mem_cons_of_mem x hy)]
    rfl

section

variable {F : Floats} {t : TrialRecord} {ts : List TrialRecord} {file : Option (List Char)}

variable (F t) in
theorem toJson_cons : ∃ cs, t.toJson F = '{' :: cs := writeSep_obj t.row

theorem toJson_plain {c : Char} (h : c ∈ t.toJson F) : isPlain c = true := by
  have hascii := writeSep_ascii (F := F) (w := [' ']) (by simp) _ h
  simp only [isPlain, ne_eq, decide_eq_true_eq]
  refine ⟨?_, ?_⟩
  · rintro rfl
    exact absurd hascii.1 (by decide)
  · rintro rfl
    exact absurd hascii.1 (by decide)

/-- The row of a trial. -/
def TrialRecord.toRow (t : TrialRecord) : Row := ⟨.obj t.row, t.canonical_row⟩

theorem loadRow_toJson (white : List Char) (hwhite : ∀ c ∈ white, isWhite c = true) :
    loadRow F (t.toJson F ++ white) = some t.toRow := by
  have hread : loads F (String.ofList (t.toJson F ++ white)) = some (.obj t.row) :=
    loads_writeSep isWhite_space t.canonical_row white hwhite
  unfold loadRow
  split
  · next v h =>
    rw [hread] at h
    cases h
    rfl
  · next h =>
    rw [hread] at h
    cases h

variable {line : List Char}

theorem loadRow_eq_none (h : loads F (String.ofList line) = none) :
    loadRow F line = none := by
  unfold loadRow
  split
  · next v heq =>
    rw [h] at heq
    cases heq
  · rfl

variable (F) in
/-- The lines of trials. -/
def linesOf (ts : List TrialRecord) : List Char := ts.flatMap fun t => t.toJson F ++ ['\n']

variable (F) in
/-- The readers see the lines, and then what is behind them. -/
theorem readLinesFrom_linesOf (ts : List TrialRecord) (rest : List Char) :
    readLinesFrom [] (linesOf F ts ++ rest) =
      ts.map (fun t => t.toJson F ++ ['\n']) ++ readLinesFrom [] rest := by
  induction ts with
  | nil => rfl
  | cons t ts ih =>
    have htext : linesOf F (t :: ts) ++ rest = t.toJson F ++ '\n' :: (linesOf F ts ++ rest) := by
      simp only [linesOf, List.flatMap_cons, List.append_assoc, List.cons_append, List.nil_append]
    rw [htext, readLinesFrom_line fun c hc => toJson_plain hc, ih]
    rfl

theorem isFilled_append (h : isFilled line = true) (rest : List Char) :
    isFilled (line ++ rest) = true := by
  have hline : line.all isSpace = false := by simpa only [isFilled, Bool.not_eq_true'] using h
  rw [isFilled, List.all_append, hline]
  rfl

variable (F t) in
theorem isFilled_toJson : isFilled (t.toJson F) = true := by
  obtain ⟨cs, hcs⟩ := toJson_cons F t
  have hbrace : isSpace '{' = false := by decide
  rw [hcs, isFilled, List.all_cons, hbrace]
  rfl

/-- What the readers make of the lines, and of one more. -/
theorem loadLines_append {rest : List Char} (hfile : file.getD [] = linesOf F ts ++ rest) :
    loadLines F file = ((readLinesFrom [] rest).filter isFilled).mapM (loadRow F) >>= fun rows =>
      some (ts.map (·.toRow) ++ rows) := by
  unfold loadLines
  rw [hfile, readLinesFrom_linesOf, List.filter_append]
  have hlines : (ts.map (fun t => t.toJson F ++ ['\n'])).filter isFilled =
      ts.map (fun t => t.toJson F ++ ['\n']) := by
    apply List.filter_eq_self.mpr
    intro line hline
    obtain ⟨t, -, rfl⟩ := List.mem_map.mp hline
    exact isFilled_append (isFilled_toJson F t) _
  rw [hlines, List.mapM_append]
  rw [mapM_map_eq_some fun t _ => loadRow_toJson ['\n'] isWhite_newline]
  rfl

/-! ## What a file holds -/

/-- The lines of the trials, of which the last may lack its line feed. -/
inductive Holds (F : Floats) (file : Option (List Char)) : List TrialRecord → Prop
  | closed {us : List TrialRecord} (h : file.getD [] = linesOf F us) : Holds F file us
  | opened {us : List TrialRecord} {u : TrialRecord}
      (h : file.getD [] = linesOf F us ++ u.toJson F) : Holds F file (us ++ [u])

/-- A line that is read as nothing stops the readers, with or without a line feed. -/
theorem loadLines_bad (ts : List TrialRecord) (line white : List Char)
    (hfile : file.getD [] = linesOf F ts ++ (line ++ white))
    (hwhite : white = [] ∨ white = ['\n'])
    (hplain : ∀ c ∈ line, isPlain c = true) (hfilled : isFilled line = true)
    (hload : loadRow F (line ++ white) = none) : loadLines F file = none := by
  have hne : line ≠ [] := by
    rintro rfl
    cases hfilled
  have hlines : readLinesFrom [] (line ++ white) = [line ++ white] := by
    rcases hwhite with rfl | rfl
    · rw [List.append_nil, readLinesFrom_rest hplain (.inr hne)]
      rfl
    · rw [readLinesFrom_line hplain]
      rfl
  rw [loadLines_append hfile, hlines, List.filter_cons_of_pos (isFilled_append hfilled white),
    List.filter_nil, List.mapM_cons, hload]
  rfl

theorem Holds.loadLines (h : Holds F file ts) : loadLines F file = some (ts.map (·.toRow)) := by
  cases h with
  | closed h =>
    have hfile : file.getD [] = linesOf F ts ++ [] := by rw [h, List.append_nil]
    rw [loadLines_append hfile]
    show some (ts.map _ ++ []) = _
    rw [List.append_nil]
  | @opened ts t h =>
    have hne : t.toJson F ≠ [] := by
      obtain ⟨cs, hcs⟩ := toJson_cons F t
      rw [hcs]
      exact List.cons_ne_nil _ _
    have hrow := loadRow_toJson (F := F) (t := t) [] fun c hc => by cases hc
    rw [List.append_nil] at hrow
    rw [loadLines_append h, readLinesFrom_rest (fun c hc => toJson_plain hc) (.inr hne),
      List.reverse_nil, List.nil_append, List.filter_cons_of_pos (isFilled_toJson F t),
      List.filter_nil, List.mapM_cons, hrow, List.map_append]
    rfl

variable {p q : List Char}

/-- A part of a line that lacks its brace stops the readers. -/
theorem loadLines_torn (ts : List TrialRecord) (hfile : file.getD [] = linesOf F ts ++ p)
    (htext : t.toJson F = p ++ q) (hp : p ≠ []) (hq : q ≠ []) :
    loadLines F file = none := by
  have hfile' : file.getD [] = linesOf F ts ++ (p ++ []) := by rw [hfile, List.append_nil]
  apply loadLines_bad ts p [] hfile' (.inl rfl)
  · intro c hc
    exact toJson_plain (F := F) (t := t) (htext ▸ List.mem_append_left q hc)
  · obtain ⟨cs, hcs⟩ := toJson_cons F t
    cases p with
    | nil => exact absurd rfl hp
    | cons c p =>
      obtain ⟨rfl, -⟩ := List.cons.inj (hcs.symm.trans htext)
      rfl
  · rw [List.append_nil]
    exact loadRow_eq_none (loads_cutSep isWhite_space t.canonical_row htext hq)

/-- So does a line with something behind its brace. -/
theorem loadLines_glued (ts : List TrialRecord) (t t' : TrialRecord)
    (hfile : file.getD [] = linesOf F ts ++ t.toJson F ++ p)
    (htext : t'.toJson F ++ ['\n'] = p ++ q) (hp : p ≠ []) : loadLines F file = none := by
  obtain ⟨cs, hcs⟩ := toJson_cons F t'
  have hnone (s : List Char) : loadRow F (t.toJson F ++ '{' :: s) = none :=
    loadRow_eq_none (loads_gluedSep isWhite_space t.canonical_row s)
  have hfilled (s : List Char) : isFilled (t.toJson F ++ s) = true :=
    isFilled_append (isFilled_toJson F t) s
  have hopen : ∃ s, p = '{' :: s := by
    cases p with
    | nil => exact absurd rfl hp
    | cons c p =>
      rw [hcs] at htext
      obtain ⟨rfl, -⟩ := List.cons.inj htext
      exact ⟨p, rfl⟩
  rcases List.eq_nil_or_concat q with rfl | ⟨q', c, rfl⟩
  · -- the whole line is written
    rw [List.append_nil] at htext
    rw [← htext, hcs, List.append_assoc] at hfile
    refine loadLines_bad ts (t.toJson F ++ '{' :: cs) ['\n'] ?_ (.inr rfl) ?_ (hfilled _) ?_
    · rw [hfile, List.append_assoc]
    · intro c hc
      rcases List.mem_append.mp hc with hc | hc
      · exact toJson_plain hc
      · exact toJson_plain (F := F) (t := t') (hcs ▸ hc)
    · rw [List.append_assoc]
      exact hnone _
  · -- it lacks its line feed
    have hjson : t'.toJson F = p ++ q' := by
      rw [List.concat_eq_append, ← List.append_assoc] at htext
      exact (List.append_inj' htext rfl).1
    rw [List.append_assoc] at hfile
    refine loadLines_bad ts (t.toJson F ++ p) [] ?_ (.inl rfl) ?_ (hfilled _) ?_
    · rw [hfile, List.append_nil]
    · intro c hc
      rcases List.mem_append.mp hc with hc | hc
      · exact toJson_plain hc
      · exact toJson_plain (F := F) (t := t') (hjson ▸ List.mem_append_left q' hc)
    · obtain ⟨s, rfl⟩ := hopen
      rw [List.append_nil]
      exact hnone s

/-! ## What the readers answer -/

theorem trialOfRow_toRow (now : String) (t : TrialRecord) : trialOfRow now t.toRow = some t := by
  have hfields : ∀ p ∈ t.row, p.1 ∈ trialFields := by
    have hkeys : ∀ key ∈ t.row.map Prod.fst, key ∈ trialFields := by
      simp only [TrialRecord.row, List.map_cons, List.map_nil]
      decide +kernel
    exact fun p hp => hkeys p.1 (List.mem_map.mpr ⟨p, hp, rfl⟩)
  have hmetrics : get t.row "metrics_summary" = some (.obj t.metricsSummary.items) := by
    simp only [TrialRecord.row, get_cons, String.reduceEq, if_true, if_false]
  have hdictionary : dictionaryItem t.row t.canonical_row "metrics_summary" =
      some t.metricsSummary := by
    unfold dictionaryItem
    split
    · next h =>
      rw [hmetrics] at h
      cases h
    · next items h =>
      rw [hmetrics] at h
      cases h
      rfl
    · next v hne h =>
      rw [hmetrics] at h
      cases h
      exact absurd rfl (hne _)
  simp only [trialOfRow, TrialRecord.toRow, if_pos hfields, hdictionary]
  simp only [TrialRecord.row, get_cons, String.reduceEq, if_true, if_false, string,
    optionalString_ofOptional, defaulted, bool, Option.bind_eq_bind, Option.bind_some]
  exact dif_pos t.known

theorem rowItem_family : rowItem t.toRow "family" = some (.str t.family) := by
  simp only [rowItem, TrialRecord.toRow, TrialRecord.row, get_cons, String.reduceEq, if_true,
    if_false]

theorem rowItem_trialId : rowItem t.toRow "trial_id" = some (.str t.trialId) := by
  simp only [rowItem, TrialRecord.toRow, TrialRecord.row, get_cons, String.reduceEq, if_true,
    if_false]

variable (t) in
/-- What a trial says of a holdout. -/
theorem usesHoldout_toRow (family holdoutId : String) : usesHoldout family holdoutId t.toRow =
    some (t.family = family && t.holdoutId = some holdoutId && t.holdoutUsed) := by
  have hid : rowItem t.toRow "holdout_id" = some (ofOptional t.holdoutId) := by
    simp only [rowItem, TrialRecord.toRow, TrialRecord.row, get_cons, String.reduceEq, if_true,
      if_false]
  have hused : rowItem t.toRow "holdout_used" = some (.bool t.holdoutUsed) := by
    simp only [rowItem, TrialRecord.toRow, TrialRecord.row, get_cons, String.reduceEq, if_true,
      if_false]
  unfold usesHoldout
  rw [rowItem_family, hid, hused]
  cases hholdout : t.holdoutId with
  | none => simp [ofOptional, isText]
  | some id =>
    by_cases hfamily : t.family = family
    · by_cases hsame : id = holdoutId
      · simp [ofOptional, isText, hfamily, hsame, truth]
      · simp [ofOptional, isText, hfamily, hsame]
    · simp [isText, hfamily]

theorem anyRow_map {p : Row → Option Bool} {q : TrialRecord → Bool}
    (h : ∀ t : TrialRecord, p t.toRow = some (q t)) (ts : List TrialRecord) :
    anyRow p (ts.map (·.toRow)) = some (ts.any q) := by
  induction ts with
  | nil => rfl
  | cons t ts ih =>
    rw [List.map_cons, anyRow, h t, List.any_cons]
    cases q t with
    | true => rfl
    | false => exact ih

namespace Holds

variable (h : Holds F file ts)

include h

theorem loadAll (now : String) : loadAll F now file = some ts := by
  unfold Ledger.loadAll
  rw [h.loadLines, Option.bind_some, mapM_map_eq_some fun t _ => trialOfRow_toRow now t,
    List.map_id']

theorem globalTrialCount (family : Option String) : globalTrialCount F file family =
    some (ts.filter fun t => family.all (t.family = ·)).length := by
  unfold Ledger.globalTrialCount
  rw [h.loadLines, Option.bind_some]
  cases family with
  | none => simp
  | some family =>
    dsimp only
    have hfamilies : (ts.map (·.toRow)).mapM (fun row => rowItem row "family") =
        some (ts.map fun t => .str t.family) := mapM_map_eq_some fun t _ => rowItem_family
    rw [hfamilies, Option.map_some, List.filter_map, List.length_map]
    simp only [Function.comp_def, isText, Option.all_some]

theorem holdoutAlreadyUsed (family holdoutId : String) :
    holdoutAlreadyUsed F file family holdoutId =
      some (ts.any fun t => t.family = family && t.holdoutId = some holdoutId && t.holdoutUsed) := by
  unfold Ledger.holdoutAlreadyUsed
  rw [h.loadLines, Option.bind_some]
  exact anyRow_map (fun t => usesHoldout_toRow t family holdoutId) ts

end Holds

end

/-! ## Runs -/

/-- A call of `record`. Its trial has an identifier of its own, or the next one of the ledger. -/
structure RecordCall where
  trial : TrialRecord
  nextId : Bool
  /-- After how many bytes of its line the call is cut off. -/
  cut : Option Nat

/-- A call for a trial with the next identifier. -/
structure NextCall where
  trial : TrialRecord
  cut : Option Nat

/-- `ledger.record(TrialRecord(trial_id=ledger.next_trial_id(), ...))`. -/
def NextCall.toCall (c : NextCall) : RecordCall := ⟨c.trial, true, c.cut⟩

/-- The ledger after some calls. -/
structure LedgerRun where
  file : Option (List Char) := none
  /-- The file before the last call. -/
  previous : Option (List Char) := none
  /-- The trials whose call returned. -/
  returned : List TrialRecord := []
  /-- What `next_trial_id` handed out. -/
  handed : List String := []
  /-- Is there a call that was cut off before its first byte? -/
  lost : Bool := false

section

variable (F : Floats)

/-- The trial of a call, or `none` where `next_trial_id` raises. -/
def RecordCall.trialFor (call : RecordCall) (file : Option (List Char)) : Option TrialRecord :=
  if call.nextId then
    (nextTrialId F file).map fun trialId => { call.trial with trialId }
  else some call.trial

/-- What `record` writes. -/
def written (t : TrialRecord) (cut : Option Nat) : List Char :=
  match cut with
  | none => t.toJson F ++ ['\n']
  | some n => (t.toJson F ++ ['\n']).take n

/-- `ledger.record(...)`. -/
def LedgerRun.step (s : LedgerRun) (call : RecordCall) : LedgerRun :=
  match call.trialFor F s.file with
  | none => { s with previous := s.file }
  | some trial =>
    { file := some (s.file.getD [] ++ written F trial call.cut)
      previous := s.file
      returned := if call.cut = none then s.returned ++ [trial] else s.returned
      handed := if call.nextId then s.handed ++ [trial.trialId] else s.handed
      lost := s.lost || call.cut = some 0 }

/-- The ledger is read in full, with every trial whose call returned, and since the last call no
count went down and no holdout became unused. -/
structure Durable (s : LedgerRun) : Prop where
  readable : ∀ now, ∃ trials, loadAll F now s.file = some trials ∧ s.returned.Sublist trials
  counts : ∀ family n, globalTrialCount F s.previous family = some n →
    ∃ m, globalTrialCount F s.file family = some m ∧ n ≤ m
  holdouts : ∀ family holdoutId, holdoutAlreadyUsed F s.previous family holdoutId = some true →
    holdoutAlreadyUsed F s.file family holdoutId = some true

/-- What was handed out is distinct, and there is a next identifier. -/
structure Fresh (s : LedgerRun) : Prop where
  distinct : s.handed.Nodup
  next : nextTrialId F s.file ≠ none

/-- The file is empty, or its last line has its line feed. -/
def EndsLine (file : Option (List Char)) : Prop :=
  file.getD [] = [] ∨ (file.getD []).getLast? = some '\n'

/-- The call writes nothing, or its JSON text in full to a line of its own. -/
def Completes (s : LedgerRun) (call : RecordCall) : Prop :=
  ∀ t, call.trialFor F s.file = some t → call.cut = some 0 ∨
    EndsLine s.file ∧ ∀ n, call.cut = some n → (t.toJson F).length ≤ n

end

/-! ### What a call does -/

section

variable {F : Floats} {s : LedgerRun} {call : RecordCall} {t : TrialRecord}
  {ts : List TrialRecord}

theorem step_some (h : call.trialFor F s.file = some t) : s.step F call =
    { file := some (s.file.getD [] ++ written F t call.cut)
      previous := s.file
      returned := if call.cut = none then s.returned ++ [t] else s.returned
      handed := if call.nextId then s.handed ++ [t.trialId] else s.handed
      lost := s.lost || call.cut = some 0 } := by
  unfold LedgerRun.step
  rw [h]

theorem linesOf_append : linesOf F (ts ++ [t]) = linesOf F ts ++ (t.toJson F ++ ['\n']) := by
  simp only [linesOf, List.flatMap_append, List.flatMap_cons, List.flatMap_nil, List.append_nil]

theorem toJson_ne_nil : t.toJson F ≠ [] := by
  obtain ⟨cs, hcs⟩ := toJson_cons F t
  rw [hcs]
  exact List.cons_ne_nil _ _

variable {file : Option (List Char)}

theorem endsLine_linesOf (h : file.getD [] = linesOf F ts) :
    EndsLine file := by
  unfold EndsLine
  rw [h]
  rcases List.eq_nil_or_concat ts with rfl | ⟨us, u, rfl⟩
  · exact .inl rfl
  · right
    rw [List.concat_eq_append, linesOf_append, ← List.append_assoc, List.getLast?_concat]

theorem not_endsLine (h : file.getD [] = linesOf F ts ++ t.toJson F) :
    ¬ EndsLine file := by
  unfold EndsLine
  rw [h]
  rintro (hnil | hlast)
  · exact toJson_ne_nil (List.append_eq_nil_iff.mp hnil).2
  · rw [List.getLast?_append_of_ne_nil _ toJson_ne_nil] at hlast
    have hplain := toJson_plain (List.mem_of_getLast? hlast)
    cases hplain

/-- The first characters of a line are nothing, a part of its JSON text, all of it, or the line. -/
theorem written_cases (cut : Option Nat) :
    (cut = some 0 ∧ written F t cut = []) ∨
      ((∃ n, cut = some n ∧ 0 < n ∧ n < (t.toJson F).length) ∧
        ∃ q, t.toJson F = written F t cut ++ q ∧ written F t cut ≠ [] ∧ q ≠ []) ∨
      (cut ≠ some 0 ∧ (∀ n, cut = some n → (t.toJson F).length ≤ n) ∧
        ((cut ≠ none ∧ written F t cut = t.toJson F) ∨
          written F t cut = t.toJson F ++ ['\n'])) := by
  have hpos : 0 < (t.toJson F).length := List.length_pos_iff.mpr toJson_ne_nil
  cases cut with
  | none =>
    right; right
    exact ⟨by simp, by simp, .inr rfl⟩
  | some n =>
    unfold written
    dsimp only
    rcases Nat.lt_trichotomy n (t.toJson F).length with hlt | heq | hgt
    · by_cases hzero : n = 0
      · subst hzero
        exact .inl ⟨rfl, List.take_zero⟩
      · right; left
        rw [List.take_append_of_le_length hlt.le]
        refine ⟨⟨n, rfl, by omega, hlt⟩, (t.toJson F).drop n, (List.take_append_drop n _).symm, ?_, ?_⟩
        · simp [hzero, toJson_ne_nil]
        · simp [hlt]
    · right; right
      subst heq
      refine ⟨by simpa using hpos.ne', fun n hn => (Option.some.inj hn).le, .inl ⟨by simp, ?_⟩⟩
      rw [List.take_append_of_le_length le_rfl, List.take_length]
    · right; right
      refine ⟨by simp; omega, fun m hm => ?_, .inr (List.take_of_length_le ?_)⟩
      · cases hm
        exact hgt.le
      · rw [List.length_append, List.length_singleton]
        omega

/-- What the file holds after a call that completes. -/
theorem Holds.step (h : Holds F s.file ts) (hcompletes : Completes F s call)
    (htrial : call.trialFor F s.file = some t) :
    Holds F (s.step F call).file (if call.cut = some 0 then ts else ts ++ [t]) := by
  rw [step_some htrial]
  rcases written_cases (F := F) (t := t) call.cut with ⟨hcut, hnone⟩ | ⟨⟨n, hn, hpos, hlt⟩, -⟩ |
    ⟨hcut, -, hwritten⟩
  · rw [if_pos hcut]
    have hsame : s.file.getD [] ++ written F t call.cut = s.file.getD [] := by
      rw [hnone, List.append_nil]
    rw [hsame]
    cases h with
    | closed h => exact .closed h
    | opened h => exact .opened h
  · rcases hcompletes t htrial with hcut | ⟨-, hfull⟩
    · rw [hn] at hcut
      cases hcut
      exact absurd hpos (by decide)
    · exact absurd (hfull n hn) (by omega)
  · rw [if_neg hcut]
    obtain ⟨hends, -⟩ := (hcompletes t htrial).resolve_left hcut
    cases h with
    | opened h => exact absurd hends (not_endsLine h)
    | closed h =>
      rcases hwritten with ⟨-, hwritten⟩ | hwritten
      · apply Holds.opened
        rw [Option.getD_some, h, hwritten]
      · apply Holds.closed
        rw [Option.getD_some, h, hwritten, linesOf_append]

/-- A call that does not complete stops the readers. -/
theorem loadLines_step (h : Holds F s.file ts) (hcompletes : ¬ Completes F s call) :
    loadLines F (s.step F call).file = none := by
  obtain ⟨t, htrial, hnot⟩ : ∃ t, call.trialFor F s.file = some t ∧ ¬ (call.cut = some 0 ∨
      EndsLine s.file ∧ ∀ n, call.cut = some n → (t.toJson F).length ≤ n) := by
    simpa only [Completes, not_forall, exists_prop] using hcompletes
  obtain ⟨hcut, hfull⟩ := not_or.mp hnot
  rw [step_some htrial]
  rcases written_cases (F := F) (t := t) call.cut with ⟨hzero, -⟩ | ⟨-, q, htext, hp, hq⟩ |
    ⟨-, hlong, hwritten⟩
  · exact absurd hzero hcut
  · cases h with
    | closed h =>
      refine loadLines_torn ts ?_ htext hp hq
      rw [Option.getD_some, h]
    | @opened us u h =>
      refine loadLines_glued us u t (q := q ++ ['\n']) ?_ ?_ hp
      · rw [Option.getD_some, h]
      · rw [htext, List.append_assoc]
  · cases h with
    | closed h => exact absurd ⟨endsLine_linesOf h, hlong⟩ hfull
    | @opened us u h =>
      have hrest : ∃ q, t.toJson F ++ ['\n'] = written F t call.cut ++ q := by
        rcases hwritten with ⟨-, hwritten⟩ | hwritten
        · exact ⟨['\n'], by rw [hwritten]⟩
        · exact ⟨[], by rw [hwritten, List.append_nil]⟩
      have hne : written F t call.cut ≠ [] := by
        rcases hwritten with ⟨-, hwritten⟩ | hwritten
        · rw [hwritten]
          exact toJson_ne_nil
        · rw [hwritten]
          simp
      obtain ⟨q, htext⟩ := hrest
      refine loadLines_glued us u t ?_ htext hne
      rw [Option.getD_some, h]

theorem step_none (h : call.trialFor F s.file = none) :
    s.step F call = { s with previous := s.file } := by
  unfold LedgerRun.step
  rw [h]

/-- Trials that are added keep the ledger durable. -/
theorem durable_of_holds {s : LedgerRun} (ts us : List TrialRecord) (hbefore : Holds F s.previous ts)
    (hafter : Holds F s.file (ts ++ us)) (hreturned : s.returned.Sublist (ts ++ us)) :
    Durable F s where
  readable now := ⟨_, hafter.loadAll now, hreturned⟩
  counts family n hn := by
    rw [hbefore.globalTrialCount] at hn
    cases hn
    refine ⟨_, hafter.globalTrialCount family, ?_⟩
    rw [List.filter_append, List.length_append]
    omega
  holdouts family holdoutId hused := by
    rw [hbefore.holdoutAlreadyUsed] at hused
    rw [hafter.holdoutAlreadyUsed, List.any_append, Option.some.inj hused, Bool.true_or]

variable (F) in
/-- The file holds the trials whose call returned. -/
def Stored (s : LedgerRun) : Prop :=
  ∃ ts, Holds F s.file ts ∧ s.returned.Sublist ts

theorem step_durable (h : Stored F s) (hcompletes : Completes F s call) :
    Stored F (s.step F call) ∧ Durable F (s.step F call) := by
  obtain ⟨ts, hts, hreturned⟩ := h
  cases htrial : call.trialFor F s.file with
  | none =>
    rw [step_none htrial]
    have hfile : Holds F s.file (ts ++ []) := by rwa [List.append_nil]
    exact ⟨⟨ts, hts, hreturned⟩,
      durable_of_holds ts [] hts hfile (by rwa [List.append_nil])⟩
  | some t =>
    have hafter := hts.step hcompletes htrial
    obtain ⟨us, hus, hsub⟩ : ∃ us, (if call.cut = some 0 then ts else ts ++ [t]) = ts ++ us ∧
        (s.step F call).returned.Sublist (ts ++ us) := by
      rw [step_some htrial]
      by_cases hcut : call.cut = some 0
      · refine ⟨[], by rw [if_pos hcut, List.append_nil], ?_⟩
        rw [if_neg (by rw [hcut]; simp), List.append_nil]
        exact hreturned
      · refine ⟨[t], if_neg hcut, ?_⟩
        dsimp only
        split
        · exact hreturned.append (List.Sublist.refl [t])
        · exact hreturned.trans (List.sublist_append_left ts [t])
    rw [hus] at hafter
    have hprevious : Holds F (s.step F call).previous ts := by
      rw [step_some htrial]
      exact hts
    exact ⟨⟨_, hafter, hsub⟩, durable_of_holds ts us hprevious hafter hsub⟩

theorem completes_of_durable (h : Stored F s) (hdurable : Durable F (s.step F call)) :
    Completes F s call := by
  by_contra hcompletes
  obtain ⟨ts, hts, -⟩ := h
  obtain ⟨trials, hload, -⟩ := hdurable.readable ""
  unfold loadAll at hload
  rw [loadLines_step hts hcompletes] at hload
  cases hload

theorem stored_start : Stored F {} := ⟨[], .closed rfl, List.Sublist.refl []⟩

theorem durable_start : Durable F {} :=
  durable_of_holds [] [] (.closed rfl) (.closed rfl) (List.Sublist.refl [])

theorem durable_iff (calls : List RecordCall) :
    Runs.Always (LedgerRun.step F) (Durable F) {} calls ↔
      Runs.Meets (LedgerRun.step F) (Completes F) {} calls := by
  have hkeep : ∀ s call, Stored F s → Completes F s call → Stored F (s.step F call) :=
    fun s call h hok => (step_durable h hok).1
  have hstep : ∀ s call, Stored F s → Durable F s →
      (Durable F (s.step F call) ↔ Completes F s call) :=
    fun s call h _ => ⟨completes_of_durable h, fun hok => (step_durable h hok).2⟩
  exact Runs.always_iff_meets_of hkeep hstep calls stored_start durable_start

/-! ### Identifiers that are handed out -/

/-- The first identifiers. -/
def firstIds (n : Nat) : List String := (List.range n).map fun i : Nat => trialIdOf ((i : Int) + 1)

theorem firstIds_succ (n : Nat) : firstIds (n + 1) = firstIds n ++ [trialIdOf (n + 1)] := by
  unfold firstIds
  rw [List.range_succ, List.map_append]
  rfl

theorem firstIds_nodup (n : Nat) : (firstIds n).Nodup := by
  refine List.Nodup.map_on (fun i _ j _ h => ?_) List.nodup_range
  have hi := number_trialIdOf (n := (i : Int) + 1) (by omega)
  rw [h, number_trialIdOf (by omega)] at hi
  have heq := Option.some.inj hi
  omega

/-- The next identifier of a ledger with the first ones. -/
theorem Holds.nextTrialId (h : Holds F file ts)
    (hids : ts.map (·.trialId) = firstIds ts.length) :
    nextTrialId F file = some (trialIdOf (ts.length + 1)) := by
  unfold Ledger.nextTrialId
  rw [h.loadLines, Option.bind_some]
  cases hlength : ts.length with
  | zero =>
    rw [List.length_eq_zero_iff] at hlength
    subst hlength
    rfl
  | succ n =>
    have hne : (ts.map (·.toRow)).isEmpty = false := by
      cases ts with
      | nil => cases hlength
      | cons t ts => rfl
    have hnumbers : (ts.map (·.toRow)).mapM trialNumber =
        some ((List.range (n + 1)).map fun i : Nat => (i : Int) + 1) := by
      have hrows : (ts.map (·.toRow)).mapM trialNumber = (ts.map (·.trialId)).mapM fun trialId =>
          (afterDash trialId.toList).bind intOf := by
        rw [List.mapM_map, List.mapM_map]
        refine congrArg (fun f => List.mapM f ts) (funext fun t => ?_)
        show trialNumber t.toRow = (afterDash t.trialId.toList).bind intOf
        rw [trialNumber, rowItem_trialId]
        rfl
      rw [hrows, hids, hlength]
      exact mapM_map_eq_some fun i _ => number_trialIdOf (by omega)
    have hmax : ((List.range (n + 1)).map fun i : Nat => (i : Int) + 1).max? = some ((n : Int) + 1) := by
      rw [List.max?_eq_some_iff]
      refine ⟨List.mem_map.mpr ⟨n, List.mem_range.mpr n.lt_succ_self, rfl⟩, fun b hb => ?_⟩
      obtain ⟨i, hi, rfl⟩ := List.mem_map.mp hb
      have hlt := List.mem_range.mp hi
      omega
    rw [hne, hnumbers, Option.bind_some, hmax]
    rfl

variable (F) in
/-- The trials of the file are the first ones, and there is at most one more that was handed
out. -/
structure Counted (s : LedgerRun) (ts : List TrialRecord) : Prop where
  file : Holds F s.file ts
  returned : s.returned.Sublist ts
  ids : ts.map (·.trialId) = firstIds ts.length
  handed : s.handed = firstIds (if s.lost then ts.length + 1 else ts.length)

theorem Counted.trialFor (h : Counted F s ts) (c : NextCall) : c.toCall.trialFor F s.file =
    some { c.trial with trialId := trialIdOf (ts.length + 1) } := by
  unfold RecordCall.trialFor NextCall.toCall
  rw [if_pos rfl, h.file.nextTrialId h.ids]
  rfl

theorem Counted.step (h : Counted F s ts) (c : NextCall) (hcompletes : Completes F s c.toCall)
    (hlost : s.lost = false) : ∃ us, Counted F (s.step F c.toCall) us := by
  have htrial := h.trialFor c
  have hafter := h.file.step hcompletes htrial
  have hhanded := h.handed
  rw [hlost, if_neg Bool.false_ne_true] at hhanded
  by_cases hcut : c.toCall.cut = some 0
  · rw [if_pos hcut] at hafter
    refine ⟨ts, hafter, ?_, h.ids, ?_⟩
    · rw [step_some htrial, if_neg (by rw [hcut]; simp)]
      exact h.returned
    · rw [step_some htrial]
      simp only [hcut, hlost, hhanded, decide_true, Bool.or_true, if_true]
      exact (firstIds_succ ts.length).symm
  · rw [if_neg hcut] at hafter
    refine ⟨_, hafter, ?_, ?_, ?_⟩
    · rw [step_some htrial]
      dsimp only
      split
      · exact h.returned.append (List.Sublist.refl _)
      · exact h.returned.trans (List.sublist_append_left ts _)
    · rw [List.map_append, h.ids, List.length_append, List.length_singleton, firstIds_succ]
      rfl
    · rw [step_some htrial]
      simp only [hcut, hlost, hhanded, decide_false, Bool.or_false, Bool.false_eq_true, if_false,
        List.length_append, List.length_singleton, firstIds_succ]
      rfl

theorem Counted.fresh (h : Counted F s ts) : Fresh F s where
  distinct := by
    rw [h.handed]
    exact firstIds_nodup _
  next := by
    rw [h.file.nextTrialId h.ids]
    exact Option.some_ne_none _

/-- After a call that wrote nothing its identifier is handed out again. -/
theorem Counted.reused (h : Counted F s ts) (c : NextCall) (hlost : s.lost = true) :
    ¬ (s.step F c.toCall).handed.Nodup := by
  have hhanded := h.handed
  rw [hlost, if_pos rfl, firstIds_succ] at hhanded
  have hnext : (s.step F c.toCall).handed = s.handed ++ [trialIdOf (ts.length + 1)] := by
    rw [step_some (h.trialFor c)]
    rfl
  rw [hnext, hhanded]
  intro hnodup
  have hdisjoint := (List.nodup_append.mp hnodup).2.2
  exact hdisjoint _ (List.mem_append_right _ (List.mem_singleton_self _)) _
    (List.mem_singleton_self _) rfl

theorem fresh_iff (calls : List NextCall) :
    Runs.Always (fun s c => LedgerRun.step F s (NextCall.toCall c))
        (fun s => Durable F s ∧ Fresh F s) {} calls ↔
      Runs.Meets (fun s c => LedgerRun.step F s (NextCall.toCall c))
        (fun s c => Completes F s (NextCall.toCall c) ∧ s.lost = false) {} calls := by
  have hkeep : ∀ s c, (∃ ts, Counted F s ts) → Completes F s (NextCall.toCall c) ∧ s.lost = false →
      ∃ ts, Counted F (s.step F c.toCall) ts := fun s c ⟨ts, h⟩ hok => h.step c hok.1 hok.2
  have hstep : ∀ s c, (∃ ts, Counted F s ts) → Durable F s ∧ Fresh F s →
      ((Durable F (s.step F (NextCall.toCall c)) ∧ Fresh F (s.step F c.toCall)) ↔
        Completes F s c.toCall ∧ s.lost = false) := by
    rintro s c ⟨ts, h⟩ -
    have hstored : Stored F s := ⟨ts, h.file, h.returned⟩
    constructor
    · rintro ⟨hdurable, hfresh⟩
      refine ⟨completes_of_durable hstored hdurable, ?_⟩
      by_contra hlost
      exact h.reused c (Bool.not_eq_false _ ▸ hlost) hfresh.distinct
    · rintro ⟨hcompletes, hlost⟩
      obtain ⟨us, hus⟩ := h.step c hcompletes hlost
      exact ⟨(step_durable hstored hcompletes).2, hus.fresh⟩
  have hstart : Counted F {} [] := ⟨.closed rfl, List.Sublist.refl [], rfl, rfl⟩
  exact Runs.always_iff_meets_of hkeep hstep calls ⟨[], hstart⟩ ⟨durable_start, hstart.fresh⟩

end

/-- **Durability.** Of a run of `record` calls, every state can be read in full, with every trial
whose call returned and with no count or used holdout lost, exactly if every call that writes at
all writes its JSON text in full to a line of its own. Of calls whose identifiers
`next_trial_id` hands out, no identifier is handed out twice as well exactly if, besides, no call
follows one that was cut off before its first byte. -/
theorem ledger_durable (F : Floats) :
    (∀ calls : List RecordCall, Runs.Always (LedgerRun.step F) (Durable F) {} calls ↔
      Runs.Meets (LedgerRun.step F) (Completes F) {} calls) ∧
    ∀ calls : List NextCall,
      Runs.Always (fun s c => LedgerRun.step F s (NextCall.toCall c))
          (fun s => Durable F s ∧ Fresh F s) {} calls ↔
        Runs.Meets (fun s c => LedgerRun.step F s (NextCall.toCall c))
          (fun s c => Completes F s (NextCall.toCall c) ∧ s.lost = false) {} calls :=
  ⟨durable_iff, fresh_iff⟩

def sampleTrial : TrialRecord where
  trialId := "TRIAL-000001"
  hypothesisId := "momentum"
  parentHypothesisId := none
  family := "trend"
  rationale := ""
  symbol := "BTC"
  timeframe := "1h"
  costScenario := "base"
  status := "PASSED"
  holdoutUsed := true
  holdoutId := some "final"
  createdAt := "2026-01-01T00:00:00+00:00"
  known := by decide

/-- A call that returns, and one that is cut off after its first byte. -/
def tornCalls : List RecordCall := [⟨sampleTrial, false, none⟩, ⟨sampleTrial, false, some 1⟩]

/-- The trial whose call returned is not read after a call that is cut. -/
theorem torn_unread : ¬ ∀ calls : List RecordCall,
    Runs.Always (LedgerRun.step sampleFloats) (Durable sampleFloats) {} calls := by
  intro hclaim
  obtain ⟨-, hsecond, -⟩ := (durable_iff tornCalls).mp (hclaim tornCalls)
  obtain ⟨rest, htext⟩ : ∃ rest, sampleTrial.toJson sampleFloats = '{' :: '"' :: rest := ⟨_, rfl⟩
  rcases hsecond sampleTrial rfl with hcut | ⟨-, hfull⟩
  · cases hcut
  · have hlength := hfull 1 rfl
    rw [htext, List.length_cons, List.length_cons] at hlength
    omega

end Greenfield.Research.Ledger
