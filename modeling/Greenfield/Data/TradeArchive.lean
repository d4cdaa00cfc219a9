import Greenfield.Py.Basic
import Mathlib.Data.List.Chain
import Mathlib.Data.Prod.Lex
import Mathlib.Data.String.Basic

/-!
# Trade archives

`normalize_binance_trade_archive` of `src/data/binance_trade_archive.py`. A ZIP file is read in
chunks, and a row whose identifier is among the recent rows is removed when it equals the one there.
An older replay is out of order and raises, so the rows that are written are the distinct ones
(`Consumed.process`), whatever the chunks are. The digest is a parameter.
-/

namespace Greenfield.Data

open Py

inductive TradeArchiveError where
  | valueError (msg : String)
  | osError (msg : String)
  /-- A cell that is no number or truth value. -/
  | unreadable
  deriving DecidableEq

inductive TradeDataset where
  | trades
  | aggTrades
  deriving DecidableEq

structure BinanceTradeArchiveIdentity where
  market : String
  dataset : TradeDataset
  symbol : String
  period : String
  deriving DecidableEq

/-- A row of the CSV file. A cell is `none` when it cannot be read. -/
structure RawTrade where
  tradeId : Option ℤ
  firstTradeId : Option ℤ
  lastTradeId : Option ℤ
  price : Option ℚ
  quantity : Option ℚ
  quoteQuantity : Option ℚ
  timestamp : Option ℤ
  isBuyerMaker : Option Bool
  isBestMatch : Option Bool
  deriving DecidableEq

/-- A ZIP file: its CSV members, and the optional columns that they have. -/
structure TradeArchive where
  identity : BinanceTradeArchiveIdentity
  members : List (List RawTrade)
  hasQuoteQuantity : Bool
  hasBestMatch : Bool
  deriving DecidableEq

/-- A row of `TRADE_SCHEMA`. The timestamp is in microseconds. -/
structure TradeRow where
  timestamp : ℤ
  market : String
  dataset : TradeDataset
  symbol : String
  tradeId : ℤ
  firstTradeId : Option ℤ
  lastTradeId : Option ℤ
  price : ℚ
  quantity : ℚ
  quoteQuantity : ℚ
  buyerIsMaker : Bool
  bestMatch : Option Bool
  signedQuantity : ℚ
  deriving DecidableEq

/-- `(timestamp, trade_id)`. -/
def TradeRow.key (row : TradeRow) : ℤ ×ₗ ℤ := toLex (row.timestamp, row.tradeId)

/-! ## Chunks -/

/-- The numbers from here on are microseconds. -/
@[irreducible] def firstMicros : ℤ := 10 ^ 15

/-- The microseconds of the unit of a chunk: microseconds or milliseconds. -/
def unitMicros (raws : List RawTrade) : ℤ :=
  if raws.any fun raw => raw.timestamp.any fun t => firstMicros ≤ |t| then 1 else 1000

/-- An identifier that only aggregated trades have. -/
def aggregateId (dataset : TradeDataset) (cell : Option ℤ) : Option (Option ℤ) :=
  match dataset with
  | .trades => some none
  | .aggTrades => cell.map some

def normalizeTrade (archive : TradeArchive) (unit : ℤ) (raw : RawTrade) : Option TradeRow := do
  let firstTradeId ← aggregateId archive.identity.dataset raw.firstTradeId
  let lastTradeId ← aggregateId archive.identity.dataset raw.lastTradeId
  let timestamp ← raw.timestamp
  let price ← raw.price
  let quantity ← raw.quantity
  let quoteQuantity ←
    if archive.hasQuoteQuantity then raw.quoteQuantity else some (price * quantity)
  let buyerIsMaker ← raw.isBuyerMaker
  let bestMatch ← if archive.hasBestMatch then raw.isBestMatch.map some else some none
  let tradeId ← raw.tradeId
  return {
    timestamp := timestamp * unit
    market := archive.identity.market
    dataset := archive.identity.dataset
    symbol := archive.identity.symbol
    tradeId
    firstTradeId
    lastTradeId
    price
    quantity
    quoteQuantity
    buyerIsMaker
    bestMatch
    signedQuantity := if buyerIsMaker then -quantity else quantity }

/-- `normalize_trade_chunk`. -/
def normalizeTradeChunk (archive : TradeArchive) (raws : List RawTrade) :
    Except TradeArchiveError (List TradeRow) :=
  match raws.mapM (normalizeTrade archive (unitMicros raws)) with
  | none => .error .unreadable
  | some rows =>
    if rows.any fun row => row.price ≤ 0 ∨ row.quantity ≤ 0 then
      .error (.valueError "Binance trade archive contains non-positive price/quantity")
    else .ok rows

/-- `_DUPLICATE_REPLAY_WINDOW_ROWS`. -/
@[irreducible] def duplicateReplayWindowRows : ℕ := 1000000

/-- `frame.tail(n)`. -/
def lastRows (n : ℕ) (rows : List TradeRow) : List TradeRow := rows.drop (rows.length - n)

/-- The rows whose identifier was not seen. -/
def unseen : List ℤ → List TradeRow → List TradeRow
  | _, [] => []
  | seen, row :: rest =>
    if row.tradeId ∈ seen then unseen seen rest else row :: unseen (row.tradeId :: seen) rest

/-- `_filter_verified_recent_replay`: the rows that are kept, the recent rows after them, and how
many were removed. -/
def filterVerifiedRecentReplay (chunk recent : List TradeRow) :
    Except TradeArchiveError (List TradeRow × List TradeRow × ℕ) :=
  let reference := recent ++ chunk
  if reference.any fun a => reference.any fun b => a.tradeId = b.tradeId ∧ a ≠ b then
    .error (.valueError "Binance trade archive replay differs from original rows")
  else
    let unique := unseen (recent.map TradeRow.tradeId) chunk
    .ok (unique, lastRows duplicateReplayWindowRows (recent ++ unique), chunk.length - unique.length)

/-- What the loop over the chunks carries. -/
structure NormalizerState where
  written : List TradeRow
  previousKey : Option (ℤ ×ₗ ℤ)
  recent : List TradeRow
  replayRows : ℕ
  minimumTimestamp : Option ℤ
  maximumTimestamp : Option ℤ

def NormalizerState.initial : NormalizerState := ⟨[], none, [], 0, none, none⟩

/-- The rows of a chunk that are not replays are written, when they are in order. -/
def writeRows (s : NormalizerState) (unique : List TradeRow) (free minimumFreeBytes : ℤ) :
    Except TradeArchiveError NormalizerState :=
  match unique.head?, unique.getLast? with
  | some first, some last =>
    if s.previousKey.any (first.key ≤ ·) then
      .error (.valueError "Binance trade archive is not strictly ordered")
    else if ¬ unique.IsChain fun a b => a.key < b.key then
      .error (.valueError "Binance trade archive has duplicate or unordered IDs")
    else if free < minimumFreeBytes then
      .error (.osError "normalization free-space reserve breached")
    else .ok { s with
      written := s.written ++ unique
      previousKey := some last.key
      minimumTimestamp := some (s.minimumTimestamp.elim first.timestamp (min · first.timestamp))
      maximumTimestamp := some (s.maximumTimestamp.elim last.timestamp (max · last.timestamp)) }
  | _, _ => .ok s

/-- The body of the loop over the chunks. -/
def processChunk (archive : TradeArchive) (minimumFreeBytes : ℤ) (s : NormalizerState)
    (raws : List RawTrade) (free : ℤ) : Except TradeArchiveError NormalizerState := do
  let chunk ← normalizeTradeChunk archive raws
  let (unique, recent, replays) ← filterVerifiedRecentReplay chunk s.recent
  writeRows { s with recent, replayRows := s.replayRows + replays } unique free minimumFreeBytes

/-- The loop over the chunks. `free` has the free space after each of them. -/
def processChunks (archive : TradeArchive) (minimumFreeBytes : ℤ) (free : ℕ → ℤ) :
    NormalizerState → ℕ → List (List RawTrade) → Except TradeArchiveError NormalizerState
  | s, _, [] => .ok s
  | s, i, raws :: rest => do
    let s ← processChunk archive minimumFreeBytes s raws (free i)
    processChunks archive minimumFreeBytes free s (i + 1) rest

/-- The chunks of a file, of which `taken` are the rows of an open one. -/
def chunksFrom (size : ℕ) : List RawTrade → List RawTrade → List (List RawTrade)
  | taken, [] => if taken = [] then [] else [taken]
  | taken, raw :: rest =>
    if size ≤ taken.length + 1 then (taken ++ [raw]) :: chunksFrom size [] rest
    else chunksFrom size (taken ++ [raw]) rest

/-! ## Files -/

/-- The metadata of an output that a later call reads. -/
structure TradeMetadata (δ : Type) where
  identity : BinanceTradeArchiveIdentity
  sourceSha256 : δ
  outputSha256 : δ
  rowCount : ℕ
  deduplicatedReplayRows : ℕ
  minTimestampUtc : Option ℤ
  maxTimestampUtc : Option ℤ
  deriving DecidableEq

/-- The output of one identity and its manifest. -/
structure TradeFiles (δ : Type) where
  output : Option (List TradeRow)
  manifest : Option (TradeMetadata δ)
  deriving DecidableEq

/-- `sha256_file`, of an archive and of an output. -/
structure TradeDigest (δ : Type) where
  ofArchive : TradeArchive → δ
  ofOutput : List TradeRow → δ

/-- A call, with what the disk answers. -/
structure TradeCall where
  archive : TradeArchive
  chunksize : ℤ := 500000
  minimumFreeBytes : ℤ
  /-- The free space after each chunk. -/
  free : ℕ → ℤ
  /-- The manifest can be written. -/
  manifestWritten : Bool

section

variable {δ : Type} [DecidableEq δ] (digest : TradeDigest δ)

/-- The rows of an archive with those that were removed. -/
def normalizeRows (call : TradeCall) : Except TradeArchiveError NormalizerState :=
  match call.archive.members with
  | [raws] => do
    let s ← processChunks call.archive call.minimumFreeBytes call.free .initial 0
      (chunksFrom call.chunksize.toNat [] raws)
    if s.written = [] then .error (.valueError "Binance trade archive contains no data rows")
    else return s
  | _ => .error (.valueError "Binance trade archive must contain exactly one CSV")

/-- The metadata of a run. -/
def metadataOf (archive : TradeArchive) (s : NormalizerState) : TradeMetadata δ where
  identity := archive.identity
  sourceSha256 := digest.ofArchive archive
  outputSha256 := digest.ofOutput s.written
  rowCount := s.written.length
  deduplicatedReplayRows := s.replayRows
  minTimestampUtc := s.minimumTimestamp
  maxTimestampUtc := s.maximumTimestamp

/-- `normalize_binance_trade_archive`: whether the output is new, with its metadata, and the files
after the call. -/
def normalizeBinanceTradeArchive (files : TradeFiles δ) (call : TradeCall) :
    Except TradeArchiveError (Bool × TradeMetadata δ) × TradeFiles δ :=
  if call.chunksize < 1 then (.error (.valueError "chunksize must be positive"), files)
  else
    match files.output, files.manifest with
    | some output, some existing =>
      if existing.sourceSha256 = digest.ofArchive call.archive ∧
          existing.outputSha256 = digest.ofOutput output then (.ok (false, existing), files)
      else (.error (.valueError "existing normalized archive evidence mismatch"), files)
    | _, _ =>
      match normalizeRows call with
      | .error e => (.error e, files)
      | .ok s =>
        if call.manifestWritten then
          (.ok (true, metadataOf digest call.archive s),
            ⟨some s.written, some (metadataOf digest call.archive s)⟩)
        else (.error (.osError "manifest"), { files with output := some s.written })

/-- The files after calls of one identity, one after the other. -/
def afterCalls (calls : List TradeCall) : TradeFiles δ :=
  calls.foldl (fun files call => (normalizeBinanceTradeArchive digest files call).2) ⟨none, none⟩

end

/-! ## Replays -/

/-- Rows with one identifier are one row. -/
def Verified (known chunk : List TradeRow) : Prop :=
  ∀ a ∈ known ++ chunk, ∀ b ∈ known ++ chunk, a.tradeId = b.tradeId → a = b

/-- The rows that are kept are the distinct ones that are not known. -/
theorem unseen_eq : ∀ {chunk known : List TradeRow}, Verified known chunk →
    unseen (known.map TradeRow.tradeId) chunk = (chunk.removeAll known).eraseDups
  | [], known, _ => by
    rw [List.removeAll, List.filter_nil, List.eraseDups_nil]
    rfl
  | row :: rest, known, h => by
    have hrow : row.tradeId ∈ known.map TradeRow.tradeId ↔ row ∈ known := by
      rw [List.mem_map]
      constructor
      · rintro ⟨a, ha, hid⟩
        rw [← h a (List.mem_append_left _ ha) row (List.mem_append_right _ List.mem_cons_self) hid]
        exact ha
      · exact fun hmem => ⟨row, hmem, rfl⟩
    have hshift : ∀ {l : List TradeRow}, l ⊆ known ++ row :: rest → ∀ a ∈ l, ∀ b ∈ l,
        a.tradeId = b.tradeId → a = b := fun hsub a ha b hb => h a (hsub ha) b (hsub hb)
    unfold unseen
    by_cases hmem : row ∈ known
    · rw [if_pos (hrow.mpr hmem), List.cons_removeAll, if_neg (by simpa using hmem)]
      refine unseen_eq (hshift (List.append_subset.mpr ⟨List.subset_append_left _ _, ?_⟩))
      exact fun x hx => List.mem_append_right _ (List.mem_cons_of_mem row hx)
    · rw [if_neg (fun hid => hmem (hrow.mp hid)), List.cons_removeAll, if_pos (by simpa using hmem),
        List.eraseDups_cons, ← List.map_cons, unseen_eq]
      · refine congrArg (row :: ·) (congrArg List.eraseDups ?_)
        unfold List.removeAll
        rw [List.filter_filter]
        refine List.filter_congr fun x _ => ?_
        rw [List.elem_cons]
        cases hx : x == row with
        | true => simp
        | false => simp
      · refine hshift fun x hx => ?_
        rcases List.mem_append.mp hx with hx | hx
        · rcases List.mem_cons.mp hx with rfl | hx
          · exact List.mem_append_right _ List.mem_cons_self
          · exact List.mem_append_left _ hx
        · exact List.mem_append_right _ (List.mem_cons_of_mem row hx)

theorem lastRows_subset (n : ℕ) (rows : List TradeRow) : lastRows n rows ⊆ rows :=
  List.drop_subset _ rows

theorem filterVerifiedRecentReplay_ok {chunk recent : List TradeRow}
    {out : List TradeRow × List TradeRow × ℕ}
    (h : filterVerifiedRecentReplay chunk recent = .ok out) :
    out.1 = (chunk.removeAll recent).eraseDups ∧ out.2.1 ⊆ recent ++ out.1 ∧
      out.2.2 = chunk.length - out.1.length := by
  unfold filterVerifiedRecentReplay at h
  dsimp only at h
  split at h
  · cases h
  · next hsame =>
    cases h
    refine ⟨unseen_eq fun a ha b hb hid => ?_, ?_, rfl⟩
    · by_contra hne
      refine hsame (List.any_eq_true.mpr ⟨a, ha, List.any_eq_true.mpr ⟨b, hb, ?_⟩⟩)
      exact decide_eq_true ⟨hid, hne⟩
    · exact lastRows_subset duplicateReplayWindowRows
        (recent ++ unseen (recent.map TradeRow.tradeId) chunk)

variable {row : TradeRow}

theorem mem_removeAll {known chunk : List TradeRow} :
    row ∈ chunk.removeAll known ↔ row ∈ chunk ∧ row ∉ known := by
  unfold List.removeAll
  rw [List.mem_filter]
  simp

theorem eraseDups_length_le {α : Type} [DecidableEq α] : ∀ l : List α, l.eraseDups.length ≤ l.length
  | [] => le_rfl
  | x :: l => by
    rw [List.eraseDups_cons, List.length_cons, List.length_cons]
    have := eraseDups_length_le (l.filter fun y => !y == x)
    have := List.length_filter_le (fun y => !y == x) l
    omega
termination_by l => l.length
decreasing_by exact Nat.lt_succ_of_le (List.length_filter_le _ _)

/-! ## The loop -/

/-- What the loop has done with the rows so far. -/
structure Consumed (rows : List TradeRow) (s : NormalizerState) : Prop where
  written : s.written = rows.eraseDups
  ordered : s.written.Pairwise fun a b => a.key < b.key
  previous : s.previousKey = s.written.getLast?.map TradeRow.key
  recent : s.recent ⊆ s.written
  counted : s.written.length + s.replayRows = rows.length

theorem Consumed.initial : Consumed [] .initial :=
  ⟨rfl, .nil, rfl, List.nil_subset _, rfl⟩

variable {rows : List TradeRow}

variable {s : NormalizerState}

/-- The rows that were written end with the previous key. -/
theorem Consumed.le_previous (h : Consumed rows s)
    (hrow : row ∈ s.written) : ∃ key, s.previousKey = some key ∧ row.key ≤ key := by
  rw [h.previous]
  cases hlast : s.written.getLast? with
  | none =>
    rw [List.getLast?_eq_none_iff.mp hlast] at hrow
    cases hrow
  | some last =>
    refine ⟨last.key, rfl, ?_⟩
    obtain ⟨before, hbefore⟩ := List.getLast?_eq_some_iff.mp hlast
    have hordered := h.ordered
    rw [hbefore] at hrow hordered
    rcases List.mem_append.mp hrow with hrow | hrow
    · exact ((List.pairwise_append.mp hordered).2.2 row hrow last List.mem_cons_self).le
    · rw [List.mem_singleton.mp hrow]

/-- What is written is after the rows before it. -/
theorem writeRows_ok {s s' : NormalizerState} {unique : List TradeRow} {free minimumFreeBytes : ℤ}
    (h : writeRows s unique free minimumFreeBytes = .ok s') :
    s'.written = s.written ++ unique ∧ s'.recent = s.recent ∧ s'.replayRows = s.replayRows ∧
      (unique.Pairwise fun a b => a.key < b.key) ∧
      (∀ row ∈ unique, ∀ key, s.previousKey = some key → key < row.key) ∧
        s'.previousKey = (unique.getLast?.map TradeRow.key).or s.previousKey := by
  unfold writeRows at h
  cases unique with
  | nil =>
    cases h
    refine ⟨(List.append_nil _).symm, rfl, rfl, .nil, fun row hrow => ?_, rfl⟩
    cases hrow
  | cons first rest =>
    rw [List.head?_cons, List.getLast?_cons] at h
    dsimp only at h
    split_ifs at h with hprevious hchain hfree
    cases h
    have hpairwise : (first :: rest).Pairwise fun a b => a.key < b.key := by
      have : IsTrans TradeRow fun a b => a.key < b.key := ⟨fun a b c => lt_trans⟩
      exact List.isChain_iff_pairwise.mp hchain
    refine ⟨rfl, rfl, rfl, hpairwise, fun row hrow key hkey => ?_, ?_⟩
    · have hfirst : key < first.key := by
        by_contra hle
        exact hprevious (by rw [hkey]; simpa using hle)
      rcases List.mem_cons.mp hrow with rfl | hrow
      · exact hfirst
      · exact hfirst.trans ((List.pairwise_cons.mp hpairwise).1 row hrow)
    · rw [List.getLast?_cons]
      rfl

/-- **A chunk.** Rows that were written long ago cannot come back, since they are not in order. -/
theorem Consumed.filter {rows chunk : List TradeRow} {s s' : NormalizerState}
    {out : List TradeRow × List TradeRow × ℕ} {free minimumFreeBytes : ℤ} (h : Consumed rows s)
    (hfilter : filterVerifiedRecentReplay chunk s.recent = .ok out)
    (hwrite : writeRows { s with recent := out.2.1, replayRows := s.replayRows + out.2.2 } out.1 free
      minimumFreeBytes = .ok s') : Consumed (rows ++ chunk) s' := by
  obtain ⟨hunique, hrecent, hremoved⟩ := filterVerifiedRecentReplay_ok hfilter
  obtain ⟨hwritten, hrecent', hreplays, hpairwise, hafter, hprevious⟩ := writeRows_ok hwrite
  have hknown : ∀ row ∈ chunk, row ∈ s.recent ↔ row ∈ rows := by
    intro row hrow
    have hmem : row ∈ s.written ↔ row ∈ rows := by rw [h.written, List.mem_eraseDups]
    refine ⟨fun hin => hmem.mp (h.recent hin), fun hin => ?_⟩
    by_contra hout
    obtain ⟨key, hkey, hle⟩ := h.le_previous (hmem.mpr hin)
    have hnew : row ∈ out.1 := by
      rw [hunique, List.mem_eraseDups, mem_removeAll]
      exact ⟨hrow, hout⟩
    exact absurd hle (not_le.mpr (hafter row hnew key hkey))
  have hsame : chunk.removeAll s.recent = chunk.removeAll rows := by
    unfold List.removeAll
    refine List.filter_congr fun row hrow => ?_
    rw [Bool.eq_iff_iff]
    simpa using not_congr (hknown row hrow)
  have hlength : out.1.length ≤ chunk.length := by
    rw [hunique]
    exact (eraseDups_length_le _).trans (List.length_filter_le _ _)
  refine ⟨?_, ?_, ?_, ?_, ?_⟩
  · rw [hwritten, h.written, hunique, hsame, List.eraseDups_append]
  · rw [hwritten]
    refine List.pairwise_append.mpr ⟨h.ordered, hpairwise, fun a ha b hb => ?_⟩
    obtain ⟨key, hkey, hle⟩ := h.le_previous ha
    exact hle.trans_lt (hafter b hb key hkey)
  · rw [hprevious, hwritten, List.getLast?_append]
    show _ = Option.map _ _
    rw [h.previous]
    cases out.1.getLast? with
    | none => rfl
    | some last => rfl
  · rw [hwritten, hrecent']
    intro row hrow
    rcases List.mem_append.mp (hrecent hrow) with hold | hnew
    · exact List.mem_append_left _ (h.recent hold)
    · exact List.mem_append_right _ hnew
  · rw [hwritten, hreplays, List.length_append, List.length_append, ← h.counted]
    show s.written.length + out.1.length + (s.replayRows + out.2.2) = _
    omega

variable {archive : TradeArchive}

theorem normalizeTradeChunk_ok {raws : List RawTrade}
    (h : normalizeTradeChunk archive raws = .ok rows) :
    raws.mapM (normalizeTrade archive (unitMicros raws)) = some rows := by
  unfold normalizeTradeChunk at h
  split at h
  · cases h
  · next hrows =>
    split at h
    · cases h
    · cases h
      exact hrows

/-- The timestamps of a file are all in one unit. -/
def OneUnit (raws : List RawTrade) : Prop :=
  (∀ raw ∈ raws, ∀ t ∈ raw.timestamp, firstMicros ≤ |t|) ∨
    ∀ raw ∈ raws, ∀ t ∈ raw.timestamp, |t| < firstMicros

variable {unit : ℤ}

/-- The loop over the chunks of a file with one unit. -/
theorem processChunks_consumed {minimumFreeBytes : ℤ} {free : ℕ → ℤ}
    : ∀ {chunks : List (List RawTrade)} {s s' : NormalizerState} {i : ℕ}
    {rows : List TradeRow}, (∀ raws ∈ chunks, ∀ rows, normalizeTradeChunk archive raws = .ok rows →
      raws.mapM (normalizeTrade archive unit) = some rows) → Consumed rows s →
    processChunks archive minimumFreeBytes free s i chunks = .ok s' →
      ∃ rows', chunks.flatten.mapM (normalizeTrade archive unit) = some rows' ∧
        Consumed (rows ++ rows') s'
  | [], s, s', i, rows, _, hs, h => by
    cases h
    exact ⟨[], rfl, by rwa [List.append_nil]⟩
  | raws :: rest, s, s', i, rows, hunit, hs, h => by
    unfold processChunks at h
    obtain ⟨middle, hstep, h⟩ := bind_eq_ok.mp h
    unfold processChunk at hstep
    obtain ⟨chunk, hchunk, hstep⟩ := bind_eq_ok.mp hstep
    obtain ⟨out, hfilter, hwrite⟩ := bind_eq_ok.mp hstep
    obtain ⟨hraws, hrest⟩ := List.forall_mem_cons.mp hunit
    obtain ⟨rows', hrows', hconsumed⟩ := processChunks_consumed hrest (hs.filter hfilter hwrite) h
    refine ⟨chunk ++ rows', ?_, by rwa [← List.append_assoc]⟩
    rw [List.flatten_cons, List.mapM_append, hraws chunk hchunk, hrows']
    rfl

/-! ## One file -/

theorem chunksFrom_flatten (size : ℕ) : ∀ (raws taken : List RawTrade),
    (chunksFrom size taken raws).flatten = taken ++ raws
  | [], taken => by
    unfold chunksFrom
    split
    · next h => rw [h]; rfl
    · simp
  | raw :: rest, taken => by
    unfold chunksFrom
    split
    · rw [List.flatten_cons, chunksFrom_flatten size rest [], List.nil_append, List.append_assoc,
        List.singleton_append]
    · rw [chunksFrom_flatten size rest (taken ++ [raw]), List.append_assoc, List.singleton_append]

variable {raws chunk : List RawTrade} {raw : RawTrade}

/-- A chunk of a file with one unit has the unit of the file. -/
theorem unitMicros_eq (h : OneUnit raws) (hsub : chunk ⊆ raws)
    (hraw : raw ∈ chunk) {t : ℤ} (ht : raw.timestamp = some t) :
    unitMicros chunk = unitMicros raws := by
  have hmicros : ∀ {l : List RawTrade}, raw ∈ l → firstMicros ≤ |t| → unitMicros l = 1 := by
    intro l hl hle
    unfold unitMicros
    rw [if_pos]
    refine List.any_eq_true.mpr ⟨raw, hl, ?_⟩
    rw [ht, Option.any_some]
    exact decide_eq_true hle
  have hmillis : ∀ {l : List RawTrade}, l ⊆ raws →
      (∀ raw ∈ raws, ∀ t ∈ raw.timestamp, |t| < firstMicros) → unitMicros l = 1000 := by
    intro l hl hlt
    unfold unitMicros
    rw [if_neg]
    intro hany
    obtain ⟨x, hx, hany⟩ := List.any_eq_true.mp hany
    obtain ⟨u, hu, hle⟩ := (Option.any_eq_true _ _).mp hany
    exact absurd (of_decide_eq_true hle) (not_le.mpr (hlt x (hl hx) u hu))
  rcases h with hge | hlt
  · have hle := hge raw (hsub hraw) t ht
    rw [hmicros hraw hle, hmicros (hsub hraw) hle]
  · rw [hmillis hsub hlt, hmillis (List.Subset.refl raws) hlt]

theorem normalizeTrade_timestamp
    (h : normalizeTrade archive unit raw = some row) : ∃ t, raw.timestamp = some t := by
  cases ht : raw.timestamp with
  | some t => exact ⟨t, rfl⟩
  | none =>
    unfold normalizeTrade at h
    rw [ht] at h
    simp at h

/-- The rows of a chunk are those of the file. -/
theorem normalizeTradeChunk_unit
    (hunit : OneUnit raws) (hsub : chunk ⊆ raws)
    (h : normalizeTradeChunk archive chunk = .ok rows) :
    chunk.mapM (normalizeTrade archive (unitMicros raws)) = some rows := by
  have hrows := normalizeTradeChunk_ok h
  cases chunk with
  | nil =>
    rw [List.mapM_nil] at hrows ⊢
    exact hrows
  | cons raw rest =>
    have hfirst := hrows
    rw [List.mapM_cons, Option.bind_eq_bind, Option.bind_eq_some_iff] at hfirst
    obtain ⟨row, hrow, -⟩ := hfirst
    obtain ⟨t, ht⟩ := normalizeTrade_timestamp hrow
    rwa [unitMicros_eq hunit hsub List.mem_cons_self ht] at hrows

/-- The normalized rows of an archive with one member. -/
def normalizedRows (archive : TradeArchive) : Option (List TradeRow) :=
  match archive.members with
  | [raws] => raws.mapM (normalizeTrade archive (unitMicros raws))
  | _ => none

/-- The timestamps of each member are in one unit. -/
def ArchiveUnit (archive : TradeArchive) : Prop := ∀ raws ∈ archive.members, OneUnit raws

theorem normalizeRows_consumed {call : TradeCall}
    (hunit : ArchiveUnit call.archive) (h : normalizeRows call = .ok s) :
    ∃ rows, normalizedRows call.archive = some rows ∧ Consumed rows s := by
  unfold normalizeRows at h
  unfold normalizedRows
  split at h
  · next raws hmembers =>
    obtain ⟨s', hs', h⟩ := bind_eq_ok.mp h
    split at h
    · cases h
    · cases h
      have hflatten := chunksFrom_flatten call.chunksize.toNat raws []
      rw [List.nil_append] at hflatten
      have hchunks : ∀ chunk ∈ chunksFrom call.chunksize.toNat [] raws, ∀ rows,
          normalizeTradeChunk call.archive chunk = .ok rows →
            chunk.mapM (normalizeTrade call.archive (unitMicros raws)) = some rows := by
        intro chunk hchunk rows hok
        refine normalizeTradeChunk_unit (hunit raws (hmembers ▸ List.mem_cons_self)) ?_ hok
        intro raw hraw
        rw [← hflatten]
        exact List.mem_flatten_of_mem hchunk hraw
      obtain ⟨rows, hrows, hconsumed⟩ := processChunks_consumed hchunks Consumed.initial hs'
      rw [hflatten] at hrows
      exact ⟨rows, hrows, hconsumed⟩
  · cases h

/-! ## Every call -/

section

variable {δ : Type}

/-- What the output of an archive is. -/
structure IsNormalized (archive : TradeArchive) (output : List TradeRow)
    (metadata : TradeMetadata δ) : Prop where
  /-- The distinct rows, in the order of their first occurrence. -/
  rows : ∃ rows, normalizedRows archive = some rows ∧ output = rows.eraseDups ∧
    metadata.rowCount + metadata.deduplicatedReplayRows = rows.length
  ordered : output.Pairwise fun a b => a.key < b.key
  counted : metadata.rowCount = output.length

variable [DecidableEq δ] {digest : TradeDigest δ} {files : TradeFiles δ} {call : TradeCall}
  {archives : List TradeArchive}

/-- What the files say after calls with some archives. -/
structure Evidence (digest : TradeDigest δ) (archives : List TradeArchive) (files : TradeFiles δ) :
    Prop where
  written : files.output = none → files.manifest = none
  normalized : ∀ output metadata, files.output = some output → files.manifest = some metadata →
    ∃ archive ∈ archives, metadata.sourceSha256 = digest.ofArchive archive ∧
      (ArchiveUnit archive → IsNormalized archive output metadata)

omit [DecidableEq δ] in
theorem Evidence.mono (h : Evidence digest archives files) (archive : TradeArchive) :
    Evidence digest (archives ++ [archive]) files where
  written := h.written
  normalized := fun output metadata houtput hmanifest => by
    obtain ⟨a, ha, hsource⟩ := h.normalized output metadata houtput hmanifest
    exact ⟨a, List.mem_append_left _ ha, hsource⟩

omit [DecidableEq δ] in
theorem isNormalized_metadataOf {s : NormalizerState} (h : normalizeRows call = .ok s)
    (hunit : ArchiveUnit call.archive) :
    IsNormalized call.archive s.written (metadataOf digest call.archive s) := by
  obtain ⟨rows, hrows, hconsumed⟩ := normalizeRows_consumed hunit h
  exact ⟨⟨rows, hrows, hconsumed.written, hconsumed.counted⟩, hconsumed.ordered, rfl⟩

/-- **A call** keeps the evidence. -/
theorem Evidence.after (h : Evidence digest archives files) (call : TradeCall) :
    Evidence digest (archives ++ [call.archive])
      (normalizeBinanceTradeArchive digest files call).2 := by
  have hsame := h.mono call.archive
  unfold normalizeBinanceTradeArchive
  split
  · exact hsame
  · split
    · split
      · exact hsame
      · exact hsame
    · next hfresh =>
      split
      · exact hsame
      · next s hs =>
        split
        · refine ⟨fun hnone => (nomatch hnone), ?_⟩
          rintro output metadata houtput hmanifest
          cases houtput
          cases hmanifest
          exact ⟨call.archive, List.mem_append_right _ List.mem_cons_self, rfl,
            isNormalized_metadataOf hs⟩
        · refine ⟨fun hnone => (nomatch hnone), ?_⟩
          rintro output metadata houtput hmanifest
          -- there is no manifest, or the call would not have come here
          cases hoff : files.output with
          | none => exact absurd hmanifest (by rw [h.written hoff]; simp)
          | some old => exact absurd hmanifest (hfresh old metadata hoff)

theorem afterCalls_evidence (digest : TradeDigest δ) (calls : List TradeCall) :
    Evidence digest (calls.map TradeCall.archive) (afterCalls digest calls) := by
  have hrun : ∀ (calls : List TradeCall) (archives : List TradeArchive) (files : TradeFiles δ),
      Evidence digest archives files → Evidence digest (archives ++ calls.map TradeCall.archive)
        (calls.foldl (fun files call => (normalizeBinanceTradeArchive digest files call).2) files) := by
    intro calls
    induction calls with
    | nil => exact fun archives files h => by rwa [List.map_nil, List.append_nil]
    | cons call rest ih =>
      intro archives files h
      have := ih _ _ (h.after call)
      rwa [List.append_assoc, List.singleton_append, ← List.map_cons] at this
  exact hrun calls [] ⟨none, none⟩ ⟨fun _ => rfl, fun output metadata h => (nomatch h)⟩

/-- A call that succeeds. -/
theorem normalizeBinanceTradeArchive_ok {new : Bool} {metadata : TradeMetadata δ}
    {files' : TradeFiles δ} (hevidence : Evidence digest archives files)
    (hsha : ∀ archive ∈ archives, digest.ofArchive archive = digest.ofArchive call.archive →
      archive = call.archive)
    (hunit : ArchiveUnit call.archive)
    (h : normalizeBinanceTradeArchive digest files call = (.ok (new, metadata), files')) :
    ∃ output, files'.output = some output ∧ IsNormalized call.archive output metadata := by
  unfold normalizeBinanceTradeArchive at h
  split at h
  · cases h
  · split at h
    · next output existing houtput hmanifest =>
      split at h
      · next hsame =>
        cases h
        obtain ⟨archive, harchive, hsource, hnormalized⟩ :=
          hevidence.normalized output metadata houtput hmanifest
        have heq := hsha archive harchive (hsource.symm.trans hsame.1)
        rw [heq] at hnormalized
        exact ⟨output, houtput, hnormalized hunit⟩
      · cases h
    · split at h
      · cases h
      · next s hs =>
        split at h
        · cases h
          exact ⟨s.written, rfl, isNormalized_metadataOf hs hunit⟩
        · cases h

omit [DecidableEq δ] in
/-- The output depends only on the archive. -/
theorem IsNormalized.unique {archive : TradeArchive} {output output' : List TradeRow}
    {metadata metadata' : TradeMetadata δ} (h : IsNormalized archive output metadata)
    (h' : IsNormalized archive output' metadata') : output = output' := by
  obtain ⟨rows, hrows, heq, -⟩ := h.rows
  obtain ⟨rows', hrows', heq', -⟩ := h'.rows
  rw [hrows] at hrows'
  cases hrows'
  rw [heq, heq']

/-- The digest tells the archive from those of the earlier calls. -/
def Distinguishes (digest : TradeDigest δ) (calls : List TradeCall) (archive : TradeArchive) : Prop :=
  ∀ earlier ∈ calls, digest.ofArchive earlier.archive = digest.ofArchive archive →
    earlier.archive = archive

/-- **Trade archives** are normalized to their distinct rows, with any chunks. -/
theorem normalizeBinanceTradeArchive_isNormalized {calls : List TradeCall} {new : Bool}
    {metadata : TradeMetadata δ} {files' : TradeFiles δ}
    (hsha : Distinguishes digest calls call.archive) (hunit : ArchiveUnit call.archive)
    (h : normalizeBinanceTradeArchive digest (afterCalls digest calls) call =
      (.ok (new, metadata), files')) :
    ∃ output, files'.output = some output ∧ IsNormalized call.archive output metadata ∧
      ∀ (calls' : List TradeCall) (call' : TradeCall) new' metadata' files'',
        call'.archive = call.archive → Distinguishes digest calls' call.archive →
          normalizeBinanceTradeArchive digest (afterCalls digest calls') call' =
            (.ok (new', metadata'), files'') → files''.output = some output := by
  have hknown : ∀ {calls : List TradeCall}, Distinguishes digest calls call.archive →
      ∀ archive ∈ calls.map TradeCall.archive,
        digest.ofArchive archive = digest.ofArchive call.archive → archive = call.archive := by
    intro calls hcalls archive harchive
    obtain ⟨earlier, hearlier, rfl⟩ := List.mem_map.mp harchive
    exact hcalls earlier hearlier
  obtain ⟨output, houtput, hnormalized⟩ :=
    normalizeBinanceTradeArchive_ok (afterCalls_evidence digest calls) (hknown hsha) hunit h
  refine ⟨output, houtput, hnormalized, fun calls' call' new' metadata' files'' hsame hsha' h' => ?_⟩
  rw [← hsame] at hunit
  obtain ⟨output', houtput', hnormalized'⟩ := normalizeBinanceTradeArchive_ok
    (afterCalls_evidence digest calls') (by rw [hsame]; exact hknown hsha') hunit h'
  rw [hsame] at hnormalized'
  rw [houtput', hnormalized'.unique hnormalized]

end

/-! ## A replay across two chunks -/

def archiveTrade (id : ℤ) : RawTrade :=
  ⟨some id, none, none, some 2, some 3, some 6, some (1000 + id), some false, none⟩

def replayedCall : TradeCall where
  archive :=
    ⟨⟨"spot", .trades, "BTCUSDT", "2024-01"⟩,
      [[archiveTrade 1, archiveTrade 2, archiveTrade 2, archiveTrade 3]], true, false⟩
  chunksize := 2
  minimumFreeBytes := 0
  free := fun _ => 0
  manifestWritten := true

/-- The archive and the output are their own digests. -/
def plainDigest : TradeDigest (TradeArchive ⊕ List TradeRow) := ⟨.inl, .inr⟩

def replayedRow (id : ℤ) : TradeRow :=
  ⟨1000 * (1000 + id), "spot", .trades, "BTCUSDT", id, none, none, 2, 3, 6, false, none, 3⟩

def replayedMetadata : TradeMetadata (TradeArchive ⊕ List TradeRow) where
  identity := replayedCall.archive.identity
  sourceSha256 := .inl replayedCall.archive
  outputSha256 := .inr [replayedRow 1, replayedRow 2, replayedRow 3]
  rowCount := 3
  deduplicatedReplayRows := 1
  minTimestampUtc := some 1001000
  maxTimestampUtc := some 1003000

theorem replayedCall_isNormalized : IsNormalized replayedCall.archive
    [replayedRow 1, replayedRow 2, replayedRow 3] replayedMetadata := by
  have hunit : ArchiveUnit replayedCall.archive := fun raws hraws =>
    List.mem_singleton.mp hraws ▸ .inr (by decide +kernel)
  have hsha : Distinguishes plainDigest [] replayedCall.archive :=
    fun earlier hearlier => absurd hearlier List.not_mem_nil
  have hrun : normalizeBinanceTradeArchive plainDigest (afterCalls plainDigest []) replayedCall =
      (.ok (true, replayedMetadata),
        ⟨some [replayedRow 1, replayedRow 2, replayedRow 3], some replayedMetadata⟩) := by
    decide +kernel
  obtain ⟨output, houtput, hnormalized, -⟩ :=
    normalizeBinanceTradeArchive_isNormalized hsha hunit hrun
  cases houtput
  exact hnormalized

end Greenfield.Data
