import Greenfield.Data.BybitRows
import Greenfield.Features.L2Imbalance
import Mathlib.Data.PNat.Defs

/-!
# The Silver path of a book

Order-book events go to the replay's book, and through the normalizer to
`L2ImbalanceAccumulator`. The accumulator holds the rows of the last message with levels, and
drains to the replay's book (`Drains`): that is what a message without levels breaks, whose
update id no row carries (`silver_refines`).
-/

namespace Greenfield.Features

open Py Data Depth Keyed Batches

local instance silverIntLinearOrder : LinearOrder ℤ := Int.instLinearOrder

/-- The parameters of both paths. -/
structure SilverConfig where
  F : Floats
  T : Texts
  dumps : PyJson → String
  symbol : String
  depthLevels : ℕ+

/-- The replay's book, the accumulator, what it and the normalizer answered last, and the last
message that was read. -/
structure SilverRun where
  raw : BybitOrderBook
  silver : L2ImbalanceAccumulator := { state := {} }
  answer : Except MarketError (List L2Features) := .ok []
  previous : Option BybitBookMessage := none

variable {D : Digests} (c : SilverConfig)

def SilverConfig.l2 : BookFeeder L2Book L2Features :=
  L2ImbalanceAccumulator.feeder c.T c.symbol c.depthLevels

def SilverConfig.start : SilverRun := { raw := { symbol := c.symbol } }

/-- An event, applied by the replay, and normalized and fed to the accumulator. -/
def SilverRun.step (s : SilverRun) (e : RawMarketEvent D) : SilverRun :=
  let raw := (s.raw.applyEvent c.F c.T e).2
  let previous := (readEvent c.F c.T e).toOption
  match normalizeBybitEvent c.F c.T c.dumps e with
  | .error err => { raw, silver := s.silver, answer := .error err, previous }
  | .ok rows =>
    { raw, silver := (c.l2.feedAll s.silver rows).2, answer := (c.l2.feedAll s.silver rows).1
      previous }

/-- The event was accepted on the Silver path, and the accumulator, once it is flushed, has the
levels of the replay's book. -/
structure SilverRun.Refines (s : SilverRun) : Prop where
  accepted : ∃ emitted, s.answer = .ok emitted
  flushed : ∃ emitted, (c.l2.flush s.silver).1 = .ok emitted
  bids : Same (c.l2.flush s.silver).2.state.sides.bids s.raw.sides.bids
  asks : Same (c.l2.flush s.silver).2.state.sides.asks s.raw.sides.asks

/-- The replay accepts the event, and it is of the connection. -/
def Accepted (connectionId : String) (s : SilverRun) (e : RawMarketEvent D) : Prop :=
  (s.raw.applyEvent c.F c.T e).1 = .ok () ∧ e.connectionId = connectionId

/-- The key of the first row of an event. -/
def firstKey (e : RawMarketEvent D) : BookKey :=
  toLex (e.receiveTsNs, toLex (e.receiveSequence,
    toLex (0, D.sha256Hex (normalizedIdText e.eventId 0))))

/-- What is asked of a message with levels: an envelope with its type and update id, rows after
those before, and for a delta that the message before it had levels too. -/
structure LevelsOk (s : SilverRun) (e : RawMarketEvent D) (m : BybitBookMessage) : Prop where
  ascii : isAscii e.eventId = true
  identified : e.eventId ≠ ""
  type : isText m.messageType e.messageType = true
  updateId : e.updateId = some m.updateId
  fresh : s.silver.batch ≠ some e.eventId
  rises : ∀ last, s.silver.last = some last → last < firstKey e
  direct : m.isSnapshot = false → ∃ p, s.previous = some p ∧ p.records ≠ []

/-- What is asked of an event. -/
structure MessageOk (s : SilverRun) (e : RawMarketEvent D) (m : BybitBookMessage) : Prop where
  stamped : ∃ eventTsMs, bookTsMs e.toRawFields = some eventTsMs ∧
    (m.records ≠ [] → 0 < eventTsMs)
  levels : m.records ≠ [] → LevelsOk s e m
  settled : m.isSnapshot = true → Settled m.bids ∧ Settled m.asks

def SilverOk (s : SilverRun) (e : RawMarketEvent D) : Prop :=
  ∀ m, readEvent c.F c.T e = .ok m → MessageOk s e m

/-! ## The rows of a message -/

section Rows

variable {e : RawMarketEvent D} (h : Buildable e) {eventTsMs : ℤ} (hts : 0 < eventTsMs)
  {records : List (String × ℚ × ℚ)}

theorem isBid_row (r : String × ℚ × ℚ) (rowIndex : ℕ) :
    isBid (h.row (levelRecord eventTsMs r.1 r.2) rowIndex hts) = decide (r.1 = "bid") := by
  unfold isBid
  exact decide_eq_decide.mpr Option.some_inj

variable (records) in
theorem filter_rows (p : Bool → Bool) :
    ((h.rows eventTsMs hts records).filter fun row => p (isBid row)).map levelOf =
      (records.filter fun r => p (decide (r.1 = "bid"))).map Prod.snd := by
  unfold Buildable.rows
  rw [List.filter_map, List.map_map]
  have hfst : (records.zipIdx.filter fun r => p (decide (r.1.1 = "bid"))).map (fun r => r.1.2) =
      ((records.zipIdx.map Prod.fst).filter fun r => p (decide (r.1 = "bid"))).map Prod.snd := by
    rw [List.filter_map, List.map_map]
    rfl
  rw [List.zipIdx_map_fst] at hfst
  rw [← hfst]
  have hkeep : (fun row => p (isBid row)) ∘ (fun record : (String × ℚ × ℚ) × ℕ =>
      h.row (levelRecord eventTsMs record.1.1 record.1.2) record.2 hts) =
      fun r => p (decide (r.1.1 = "bid")) :=
    funext fun r => congrArg p (isBid_row h hts r.1 r.2)
  rw [hkeep]
  rfl

theorem bidLevels_rows (m : BybitBookMessage) :
    bidLevels (h.rows eventTsMs hts m.records) = m.bids := by
  have hrows := filter_rows h hts m.records id
  unfold bidLevels
  refine hrows.trans ?_
  simp [BybitBookMessage.records, List.filter_map, Function.comp_def]

theorem askLevels_rows (m : BybitBookMessage) :
    askLevels (h.rows eventTsMs hts m.records) = m.asks := by
  have hrows := filter_rows h hts m.records not
  unfold askLevels
  refine hrows.trans ?_
  simp [BybitBookMessage.records, List.filter_map, Function.comp_def]

/-- Rows of levels of the two sides. -/
theorem isLevel_rows (hchannel : e.channel = "orderbook")
    (hrecords : ∀ r ∈ records, (r.1 = "bid" ∨ r.1 = "ask") ∧ 0 ≤ r.2.2) :
    ∀ row ∈ h.rows eventTsMs hts records, IsLevel row := by
  intro row hrow
  obtain ⟨⟨r, rowIndex⟩, hr, rfl⟩ := List.mem_map.mp hrow
  have hmem : r ∈ records := by
    have hfst := List.mem_map_of_mem (f := Prod.fst) hr
    rwa [List.zipIdx_map_fst] at hfst
  obtain ⟨hside, hsize⟩ := hrecords r hmem
  exact ⟨rfl, hchannel, hside.imp (congrArg some) (congrArg some), r.2.1, r.2.2, rfl, rfl, hsize,
    rfl⟩

theorem mem_records {m : BybitBookMessage} (hbids : ∀ level ∈ m.bids, 0 ≤ level.2)
    (hasks : ∀ level ∈ m.asks, 0 ≤ level.2) :
    ∀ r ∈ m.records, (r.1 = "bid" ∨ r.1 = "ask") ∧ 0 ≤ r.2.2 := by
  intro r hr
  rcases List.mem_append.mp hr with hr | hr
  · obtain ⟨level, hlevel, rfl⟩ := List.mem_map.mp hr
    exact ⟨.inl rfl, hbids level hlevel⟩
  · obtain ⟨level, hlevel, rfl⟩ := List.mem_map.mp hr
    exact ⟨.inr rfl, hasks level hlevel⟩

/-- The rows of an event rise. -/
theorem rises_rows : (h.rows eventTsMs hts records).Pairwise
    fun a b => ¬ bookKey b ≤ bookKey a := by
  unfold Buildable.rows
  rw [List.pairwise_map]
  have hindex : records.zipIdx.Pairwise fun a b => a.2 < b.2 := by
    have hrange : (List.range' 0 records.length).Pairwise (· < ·) := List.pairwise_lt_range'
    rw [← List.zipIdx_map_snd, List.pairwise_map] at hrange
    exact hrange
  apply hindex.imp
  intro a b hab hle
  simp only [bookKey, Prod.Lex.toLex_le_toLex] at hle
  rcases hle with hlt | ⟨-, hlt | ⟨-, hlt | ⟨heq, -⟩⟩⟩
  · exact lt_irrefl _ hlt
  · exact lt_irrefl _ hlt
  · exact absurd hab (Int.ofNat_lt.mp hlt).le.not_gt
  · exact absurd hab (Int.ofNat.inj heq).le.not_gt

end Rows

theorem theOne_eq {α : Type} [DecidableEq α] {v : α} {vs : List α} (hne : vs ≠ [])
    (h : ∀ w ∈ vs, w = v) : theOne vs = some v := by
  cases vs with
  | nil => exact absurd rfl hne
  | cons w ws =>
    obtain ⟨rfl, hws⟩ := List.forall_mem_cons.mp h
    exact if_pos hws

variable {e : RawMarketEvent D}

/-- What the accumulator reads of the rows of an event. -/
theorem header_rows (h : Buildable e) {eventTsMs : ℤ}
    (hts : 0 < eventTsMs) {records : List (String × ℚ × ℚ)} (hne : records ≠ []) {u : ℤ}
    (hupdate : e.updateId = some u) :
    theOne ((h.rows eventTsMs hts records).map (·.messageType)) = some e.messageType ∧
      theOne ((h.rows eventTsMs hts records).map (·.updateId)) = some (some u) ∧
      theOne ((h.rows eventTsMs hts records).map (·.connectionId)) = some e.connectionId := by
  have hnil : h.rows eventTsMs hts records ≠ [] := by
    unfold Buildable.rows
    simpa using hne
  have hall {α : Type} [DecidableEq α] (f : NormalizedMarketEvent → α) (v : α)
      (hf : ∀ values rowIndex (hv : 0 < RowValues.eventTsMs values),
        f (h.row values rowIndex hv) = v) :
      theOne ((h.rows eventTsMs hts records).map f) = some v := by
    apply theOne_eq (by simpa using hnil)
    intro w hw
    obtain ⟨row, hrow, rfl⟩ := List.mem_map.mp hw
    obtain ⟨r, -, rfl⟩ := List.mem_map.mp hrow
    exact hf _ _ _
  exact ⟨hall _ _ fun _ _ _ => rfl, hall _ _ fun _ _ _ => hupdate, hall _ _ fun _ _ _ => rfl⟩

/-! ## What the replay accepts -/

theorem isText_eq {v : PyJson} {a b : String} (ha : isText v a = true) (hb : isText v b = true) :
    a = b := by
  cases v with
  | str text =>
    have ha' : text = a := by simpa [isText] using ha
    have hb' : text = b := by simpa [isText] using hb
    exact ha'.symm.trans hb'
  | _ => cases ha

variable {c}

variable {b : BybitOrderBook}

variable {T : Texts} {m : BybitBookMessage}

theorem applyRead_type
    (h : (b.applyRead T m).1 = .ok ()) :
    isText m.messageType "snapshot" = true ∨ isText m.messageType "delta" = true := by
  by_cases hsnapshot : m.isSnapshot = true
  · exact .inl hsnapshot
  · right
    by_contra hdelta
    unfold BybitOrderBook.applyRead at h
    rw [if_neg hsnapshot, if_pos (by simpa using hdelta)] at h
    cases h

/-- An event that the replay's book accepts. -/
theorem applyEvent_ok {F : Floats}
    (h : (b.applyEvent F T e).1 = .ok ()) :
    e.exchange = "bybit" ∧ e.channel = "orderbook" ∧ e.symbol = b.symbol ∧
      ∃ m sides, readEvent F T e = .ok m ∧ Data.Accepts b m sides ∧
        (isText m.messageType "snapshot" = true ∨ isText m.messageType "delta" = true) ∧
        (b.applyEvent F T e).2 = b.store sides m := by
  have hvenue : ¬ (e.exchange ≠ "bybit" ∨ e.channel ≠ "orderbook") := by
    intro hvenue
    unfold BybitOrderBook.applyEvent at h
    rw [if_pos hvenue] at h
    cases h
  have hsymbol : e.symbol = b.symbol := by
    by_contra hsymbol
    unfold BybitOrderBook.applyEvent at h
    rw [if_neg hvenue, if_pos hsymbol] at h
    cases h
  rw [not_or, not_not, not_not] at hvenue
  refine ⟨hvenue.1, hvenue.2, hsymbol, ?_⟩
  rcases applyEvent_cases (F := F) (T := T) b e with
    ⟨m, sides, -, hread, haccepts, happly⟩ | ⟨err, happly | happly⟩
  · refine ⟨m, sides, hread, haccepts, ?_, by rw [happly]⟩
    obtain ⟨message, hpayload, hmessage⟩ := bind_eq_ok.mp hread
    apply applyRead_type (T := T) (b := b)
    unfold BybitOrderBook.applyEvent at h
    rw [if_neg (by simp [hvenue]), if_neg (not_not.mpr hsymbol), hpayload] at h
    simp only [BybitOrderBook.applyMessage, ← hsymbol, hmessage] at h
    exact h
  · rw [happly] at h
    cases h
  · rw [happly] at h
    cases h

/-! ## The accumulator drains to the replay's book -/

/-- The accumulator holds the rows of the last message with levels: writing them to `base`, as
update `u`, gives the levels of the replay's book. -/
structure Drains (c : SilverConfig) (connectionId : String) (s : SilverRun) (base : Sides)
    (u : ℤ) : Prop where
  levels : ∀ row ∈ s.silver.pending, IsLevel row
  nonempty : s.silver.pending ≠ []
  batch : s.silver.batch ≠ none
  closes : ∀ last, L2ImbalanceAccumulator.applyPending c.T c.depthLevels { s.silver with last } =
    L2ImbalanceAccumulator.applyTo c.depthLevels (.connect { s.silver with last } connectionId)
      base u
  sized : base.Sized
  bids : Same (writtenTo base s.silver.pending).bids s.raw.sides.bids
  asks : Same (writtenTo base s.silver.pending).asks s.raw.sides.asks
  valid : s.raw.sides.Valid
  updateId : ∃ v, s.raw.updateId = some v ∧ ∀ p, s.previous = some p → p.records ≠ [] → v = u

/-- Nothing was accepted yet, or the accumulator drains to the replay's book. -/
def Follows (c : SilverConfig) (connectionId : String) (s : SilverRun) : Prop :=
  s.raw.symbol = c.symbol ∧
    ((s.raw.updateId = none ∧ s.raw.sides = .empty ∧ s.silver = { state := {} }) ∨
      ∃ base u, Drains c connectionId s base u)

/-- The book that the accumulator has once it is drained. -/
def drained (connectionId : String) (base : Sides) (u : ℤ) (rows : List NormalizedMarketEvent) :
    L2Book :=
  { sides := writtenTo base rows, ready := true, updateId := some u
    connectionId := some connectionId }

section Steps

variable {connectionId : String} {s : SilverRun} {base : Sides} {u : ℤ} {e : RawMarketEvent D}

theorem Drains.close (h : Drains c connectionId s base u) (last : Option BookKey) :
    ∃ r, c.l2.close { s.silver with last } = (.ok r, { pending := [], batch := none, last
                                                       state := drained connectionId base u
                                                         s.silver.pending }) := by
  have hvalid : (writtenTo base s.silver.pending).Valid := h.valid.of_same h.bids.symm h.asks.symm
  obtain ⟨r, hr, -⟩ := applyTo_valid c.depthLevels u
    (a := .connect { s.silver with last } connectionId) h.levels c.depthLevels.pos hvalid h.sized
  exact ⟨r, (h.closes last).trans hr⟩

/-- An accumulator that drains to the replay's book has its levels once it is flushed. -/
theorem Drains.refines (h : Drains c connectionId s base u)
    (haccepted : ∃ emitted, s.answer = .ok emitted) : s.Refines c := by
  obtain ⟨r, hr⟩ := h.close s.silver.last
  have hflush : c.l2.flush s.silver = (.ok [r], { pending := [], batch := none
                                                  last := s.silver.last
                                                  state := drained connectionId base u
                                                    s.silver.pending }) := by
    unfold Feeder.flush
    rw [if_neg (by simpa using h.nonempty)]
    show Feeder.only (c.l2.close { s.silver with last := s.silver.last }) = _
    rw [hr]
    rfl
  refine ⟨haccepted, ?_, ?_, ?_⟩
  · exact ⟨[r], by rw [hflush]⟩
  · rw [hflush]
    exact h.bids
  · rw [hflush]
    exact h.asks

theorem refines_start : c.start.Refines c :=
  ⟨⟨[], rfl⟩, ⟨[], rfl⟩, .refl _, .refl _⟩

theorem follows_start (connectionId : String) : Follows c connectionId c.start :=
  ⟨rfl, .inl ⟨rfl, rfl, rfl⟩⟩

variable {x : NormalizedMarketEvent}

/-- What the first row of a new message leaves. -/
theorem feed_first (hs : Follows c connectionId s)
    (hcheck : c.l2.check x = .ok ()) (hfresh : s.silver.batch ≠ some x.rawEventId)
    (hrises : ∀ last, s.silver.last = some last → last < bookKey x) :
    ∃ outs state, c.l2.feed s.silver x = (.ok outs, { pending := [x], batch := some x.rawEventId
                                                      last := some (bookKey x), state }) ∧
      ((s.raw.updateId = none ∧ state = {}) ∨ ∃ base u, Drains c connectionId s base u ∧
        state = drained connectionId base u s.silver.pending) := by
  have hrises' : c.l2.rises s.silver x = true := by
    unfold Feeder.rises
    cases hlast : s.silver.last with
    | none => rfl
    | some last => simpa [SilverConfig.l2, L2ImbalanceAccumulator.feeder] using hrises last hlast
  rcases hs.2 with ⟨hnone, -, hsilver⟩ | ⟨base, u, hdrains⟩
  · have hcloses : c.l2.closes s.silver x = false := by
      rw [hsilver]
      rfl
    refine ⟨[], {}, ?_, .inl ⟨hnone, rfl⟩⟩
    rw [Feeder.feed_holds hcheck hrises' hcloses, hsilver]
    rfl
  · obtain ⟨r, hr⟩ := hdrains.close (some (bookKey x))
    have hcloses : c.l2.closes s.silver x = true := by
      unfold Feeder.closes
      cases hbatch : s.silver.batch with
      | none => exact absurd hbatch hdrains.batch
      | some id =>
        have hne : id ≠ c.l2.batchOf x := fun heq => hfresh (by rw [hbatch, heq]; rfl)
        simpa using hne
    refine ⟨[r], _, ?_, .inr ⟨base, u, hdrains, rfl⟩⟩
    rw [Feeder.feed_closes hcheck hrises' hcloses]
    show Feeder.pushAfter _ x (c.l2.close { s.silver with last := some (bookKey x) }) = _
    rw [hr]
    rfl

theorem check_ok (hx : IsLevel x) (hsymbol : x.symbol = c.symbol) :
    c.l2.check x = .ok () := by
  obtain ⟨price, size, -, -, -, haction⟩ := hx.level
  have hkind : x.bookAction = some "upsert" ∨ x.bookAction = some "delete" := by
    rw [haction]
    by_cases hzero : size = 0
    · simp [hzero]
    · simp [hzero]
  show L2ImbalanceAccumulator.validateRow c.symbol x = _
  unfold L2ImbalanceAccumulator.validateRow
  simp [hx.recordType, hx.channel, hx.side, hsymbol, hkind]

variable {m : BybitBookMessage}

variable {eventTsMs : ℤ}

/-- The rows of a message with levels are fed: the message before it is closed, and they are
held. -/
theorem feed_rows (hs : Follows c connectionId s) (h : Buildable e)
    (hchannel : e.channel = "orderbook") (hsymbol : e.symbol = c.symbol)
    (hread : readEvent c.F c.T e = .ok m) (hok : LevelsOk s e m)
    (hts : 0 < eventTsMs) (hne : m.records ≠ []) :
    ∃ outs last state, c.l2.feedAll s.silver (h.rows eventTsMs hts m.records) =
        (.ok outs, { pending := h.rows eventTsMs hts m.records, batch := some e.eventId, last
                     state }) ∧
      ((s.raw.updateId = none ∧ state = {}) ∨ ∃ base u, Drains c connectionId s base u ∧
        state = drained connectionId base u s.silver.pending) := by
  obtain ⟨hbids, hasks⟩ := readEvent_levels hread
  have hlevels := isLevel_rows h hts hchannel
    (mem_records (fun l hl => (hbids l hl).2) fun l hl => (hasks l hl).2)
  obtain ⟨first, records, hrecords⟩ := List.exists_cons_of_ne_nil hne
  have hrows : h.rows eventTsMs hts m.records =
      h.row (levelRecord eventTsMs first.1 first.2) 0 hts ::
        (records.zipIdx 1).map fun record =>
          h.row (levelRecord eventTsMs record.1.1 record.1.2) record.2 hts := by
    rw [hrecords]
    rfl
  have hitems : ∀ y ∈ h.rows eventTsMs hts m.records,
      c.l2.check y = .ok () ∧ c.l2.batchOf y = e.eventId := by
    intro y hy
    obtain ⟨r, -, hr⟩ := List.mem_map.mp hy
    refine ⟨check_ok (hlevels y hy) ?_, ?_⟩
    · rw [← hr]
      exact hsymbol
    · rw [← hr]
      rfl
  have hrise : (h.rows eventTsMs hts m.records).Pairwise
      fun y z => ¬ c.l2.rank z ≤ c.l2.rank y := rises_rows h hts
  rw [hrows] at hitems hrise ⊢
  obtain ⟨outs, state, hfeed, hstate⟩ := feed_first hs (hitems _ List.mem_cons_self).1 hok.fresh
    hok.rises
  obtain ⟨last, hall⟩ := Feeder.feedAll_batch hitems hrise hfeed
  exact ⟨outs, last, state, hall, hstate⟩

variable {sides : Sides}

variable {rows : List NormalizedMarketEvent}

theorem step_eq
    (happly : (s.raw.applyEvent c.F c.T e).2 = s.raw.store sides m)
    (hread : readEvent c.F c.T e = .ok m)
    (hrows : normalizeBybitEvent c.F c.T c.dumps e = .ok rows) : s.step c e =
      { raw := s.raw.store sides m, silver := (c.l2.feedAll s.silver rows).2
        answer := (c.l2.feedAll s.silver rows).1, previous := some m } := by
  unfold SilverRun.step
  simp only [hrows, happly, hread]
  rfl

theorem step_raw : (s.step c e).raw = (s.raw.applyEvent c.F c.T e).2 := by
  unfold SilverRun.step
  split
  · rfl
  · rfl

theorem step_silver
    (hrows : normalizeBybitEvent c.F c.T c.dumps e = .ok rows) :
    (s.step c e).silver = (c.l2.feedAll s.silver rows).2 := by
  unfold SilverRun.step
  simp only [hrows]

/-- A message without levels changes no level of the replay's book, and nothing that the
accumulator holds. -/
theorem drains_empty (hs : Follows c connectionId s)
    (haccepts : Data.Accepts s.raw m sides) (hempty : m.records = [])
    (happly : (s.raw.applyEvent c.F c.T e).2 = s.raw.store sides m)
    (hread : readEvent c.F c.T e = .ok m)
    (hrows : normalizeBybitEvent c.F c.T c.dumps e = .ok []) :
    ∃ base u, Drains c connectionId (s.step c e) base u := by
  obtain ⟨hvalid, hkind⟩ := haccepts
  obtain ⟨hbids, hasks⟩ := List.append_eq_nil_iff.mp hempty
  rw [List.map_eq_nil_iff] at hbids hasks
  rw [step_eq happly hread hrows]
  rcases hkind with ⟨-, hsides⟩ | ⟨-, -, ⟨v, hv, -⟩, hsides⟩
  · rw [hsides, hbids, hasks] at hvalid
    exact absurd rfl hvalid.bids
  · rw [hbids, hasks] at hsides
    have hsame : sides = s.raw.sides := hsides
    rcases hs.2 with ⟨hnone, -, -⟩ | ⟨base, u, hdrains⟩
    · rw [hnone] at hv
      cases hv
    · refine ⟨base, u, hdrains.levels, hdrains.nonempty, hdrains.batch, hdrains.closes,
        hdrains.sized, ?_, ?_, hvalid, m.updateId, rfl, fun p hp hne => ?_⟩
      · show Same _ sides.bids
        rw [hsame]
        exact hdrains.bids
      · show Same _ sides.asks
        rw [hsame]
        exact hdrains.asks
      · rw [← Option.some.inj hp] at hne
        exact absurd hempty hne

/-- The rows of a message with levels are held, to be written to the levels before it. -/
theorem drains_levels (hs : Follows c connectionId s) (h : Buildable e)
    (hchannel : e.channel = "orderbook") (hsymbol : e.symbol = c.symbol)
    (hconn : e.connectionId = connectionId)
    (haccepts : Data.Accepts s.raw m sides) (hne : m.records ≠ [])
    (htype : isText m.messageType "snapshot" = true ∨ isText m.messageType "delta" = true)
    (happly : (s.raw.applyEvent c.F c.T e).2 = s.raw.store sides m)
    (hread : readEvent c.F c.T e = .ok m) (hm : MessageOk s e m)
    (hts : 0 < eventTsMs) (hrows : normalizeBybitEvent c.F c.T c.dumps e =
      .ok (h.rows eventTsMs hts m.records)) :
    (∃ base u, Drains c connectionId (s.step c e) base u) ∧
      ∃ emitted, (s.step c e).answer = .ok emitted := by
  have hok := hm.levels hne
  obtain ⟨hbids, hasks⟩ := readEvent_levels hread
  have hlevels := isLevel_rows h hts hchannel
    (mem_records (fun l hl => (hbids l hl).2) fun l hl => (hasks l hl).2)
  obtain ⟨outs, last, state, hfeed, hstate⟩ := feed_rows hs h hchannel hsymbol hread hok hts hne
  obtain ⟨hheaderType, hheaderUpdate, hheaderConn⟩ := header_rows h hts hne hok.updateId
  rw [hconn] at hheaderConn
  rw [step_eq happly hread hrows, hfeed]
  refine ⟨?_, outs, rfl⟩
  have hnil : h.rows eventTsMs hts m.records ≠ [] := by
    unfold Buildable.rows
    simpa using hne
  obtain ⟨hvalid, ⟨hsnapshot, hsides⟩ | ⟨hdelta, hready, ⟨v, hv, hnext⟩, hsides⟩⟩ := haccepts
  · have htext : e.messageType = "snapshot" := isText_eq hok.type hsnapshot
    obtain ⟨hbidsSettled, hasksSettled⟩ := hm.settled hsnapshot
    refine ⟨.empty, m.updateId, hlevels, hnil, Option.some_ne_none _, fun last => ?_, sized_empty,
      ?_, ?_, hvalid, m.updateId, rfl, fun _ _ _ => rfl⟩
    · rw [applyPending_of hheaderType hheaderUpdate hheaderConn, if_pos htext]
    · show Same (writeAll Table.empty (bidLevels (h.rows eventTsMs hts m.records))) sides.bids
      rw [bidLevels_rows, hsides]
      show Same _ (positiveLevels m.bids)
      rw [positiveLevels_eq fun l hl => (hbids l hl).2]
      exact (same_collect.mpr hbidsSettled).symm
    · show Same (writeAll Table.empty (askLevels (h.rows eventTsMs hts m.records))) sides.asks
      rw [askLevels_rows, hsides]
      show Same _ (positiveLevels m.asks)
      rw [positiveLevels_eq fun l hl => (hasks l hl).2]
      exact (same_collect.mpr hasksSettled).symm
  · have htext : e.messageType = "delta" := by
      refine isText_eq hok.type (htype.resolve_left fun h => ?_)
      have hsnapshot : m.isSnapshot = true := h
      rw [hdelta] at hsnapshot
      cases hsnapshot
    obtain ⟨p, hp, hpne⟩ := hok.direct hdelta
    rcases hstate with ⟨hnone, -⟩ | ⟨base, u, hdrains, rfl⟩
    · rw [hnone] at hv
      cases hv
    · obtain ⟨v', hv', hu⟩ := hdrains.updateId
      have hvu : v = u := by
        rw [hv] at hv'
        rw [Option.some.inj hv']
        exact hu p hp hpne
      refine ⟨writtenTo base s.silver.pending, m.updateId, hlevels, hnil, Option.some_ne_none _,
        fun last => ?_, sized_writtenTo hdrains.sized hdrains.levels, ?_, ?_, hvalid, m.updateId,
        rfl, fun _ _ _ => rfl⟩
      · have hnotSnapshot : e.messageType ≠ "snapshot" := by
          rw [htext]
          decide
        rw [applyPending_of hheaderType hheaderUpdate hheaderConn, if_neg hnotSnapshot,
          if_pos htext]
        exact l2Delta_next rfl rfl rfl (hvu ▸ hnext)
      · show Same (writeAll _ (bidLevels (h.rows eventTsMs hts m.records))) sides.bids
        rw [bidLevels_rows, hsides]
        exact hdrains.bids.writeAll m.bids
      · show Same (writeAll _ (askLevels (h.rows eventTsMs hts m.records))) sides.asks
        rw [askLevels_rows, hsides]
        exact hdrains.asks.writeAll m.asks

/-- **One event** that the replay accepts. -/
theorem follows_step (hs : Follows c connectionId s) (hD : D.Hex)
    (hstr : ∀ text, c.T.str (.str text) = text) (ha : Accepted c connectionId s e)
    (hok : SilverOk c s e) :
    Follows c connectionId (s.step c e) ∧ (s.step c e).Refines c := by
  obtain ⟨hanswer, hconn⟩ := ha
  obtain ⟨hexchange, hchannel, hsymbol, m, sides, hread, haccepts, htype, happly⟩ :=
    applyEvent_ok hanswer
  have hm := hok m hread
  obtain ⟨eventTsMs, htime, hts⟩ := hm.stamped
  have hdrains : (∃ base u, Drains c connectionId (s.step c e) base u) ∧
      ∃ emitted, (s.step c e).answer = .ok emitted := by
    by_cases hempty : m.records = []
    · have hrows := normalize_empty c.dumps hstr hexchange hchannel hread htype htime
        hempty
      refine ⟨drains_empty hs haccepts hempty happly hread hrows, [], ?_⟩
      rw [step_eq happly hread hrows]
      rfl
    · have hlevels := hm.levels hempty
      have hbuild : Buildable e :=
        ⟨hD, hlevels.ascii, hlevels.identified, hchannel ▸ List.mem_cons_self⟩
      have hrows := normalize_read c.dumps hbuild hstr hexchange hchannel hread htype
        htime (hts hempty)
      exact drains_levels hs hbuild hchannel (hsymbol.trans hs.1) hconn haccepts hempty htype happly
        hread hm (hts hempty) hrows
  obtain ⟨⟨base, u, hdrain⟩, haccepted⟩ := hdrains
  refine ⟨⟨?_, .inr ⟨base, u, hdrain⟩⟩, hdrain.refines haccepted⟩
  rw [step_raw, happly]
  exact hs.1

end Steps

/-- An order-book event of the collector, received at `time`. -/
def sampleUpdate (eventId messageType : String) (time : ℕ) (bids asks : List (String × String)) :
    RawMarketEvent (digestOf []) :=
  { bookEvent "bybit" messageType "c" none (bybitMessage messageType time time bids asks)
      sampleConnection_ne with
    eventId
    receiveTsNs := time + 1
    updateId := some time
    received := Int.lt_add_one_of_le (Int.natCast_nonneg time) }

variable {eventId messageType : String} {time : ℕ} {bids asks : List (String × String)}

theorem buildable_sampleUpdate
    (hascii : isAscii eventId = true) (hne : eventId ≠ "") :
    Buildable (sampleUpdate eventId messageType time bids asks) :=
  ⟨digestOf_hex fun _ hrow => absurd hrow List.not_mem_nil, hascii, hne, List.mem_cons_self⟩

theorem read_sampleUpdate
    :
    readEvent sampleFloats sampleTexts (sampleUpdate eventId messageType time bids asks) =
      readBybitMessage sampleTexts "BTC" (bybitMessage messageType time time bids asks) := by
  have hpayload : (sampleUpdate eventId messageType time bids asks).payload sampleFloats =
      .ok (bybitMessage messageType time time bids asks) := by
    show (bookEvent "bybit" messageType "c" none _ sampleConnection_ne).payload sampleFloats = _
    exact payload_bookEvent (canonical_bybitMessage messageType time time bids asks)
  rw [readEvent, hpayload]
  rfl

/-- The replay applies what it reads of a sample event. -/
theorem apply_sampleUpdate
    (hsymbol : b.symbol = "BTC")
    (hread : readEvent sampleFloats sampleTexts
      (sampleUpdate eventId messageType time bids asks) = .ok m) :
    b.applyEvent sampleFloats sampleTexts (sampleUpdate eventId messageType time bids asks) =
      b.applyRead sampleTexts m := by
  obtain ⟨message, hpayload, hmessage⟩ := bind_eq_ok.mp hread
  have hown : (sampleUpdate eventId messageType time bids asks).symbol = b.symbol := hsymbol.symm
  have hvenue : ¬ ((sampleUpdate eventId messageType time bids asks).exchange ≠ "bybit" ∨
      (sampleUpdate eventId messageType time bids asks).channel ≠ "orderbook") :=
    not_or.mpr ⟨not_not.mpr rfl, not_not.mpr rfl⟩
  unfold BybitOrderBook.applyEvent
  rw [if_neg hvenue, if_neg (not_not.mpr hown), hpayload]
  simp only [BybitOrderBook.applyMessage, hsymbol]
  rw [show readBybitMessage sampleTexts "BTC" message = .ok m from hmessage]

/-- A snapshot, a delta without levels and a delta with a level. -/
def sampleUpdates : List (RawMarketEvent (digestOf [])) :=
  [sampleUpdate "e1" "snapshot" 1 [("100", "1")] [("101", "1")], sampleUpdate "e2" "delta" 2 [] [],
    sampleUpdate "e3" "delta" 3 [("99", "1")] []]

def firstMessage : BybitBookMessage := ⟨.str "snapshot", 1, 1, [(100, 1)], [(101, 1)]⟩

def emptyMessage : BybitBookMessage := ⟨.str "delta", 2, 2, [], []⟩

def lastMessage : BybitBookMessage := ⟨.str "delta", 3, 3, [(99, 1)], []⟩

theorem read_first : readEvent sampleFloats sampleTexts
    (sampleUpdate "e1" "snapshot" 1 [("100", "1")] [("101", "1")]) = .ok firstMessage := by
  rw [read_sampleUpdate]
  rfl

theorem read_empty : readEvent sampleFloats sampleTexts (sampleUpdate "e2" "delta" 2 [] []) =
    .ok emptyMessage := by
  rw [read_sampleUpdate]
  rfl

theorem read_last : readEvent sampleFloats sampleTexts
    (sampleUpdate "e3" "delta" 3 [("99", "1")] []) = .ok lastMessage := by
  rw [read_sampleUpdate]
  rfl

def sampleSilver : SilverConfig := ⟨sampleFloats, sampleTexts, fun _ => "", "BTC", 5⟩

theorem buildable_first :
    Buildable (sampleUpdate "e1" "snapshot" 1 [("100", "1")] [("101", "1")]) :=
  buildable_sampleUpdate (by decide +kernel) (by decide)

theorem buildable_last : Buildable (sampleUpdate "e3" "delta" 3 [("99", "1")] []) :=
  buildable_sampleUpdate (by decide +kernel) (by decide)

/-- The book after the snapshot, and after the delta without levels. -/
def firstBook : BybitOrderBook :=
  (sampleSilver.start.raw.applyRead sampleTexts firstMessage).2

def emptyBook : BybitOrderBook := (firstBook.applyRead sampleTexts emptyMessage).2

/-- The replay accepts the three events. -/
theorem accepted_sampleUpdates : Runs.Meets (SilverRun.step sampleSilver)
    (Accepted sampleSilver "c") sampleSilver.start sampleUpdates := by
  have hstart : sampleSilver.start.raw.symbol = "BTC" := rfl
  have hfirst := apply_sampleUpdate hstart read_first
  have hbook : firstBook.symbol = "BTC" := by decide +kernel
  have hempty := apply_sampleUpdate hbook read_empty
  have hbook' : emptyBook.symbol = "BTC" := by decide +kernel
  have hlast := apply_sampleUpdate hbook' read_last
  have hraw : (sampleSilver.start.step sampleSilver
      (sampleUpdate "e1" "snapshot" 1 [("100", "1")] [("101", "1")])).raw = firstBook := by
    rw [step_raw]
    exact congrArg Prod.snd hfirst
  have hraw' : ((sampleSilver.start.step sampleSilver
      (sampleUpdate "e1" "snapshot" 1 [("100", "1")] [("101", "1")])).step sampleSilver
      (sampleUpdate "e2" "delta" 2 [] [])).raw = emptyBook := by
    rw [step_raw, hraw]
    exact congrArg Prod.snd hempty
  have haccepts : (sampleSilver.start.raw.applyRead sampleTexts firstMessage).1 = .ok () := by
    decide +kernel
  have haccepts' : (firstBook.applyRead sampleTexts emptyMessage).1 = .ok () := by decide +kernel
  have haccepts'' : (emptyBook.applyRead sampleTexts lastMessage).1 = .ok () := by decide +kernel
  refine ⟨⟨?_, rfl⟩, ⟨?_, rfl⟩, ⟨?_, rfl⟩, trivial⟩
  · exact (congrArg Prod.fst hfirst).trans haccepts
  · rw [hraw]
    exact (congrArg Prod.fst hempty).trans haccepts'
  · rw [hraw']
    exact (congrArg Prod.fst hlast).trans haccepts''

def firstRows : List NormalizedMarketEvent :=
  buildable_first.rows 1 Int.one_pos firstMessage.records

def lastRows : List NormalizedMarketEvent := buildable_last.rows 1 Int.one_pos lastMessage.records

theorem normalize_first : normalizeBybitEvent sampleSilver.F sampleSilver.T sampleSilver.dumps
    (sampleUpdate "e1" "snapshot" 1 [("100", "1")] [("101", "1")]) = .ok firstRows :=
  normalize_read _ buildable_first (fun _ => rfl) rfl rfl read_first (.inl rfl) rfl Int.one_pos

theorem normalize_second : normalizeBybitEvent sampleSilver.F sampleSilver.T sampleSilver.dumps
    (sampleUpdate "e2" "delta" 2 [] []) = .ok [] :=
  normalize_empty _ (fun _ => rfl) rfl rfl read_empty (.inr rfl)
    (show bookTsMs _ = some 1 from rfl) rfl

theorem normalize_last : normalizeBybitEvent sampleSilver.F sampleSilver.T sampleSilver.dumps
    (sampleUpdate "e3" "delta" 3 [("99", "1")] []) = .ok lastRows :=
  normalize_read _ buildable_last (fun _ => rfl) rfl rfl read_last (.inr rfl) rfl Int.one_pos

/-- What the accumulator holds after the three events. -/
def lastSilver : L2ImbalanceAccumulator :=
  (sampleSilver.l2.feedAll (sampleSilver.l2.feedAll { state := {} } firstRows).2 lastRows).2

theorem flush_lastSilver : (sampleSilver.l2.flush lastSilver).1.toBool = false := by
  decide +kernel

end Greenfield.Features
