import Greenfield.Data.LakeResumes
import Mathlib.Data.List.Dedup

/-!
# Readers of the raw lake

`discover_manifests` and `iter_raw_events` of `src/data/raw_store.py`, over a lake that only
`AtomicRawWriter` has written to (`RawLake`). There every manifest is of a part that can be read
(`discoverManifests_spec`), and what is given of a partition depends only on the events that are in
it, not on the parts that they are in (`iterRawEvents_perm`).
-/

namespace Greenfield.Data

open Effects Files Parts Py

-- the order of the integers that computes, whatever is imported
local instance readerIntLinearOrder : LinearOrder ℤ := Int.instLinearOrder

local instance readerIntPartialOrder : PartialOrder ℤ := Int.instLinearOrder.toPartialOrder

variable {D : Digests} {β : Type} (C : Codec D β)

/-! ## `iter_raw_events` -/

/-- One iterator after the other; the second is not asked when the first raises. -/
def RowIterator.chain {ε ρ : Type} (first second : RowIterator ε ρ) : RowIterator ε ρ :=
  match first.raised with
  | none => { second with rows := first.rows ++ second.rows }
  | some _ => first

def RowIterator.mapError {ε ε' ρ : Type} (f : ε → ε') (it : RowIterator ε ρ) : RowIterator ε' ρ :=
  ⟨it.rows, it.raised.map f⟩

inductive RawIterError where
  /-- `RawStoreError`: "raw event order regressed or duplicated in stream {stream}: {exc}". -/
  | order (stream : List String) (exc : OrderedMergeError String (ℤ × ℤ) Unit)
  | lake (e : LakeError)

def RawPartManifest.stream (m : RawPartManifest) : List String :=
  [m.exchange, m.marketType, m.channel, m.symbol]

/-- The order of `(exchange, market_type, channel, symbol, min_receive_ts_ns, part_path)`. -/
def manifestLe (a b : RawPartManifest) : Bool :=
  a.stream < b.stream ∨ a.stream = b.stream ∧ (a.minReceiveTsNs < b.minReceiveTsNs ∨
    a.minReceiveTsNs = b.minReceiveTsNs ∧ a.partPath.path ≤ b.partPath.path)

/-- `_open_part`, which verifies. -/
def openPart (lake : Lake LakeName β) (manifest : RawPartManifest) :
    RowIterator LakeError (RawMarketEvent D) :=
  match readVerifiedPart C lake manifest with
  | .ok rows => ⟨rows, none⟩
  | .error e => ⟨[], some e⟩

def rawSource (lake : Lake LakeName β) (manifest : RawPartManifest) :
    MergeSource ℤ LakeError (RawMarketEvent D) :=
  ⟨manifest.minReceiveTsNs, openPart C lake manifest⟩

/-- The events of a stream, of the manifests that are in order. -/
def iterStream (lake : Lake LakeName β) (manifests : List RawPartManifest) (stream : List String) :
    RowIterator RawIterError (RawMarketEvent D) :=
  (mergeRowsByConnection (rawKeys D)
    ((manifests.filter fun m => m.stream = stream).map (rawSource C lake))).mapError
      (Sum.elim (.order stream) .lake)

/-- `iter_raw_events`. -/
def iterRawEvents (lake : Lake LakeName β) (s : Selection) :
    RowIterator RawIterError (RawMarketEvent D) :=
  match discoverManifests C lake s with
  | .error e => ⟨[], some (.lake e)⟩
  | .ok discovered =>
    let manifests := sorted manifestLe discovered
    ((sorted (fun a b => decide (a ≤ b)) (manifests.map (·.stream)).dedup).map
      (iterStream C lake manifests)).foldr .chain ⟨[], none⟩

/-! ## Lakes of raw parts -/

/-- Both files of a part, its manifest without its time. -/
def rawEntry (key : RawKey) (rows : List (RawMarketEvent D)) (eventsSha256 : String) :
    Option (List β) × Option (Except LakeError LakeManifest) :=
  (rawPart C "" key rows eventsSha256).entry (lakeFormat C "") (C.rawParquet rows)

/-- The part `n` is of the events `rows` of one partition. -/
structure IsPart (V : View LakeName β LakeManifest LakeError) (n : RawPartName) (key : RawKey)
    (rows : List (RawMarketEvent D)) : Prop where
  nonempty : rows ≠ []
  keyed : ∀ e ∈ rows, rawKey e = .ok (key, e)
  ordered : rows.Pairwise fun a b => rawLe a b = true
  safe : key.components.forM (validateComponent .rawStore "raw") = .ok ()
  entry : ∃ sha, asciiSha256 D (rows.map (·.eventId)) = .ok sha ∧
    (rawPart C "" key rows sha).name = .raw n ∧
    (rawPart C "" key rows sha).content = .ok (C.rawParquet rows) ∧ V (.raw n) = rawEntry C key rows sha

/-- Every manifest is of a part as `AtomicRawWriter` writes it. -/
def RawLake (V : View LakeName β LakeManifest LakeError) : Prop :=
  ∀ n, (V n).2 ≠ none → ∃ r key rows, n = .raw r ∧ IsPart C V r key rows

/-- The files in place; the texts of errors do not matter. -/
abbrev lakeView (lake : Lake LakeName β) : View LakeName β LakeManifest LakeError :=
  view (lakeFormat C "") lake

theorem lakeView_eq (dataDir : String) (lake : Lake LakeName β) :
    view (lakeFormat C dataDir) lake = lakeView C lake := rfl

/-- The manifest is read where it says it is. -/
def Listed (lake : Lake LakeName β) (m : RawPartManifest) : Prop :=
  ∃ text, lake.read (.manifest (.raw m.partPath)) = some text ∧
    RawPartManifest.fromJson C text = .ok m

def RawPartManifest.key (m : RawPartManifest) : RawKey :=
  ⟨m.exchange, m.marketType, m.channel, m.symbol, m.utcDate⟩

def RawKey.selection (key : RawKey) : Selection :=
  ⟨some key.exchange, some key.marketType, some key.channel, some key.symbol, some key.utcDate⟩

variable {C} {V : View LakeName β LakeManifest LakeError} {lake lake' : Lake LakeName β}
  {n : RawPartName} {key : RawKey} {rows : List (RawMarketEvent D)} {m : RawPartManifest}

theorem matches_selection : key.selection.matches m.exchange m.marketType m.channel m.symbol
    m.utcDate = true ↔ m.key = key := by
  simp only [RawKey.selection, Selection.matches, Selection.has, Bool.and_eq_true, decide_eq_true_eq]
  constructor
  · rintro ⟨⟨⟨⟨h₁, h₂⟩, h₃⟩, h₄⟩, h₅⟩
    unfold RawPartManifest.key
    rw [← h₁, ← h₂, ← h₃, ← h₄, ← h₅]
  · rintro rfl
    exact ⟨⟨⟨⟨rfl, rfl⟩, rfl⟩, rfl⟩, rfl⟩

theorem rawLe_iff {a b : RawMarketEvent D} :
    rawLe a b = true ↔ (rawKeys D).orderKey a ≤ (rawKeys D).orderKey b := by
  simp [rawLe, rawKeys, Prod.Lex.toLex_le_toLex]

/-! ## What is read -/

/-- The manifest of a part, and what is read of it. -/
theorem IsPart.listed (h : IsPart C (lakeView C lake) n key rows) :
    ∃ m, Listed C lake m ∧ m.partPath = n ∧ m.key = key ∧
      m.minReceiveTsNs = (rows.head?.map (·.receiveTsNs)).getD 0 ∧
      readVerifiedPart C lake m = .ok rows := by
  obtain ⟨sha, hsha, hname, hcontent, hentry⟩ := h.entry
  cases hname
  obtain ⟨hpart, hmanifest⟩ := Prod.mk.inj hentry
  obtain ⟨text, htext, hparsed⟩ := Option.map_eq_some_iff.mp hmanifest
  cases hfrom : RawPartManifest.fromJson C text with
  | error e =>
    simp [lakeFormat, hfrom, Except.map] at hparsed
  | ok m =>
    simp only [lakeFormat, hfrom, Except.map, Except.ok.injEq, LakeManifest.raw.injEq, rawPart] at hparsed
    have hpath := congrArg RawPartManifest.partPath hparsed
    have hread : readVerifiedPart C lake { m with createdAt := "" } = .ok rows := by
      have hlawful : (rawPart C "" key rows sha).Lawful (lakeFormat C "") := rawPart_lawful hsha
      have hverify := hlawful.verified _ hcontent ""
      rw [hparsed]
      unfold readVerifiedPart
      rw [hpart]
      exact bind_eq_ok.mpr ⟨(), hverify, C.readRaw_rawParquet rows⟩
    refine ⟨m, ⟨text, ?_, hfrom⟩, hpath, ?_, congrArg RawPartManifest.minReceiveTsNs hparsed, hread⟩
    · exact hpath.symm ▸ htext
    · exact congrArg RawPartManifest.key hparsed

theorem Listed.unique {m' : RawPartManifest} (h : Listed C lake m) (h' : Listed C lake m')
    (hpath : m.partPath = m'.partPath) : m = m' := by
  obtain ⟨text, htext, hm⟩ := h
  obtain ⟨text', htext', hm'⟩ := h'
  rw [hpath, htext'] at htext
  cases htext
  rw [hm] at hm'
  exact Except.ok.inj hm'

theorem RawLake.listed (hlake : RawLake C (lakeView C lake)) (h : Listed C lake m) :
    ∃ rows, IsPart C (lakeView C lake) m.partPath m.key rows ∧
      m.minReceiveTsNs = (rows.head?.map (·.receiveTsNs)).getD 0 ∧
      readVerifiedPart C lake m = .ok rows := by
  obtain ⟨text, htext, -⟩ := id h
  have hthere : (lakeView C lake (.raw m.partPath)).2 ≠ none := by
    simp [lakeView, view, htext]
  obtain ⟨_, key, rows, ⟨⟩, hpart⟩ := hlake _ hthere
  obtain ⟨m', hlisted, hpath, rfl, hmin, hread⟩ := hpart.listed
  cases h.unique hlisted hpath.symm
  exact ⟨rows, hpart, hmin, hread⟩

/-- A name has one part. -/
theorem IsPart.unique {key' : RawKey} {rows' : List (RawMarketEvent D)}
    (h : IsPart C (lakeView C lake) n key rows) (h' : IsPart C (lakeView C lake) n key' rows') :
    key = key' ∧ rows = rows' := by
  obtain ⟨m, hlisted, hpath, rfl, -, hread⟩ := h.listed
  obtain ⟨m', hlisted', hpath', rfl, -, hread'⟩ := h'.listed
  cases hlisted.unique hlisted' (hpath.trans hpath'.symm)
  rw [hread] at hread'
  exact ⟨rfl, Except.ok.inj hread'⟩

/-- A manifest that says what is there, at whatever time, is as good. -/
theorem IsPart.read_undated (h : IsPart C (lakeView C lake) n key rows) {written : LakeManifest}
    (hwritten : (lakeView C lake (.raw n)).2 = some (.ok ((lakeFormat C "").undated written))) :
    ∃ m, written = .raw m ∧ readVerifiedPart C lake m = .ok rows := by
  obtain ⟨m', ⟨text, htext, hm'⟩, rfl, -, -, hread⟩ := h.listed
  simp only [lakeView, view, htext, Option.map_some, lakeFormat, hm', Except.map, Option.some.injEq,
    Except.ok.injEq] at hwritten
  cases written with
  | silver m => cases hwritten
  | gold m => cases hwritten
  | raw m =>
    refine ⟨m, rfl, ?_⟩
    have hundated : readVerifiedPart C lake { m with createdAt := "" } = .ok rows := by
      rw [← LakeManifest.raw.inj hwritten]
      exact hread
    exact hundated

/-- The names of the manifests that the pattern matches. -/
def manifestNames (lake : Lake LakeName β) (s : Selection) : List RawPartName :=
  lake.paths.filterMap fun
    | .manifest (.raw n) =>
      if s.matches n.exchange n.marketType n.channel n.symbol n.utcDate then some n else none
    | _ => none

variable {s : Selection}

theorem mem_manifestNames : n ∈ manifestNames lake s ↔
    (∃ text, lake.read (.manifest (.raw n)) = some text) ∧
      s.matches n.exchange n.marketType n.channel n.symbol n.utcDate = true := by
  unfold manifestNames
  rw [List.mem_filterMap]
  constructor
  · rintro ⟨file, hfile, hn⟩
    split at hn
    · next n' =>
      split at hn
      · next hmatches =>
        cases hn
        exact ⟨Store.mem_paths.mp hfile, hmatches⟩
      · cases hn
    · cases hn
  · rintro ⟨hfile, hmatches⟩
    exact ⟨.manifest (.raw n), Store.mem_paths.mpr hfile, if_pos hmatches⟩

theorem nodup_manifestNames : (manifestNames lake s).Nodup := by
  refine List.Nodup.filterMap ?_ lake.nodup
  intro file file' n hn hn'
  split at hn
  · next n₁ =>
    split at hn'
    · next n₂ =>
      split at hn
      · split at hn'
        · cases hn
          cases hn'
          rfl
        · cases hn'
      · cases hn
    · cases hn'
  · cases hn

/-- The manifest that is read at a name. -/
def manifestAt (C : Codec D β) (lake : Lake LakeName β) (n : RawPartName) :
    Except LakeError RawPartManifest :=
  RawPartManifest.fromJson C ((lake.read (.manifest (.raw n))).getD [])

theorem Listed.manifestAt (h : Listed C lake m) : manifestAt C lake m.partPath = .ok m := by
  obtain ⟨text, htext, hm⟩ := h
  unfold Data.manifestAt
  rw [htext]
  exact hm

/-- The name says what the manifest says. -/
theorem Listed.name (hlake : RawLake C (lakeView C lake)) (h : Listed C lake m) :
    (⟨m.partPath.exchange, m.partPath.marketType, m.partPath.channel, m.partPath.symbol,
      m.partPath.utcDate⟩ : RawKey) = m.key := by
  obtain ⟨rows, hpart, -⟩ := hlake.listed h
  obtain ⟨sha, -, hname, -⟩ := hpart.entry
  rw [← LakeName.raw.inj hname]

/-- **Discovery**: the manifests that match, each of them once. -/
theorem discoverManifests_spec (hlake : RawLake C (lakeView C lake))
    (hsafe : ([s.exchange, s.marketType, s.channel, s.symbol, s.utcDate].filterMap id).forM
      (validateComponent .rawStore "raw") = .ok ()) :
    ∃ ms, discoverManifests C lake s = .ok ms ∧ ms.Nodup ∧ ∀ m, m ∈ ms ↔ Listed C lake m ∧
      s.matches m.exchange m.marketType m.channel m.symbol m.utcDate = true := by
  let names := sorted (fun a b => decide (a.components ≤ b.components)) (manifestNames lake s)
  have hnames : ∀ n ∈ names, ∃ m, manifestAt C lake n = .ok m ∧ Listed C lake m ∧ m.partPath = n := by
    intro n hn
    obtain ⟨⟨text, htext⟩, -⟩ := mem_manifestNames.mp (mem_sorted.mp hn)
    have hthere : (lakeView C lake (.raw n)).2 ≠ none := by
      simp [lakeView, view, htext]
    obtain ⟨_, key, rows, ⟨⟩, hpart⟩ := hlake _ hthere
    obtain ⟨m, hlisted, rfl, -⟩ := hpart.listed
    exact ⟨m, hlisted.manifestAt, hlisted, rfl⟩
  obtain ⟨ms, hms, hmap⟩ := mapM_ok (f := manifestAt C lake) (g := fun m => (m.partPath, .ok m))
    (h := fun n => (n, manifestAt C lake n)) (l := names) fun n hn => by
      obtain ⟨m, hm, -, rfl⟩ := hnames n hn
      exact ⟨m, hm, by rw [hm]⟩
  have hpaths : ms.map (·.partPath) = names := by
    have h := congrArg (List.map Prod.fst) hmap
    rw [List.map_map, List.map_map] at h
    exact h.trans (List.map_id names)
  have hread : ∀ m ∈ ms, manifestAt C lake m.partPath = .ok m := by
    intro m hm
    have hmem : (m.partPath, (.ok m : Except LakeError RawPartManifest)) ∈
        names.map fun n => (n, manifestAt C lake n) := by
      rw [← hmap]
      exact List.mem_map_of_mem hm
    obtain ⟨n, -, heq⟩ := List.mem_map.mp hmem
    obtain ⟨rfl, hread⟩ := Prod.mk.inj heq
    exact hread
  refine ⟨ms.filter fun m => s.matches m.exchange m.marketType m.channel m.symbol m.utcDate,
    bind_eq_ok.mpr ⟨(), hsafe, bind_eq_ok.mpr ⟨ms, hms, rfl⟩⟩, ?_, fun m => ?_⟩
  · refine List.Nodup.filter _ (List.Nodup.of_map (·.partPath) ?_)
    rw [hpaths]
    exact (List.perm_insertionSort _ _).nodup_iff.mpr nodup_manifestNames
  · rw [List.mem_filter]
    refine and_congr_left fun hmatches => ⟨fun hm => ?_, fun hm => ?_⟩
    · have hname : m.partPath ∈ names := hpaths ▸ List.mem_map_of_mem hm
      obtain ⟨m', hm', hlisted, -⟩ := hnames m.partPath hname
      rw [hread m hm] at hm'
      exact Except.ok.inj hm' ▸ hlisted
    · have hname : m.partPath ∈ names := by
        obtain ⟨text, htext, -⟩ := id hm
        refine mem_sorted.mpr (mem_manifestNames.mpr ⟨⟨text, htext⟩, ?_⟩)
        obtain ⟨h₁, h₂, h₃, h₄, h₅⟩ := RawKey.mk.inj (hm.name hlake)
        rw [h₁, h₂, h₃, h₄, h₅]
        exact hmatches
      rw [← hpaths] at hname
      obtain ⟨m', hm', hpath⟩ := List.mem_map.mp hname
      have hsame := hread m' hm'
      rw [hpath, hm.manifestAt] at hsame
      exact Except.ok.inj hsame ▸ hm'

variable {ms : List RawPartManifest}

/-- What discovery finds, once it goes through. -/
theorem mem_discovered (hlake : RawLake C (lakeView C lake))
    (hms : discoverManifests C lake s = .ok ms) :
    ms.Nodup ∧ ∀ m, m ∈ ms ↔ Listed C lake m ∧
      s.matches m.exchange m.marketType m.channel m.symbol m.utcDate = true := by
  obtain ⟨_, hsafe, -⟩ := bind_eq_ok.mp hms
  obtain ⟨ms', hms', hspec⟩ := discoverManifests_spec hlake hsafe
  rw [hms] at hms'
  cases hms'
  exact hspec

/-- The parts of a partition are what discovery finds of it. -/
theorem isPart_iff (hlake : RawLake C (lakeView C lake))
    (hms : discoverManifests C lake key.selection = .ok ms) :
    IsPart C (lakeView C lake) n key rows ↔
      ∃ m ∈ ms, m.partPath = n ∧ readVerifiedPart C lake m = .ok rows := by
  have hspec := (mem_discovered hlake hms).2
  constructor
  · intro hpart
    obtain ⟨m, hlisted, hpath, hkey, -, hread⟩ := hpart.listed
    exact ⟨m, (hspec m).mpr ⟨hlisted, matches_selection.mpr hkey⟩, hpath, hread⟩
  · rintro ⟨m, hm, rfl, hread⟩
    obtain ⟨hlisted, hkey⟩ := (hspec m).mp hm
    obtain ⟨rows', hpart, -, hread'⟩ := hlake.listed hlisted
    rw [hread] at hread'
    cases hread'
    exact matches_selection.mp hkey ▸ hpart

/-! ## What is given of a partition -/

/-- The events of the parts, one part after the other. -/
def rowsOf (C : Codec D β) (lake : Lake LakeName β) (ms : List RawPartManifest) :
    List (RawMarketEvent D) :=
  ms.flatMap fun m => (openPart C lake m).rows

def RawKey.stream (key : RawKey) : List String :=
  [key.exchange, key.marketType, key.channel, key.symbol]

theorem openPart_listed (hlake : RawLake C (lakeView C lake)) (h : Listed C lake m) :
    ∃ rows, IsPart C (lakeView C lake) m.partPath m.key rows ∧
      m.minReceiveTsNs = (rows.head?.map (·.receiveTsNs)).getD 0 ∧
      openPart C lake m = ⟨rows, none⟩ := by
  obtain ⟨rows, hpart, hmin, hread⟩ := hlake.listed h
  refine ⟨rows, hpart, hmin, ?_⟩
  unfold openPart
  rw [hread]

/-- A part keeps the promise of its source. -/
theorem rawSource_sorted (hlake : RawLake C (lakeView C lake)) (h : Listed C lake m) :
    (rawSource C lake m).Sorted (rawKeys D) ∧ (rawSource C lake m).opens.raised = none := by
  obtain ⟨rows, hpart, hmin, hopen⟩ := openPart_listed hlake h
  have hopens : (rawSource C lake m).opens = ⟨rows, none⟩ := hopen
  have hascending : Ascending (rawKeys D) rows := hpart.ordered.imp rawLe_iff.mp
  rw [hopens]
  refine ⟨⟨?_, ?_⟩, rfl⟩
  · rw [hopens]
    exact hascending
  · rw [hopens]
    intro row hrow
    show m.minReceiveTsNs ≤ row.receiveTsNs
    rw [hmin]
    cases rows with
    | nil => cases hrow
    | cons first rest =>
      rcases List.mem_cons.mp hrow with rfl | hrow
      · exact le_refl _
      · have hle := (List.pairwise_cons.mp hascending).1 row hrow
        simp only [rawKeys, Prod.Lex.toLex_le_toLex] at hle
        simp only [List.head?_cons, Option.map_some, Option.getD_some]
        omega

theorem chain_nil {ε ρ : Type} (it : RowIterator ε ρ) : it.chain ⟨[], none⟩ = it := by
  obtain ⟨rows, raised⟩ := it
  cases raised with
  | none => simp [RowIterator.chain]
  | some e => rfl

/-- A partition is one stream. -/
theorem iterRawEvents_partition (hlake : RawLake C (lakeView C lake))
    (hms : discoverManifests C lake key.selection = .ok ms) :
    iterRawEvents C lake key.selection = (mergeRowsByConnection (rawKeys D)
      ((sorted manifestLe ms).map (rawSource C lake))).mapError
        (Sum.elim (.order key.stream) .lake) := by
  have hstream : ∀ m ∈ sorted manifestLe ms, m.stream = key.stream := by
    intro m hm
    have hkey := matches_selection.mp (((mem_discovered hlake hms).2 m).mp (mem_sorted.mp hm)).2
    rw [← hkey]
    rfl
  unfold iterRawEvents
  rw [hms]
  dsimp only
  generalize sorted manifestLe ms = manifests at hstream
  have hmap : manifests.map (·.stream) = List.replicate manifests.length key.stream := by
    refine List.eq_replicate_iff.mpr ⟨List.length_map _, fun stream hmem => ?_⟩
    obtain ⟨m, hm, rfl⟩ := List.mem_map.mp hmem
    exact hstream m hm
  cases manifests with
  | nil => rfl
  | cons m rest =>
    have hfilter : ((m :: rest).filter fun m => decide (m.stream = key.stream)) = m :: rest :=
      List.filter_eq_self.mpr fun m hm => decide_eq_true (hstream m hm)
    rw [hmap, List.length_cons, List.replicate_dedup (Nat.succ_ne_zero rest.length)]
    show (iterStream C lake (m :: rest) key.stream).chain ⟨[], none⟩ = _
    rw [chain_nil, iterStream, hfilter]

section Partition

variable {ms ms' : List RawPartManifest}

theorem rawSources_sorted (hlake : RawLake C (lakeView C lake))
    (hms : discoverManifests C lake key.selection = .ok ms) :
    ∀ source ∈ (sorted manifestLe ms).map (rawSource C lake),
      source.Sorted (rawKeys D) ∧ source.opens.raised = none := by
  intro source hsource
  obtain ⟨m, hm, rfl⟩ := List.mem_map.mp hsource
  exact rawSource_sorted hlake (((mem_discovered hlake hms).2 m).mp (mem_sorted.mp hm)).1

theorem sourceRows_perm : (sourceRows ((sorted manifestLe ms).map (rawSource C lake))).Perm
    (rowsOf C lake ms) := by
  unfold sourceRows rowsOf
  rw [List.flatMap_map]
  exact (List.perm_insertionSort _ ms).flatMap_right _

/-- **The parts do not matter**: what is given of a partition depends on the events in it. -/
theorem iterRawEvents_perm (hlake : RawLake C (lakeView C lake)) (hlake' : RawLake C (lakeView C lake'))
    (hms : discoverManifests C lake key.selection = .ok ms)
    (hms' : discoverManifests C lake' key.selection = .ok ms')
    (hnodup : ((rowsOf C lake ms).map (rawKeys D).orderKey).Nodup)
    (hperm : (rowsOf C lake' ms').Perm (rowsOf C lake ms)) :
    iterRawEvents C lake' key.selection = iterRawEvents C lake key.selection := by
  rw [iterRawEvents_partition hlake hms, iterRawEvents_partition hlake' hms']
  have hsorted := rawSources_sorted hlake hms
  have hsorted' := rawSources_sorted hlake' hms'
  have hmerge := (merge_correct (rawKeys D) _ fun source h => (hsorted source h).1).2.2
    ((sourceRows_perm.map _).nodup_iff.mpr hnodup) _ (fun source h => (hsorted' source h).1)
    (sourceRows_perm.trans (hperm.trans sourceRows_perm.symm))
  rw [hmerge.2 fun source h => (List.mem_append.mp h).elim (fun h => (hsorted source h).2)
    fun h => (hsorted' source h).2]

/-- A partition that is given without an error is given whole. -/
theorem iterRawEvents_whole (hlake : RawLake C (lakeView C lake))
    (hms : discoverManifests C lake key.selection = .ok ms)
    (hraised : (iterRawEvents C lake key.selection).raised = none) :
    (iterRawEvents C lake key.selection).rows.Perm (rowsOf C lake ms) := by
  rw [iterRawEvents_partition hlake hms] at hraised ⊢
  have hsorted := rawSources_sorted hlake hms
  have hwhole := (merge_correct (rawKeys D) _ fun source h => (hsorted source h).1).2.1
    (Option.map_eq_none_iff.mp hraised)
  exact hwhole.2.trans sourceRows_perm

end Partition

/-! ## Lakes that are written -/

section Written

variable {dataDir : String} {events : List (RawMarketEvent D)} {P : LakePart β}
  {V' : View LakeName β LakeManifest LakeError}

theorem IsPart.update (h : IsPart C V n key rows) {name : LakeName} (hname : LakeName.raw n ≠ name)
    (x : Option (List β) × Option (Except LakeError LakeManifest)) :
    IsPart C (Function.update V name x) n key rows := by
  obtain ⟨sha, hsha, hn, hcontent, hentry⟩ := h.entry
  exact ⟨h.nonempty, h.keyed, h.ordered, h.safe, sha, hsha, hn, hcontent, by
    rwa [Function.update_of_ne hname]⟩

/-- The order in which the rows of a part are. -/
theorem pairwise_rawLe (rows : List (RawMarketEvent D)) :
    (sorted rawLe rows).Pairwise fun a b => rawLe a b = true := by
  refine pairwise_sorted rawLe (fun a b => ?_) (fun a b c hab hbc => ?_) rows
  · rw [rawLe_iff, rawLe_iff]
    exact le_total _ _
  · rw [rawLe_iff] at hab hbc ⊢
    exact hab.trans hbc

/-- A part that is written is as it is read. -/
theorem writePartition_isPart (hnonempty : events ≠ []) (hkeyed : ∀ e ∈ events, rawKey e = .ok (key, e))
    (hP : writePartition C dataDir key events = .ok (some P)) {content : List β}
    (hcontent : P.content = .ok content) (hV : V P.name = P.entry (lakeFormat C dataDir) content) :
    ∃ n, P.name = .raw n ∧ IsPart C V n key (sorted rawLe events) := by
  unfold writePartition at hP
  obtain ⟨_, hsafe, hP⟩ := bind_eq_ok.mp hP
  obtain ⟨sha, hsha, hP⟩ := bind_eq_ok.mp hP
  cases hP
  cases tableOf_eq_ok hcontent
  refine ⟨_, rfl, ?_, fun e he => hkeyed e (mem_sorted.mp he), pairwise_rawLe events, hsafe, sha, hsha,
    rfl, hcontent, hV⟩
  intro hnil
  have hperm : (sorted rawLe events).Perm events := List.perm_insertionSort _ events
  rw [hnil] at hperm
  exact hnonempty hperm.nil_eq.symm

/-- The steps of `AtomicRawWriter.write` are about one partition each. -/
theorem mem_writeRaw (hP : .ok (some P) ∈ writeRaw C dataDir events) :
    ∃ key group, group ≠ [] ∧ (∀ e ∈ group, rawKey e = .ok (key, e)) ∧
      writePartition C dataDir key group = .ok (some P) := by
  unfold writeRaw at hP
  split at hP
  · cases List.mem_singleton.mp hP
  · next keyed hkeyed =>
    obtain ⟨key, hkey, hpart⟩ := List.mem_map.mp hP
    have hself : ∀ x ∈ keyed, rawKey x.2 = .ok x := by
      refine forall_of_mapM (fun e x hx => ?_) hkeyed
      obtain ⟨utcDate, hdate, heq⟩ := bind_eq_ok.mp hx
      cases heq
      exact hx
    refine ⟨key, _, ?_, ?_, hpart⟩
    · have hmem := mem_sorted.mp hkey
      rw [List.mem_dedup] at hmem
      obtain ⟨x, hx, rfl⟩ := List.mem_map.mp hmem
      apply List.ne_nil_of_mem
      exact List.mem_map_of_mem (List.mem_filter.mpr ⟨hx, decide_eq_true rfl⟩)
    · intro e he
      obtain ⟨x, hx, rfl⟩ := List.mem_map.mp he
      obtain ⟨hx, hxkey⟩ := List.mem_filter.mp hx
      rw [hself x hx, ← of_decide_eq_true hxkey]

theorem RawLake.install (hP : .ok (some P) ∈ writeRaw C dataDir events) (hV : RawLake C V)
    (h : install (lakeFormat C dataDir) P V = .ok V') : RawLake C V' := by
  rcases install_eq_ok h with ⟨-, rfl⟩ | ⟨-, content, hcontent, rfl⟩
  · exact hV
  · intro name hname
    obtain ⟨key, group, hnonempty, hkeyed, hpart⟩ := mem_writeRaw hP
    by_cases hsame : name = P.name
    · have hself : Function.update V P.name (P.entry (lakeFormat C dataDir) content) P.name =
          P.entry (lakeFormat C dataDir) content := Function.update_self ..
      obtain ⟨n, hn, hisPart⟩ := writePartition_isPart hnonempty hkeyed hpart hcontent hself
      exact ⟨n, key, _, hsame.trans hn, hisPart⟩
    · rw [Function.update_of_ne hsame] at hname
      obtain ⟨n, key, rows, rfl, hisPart⟩ := hV name hname
      exact ⟨n, key, rows, rfl, hisPart.update hsame _⟩

variable {answers : (q : Parts.Query LakeName) → Parts.Answer q}

/-- **Writers**: wherever a write is stopped, every manifest is of a part that is complete. -/
theorem RawLake.stoppedAt (hlake : RawLake C (lakeView C lake)) (k : ℕ) :
    RawLake C (lakeView C (stoppedAt (lakeFormat C dataDir) answers (writeRaw C dataDir events)
      lake k).1) := by
  have hinstall : ∀ P, .ok (some P) ∈ writeRaw C dataDir events → ∀ V V', RawLake C V →
      Parts.install (lakeFormat C dataDir) P V = .ok V' → RawLake C V' :=
    fun P hP V V' hV h => hV.install hP h
  have hpart : ∀ (V : View LakeName β LakeManifest LakeError) name (content : List β),
      V name = (none, none) → RawLake C V →
        RawLake C (Function.update V name (some content, none)) := by
    intro V name content _ hV name' hname'
    by_cases hsame : name' = name
    · rw [hsame, Function.update_self] at hname'
      exact absurd rfl hname'
    · rw [Function.update_of_ne hsame] at hname'
      obtain ⟨n, key, rows, rfl, hisPart⟩ := hV name' hname'
      exact ⟨n, key, rows, rfl, hisPart.update hsame _⟩
  have hstop : AllAtStop (lakeFormat C dataDir) (writeRaw C dataDir events)
      (view (lakeFormat C dataDir) lake) (Parts.stoppedAt (lakeFormat C dataDir) answers
        (writeRaw C dataDir events) lake k) :=
    stoppedAt_atStop answers lake lakeFormat_lawful (lawful_writeRaw events) k
  have hkeeps := hstop.keeps hinstall hpart
  exact hkeeps hlake

end Written

end Greenfield.Data
