import Greenfield.Data.RawCompactor
import Greenfield.Py.IsoOrder
import Mathlib.Data.List.Induction

/-!
# Recent manifests

`discover_recent_manifests` of `src/data/raw_store.py` goes from the last date and the last file
name back, until the manifests have enough rows. A part is taken or left as a whole: one that goes
beyond the bound is left (`straddling_and_overlapping`), so the newest rows are those of the parts
that lie wholly at or before it, as far as file names are in the order of time
(`discoverRecentManifests_newest`).
-/

namespace Greenfield.Data

open Effects Files Parts Py

variable {D : Digests} {β : Type} (C : Codec D β)

structure RecentQuery where
  exchange : String
  marketType : String
  channel : String
  symbol : String
  maximumReceiveTsNs : ℤ
  maximumRows : ℤ

namespace RecentQuery

def components (q : RecentQuery) : List String := [q.exchange, q.marketType, q.channel, q.symbol]

def key (q : RecentQuery) (utcDate : String) : RawKey :=
  ⟨q.exchange, q.marketType, q.channel, q.symbol, utcDate⟩

/-- The stream, on every date. -/
def selection (q : RecentQuery) : Selection :=
  ⟨some q.exchange, some q.marketType, some q.channel, some q.symbol, none⟩

end RecentQuery

structure RecentRawManifestSelection where
  manifests : List RawPartManifest
  eligibleUtcDates : List String

/-- The name of the manifest in the directory of its date. -/
def RawPartName.manifestFile (n : RawPartName) : String :=
  "part-" ++ toString n.minReceiveTsNs ++
    ("-" ++ toString n.maxReceiveTsNs ++ "-" ++ n.events ++ ".manifest.json")

/-- What the loops carry. -/
structure RecentScan where
  selected : List RawPartManifest
  eligibleDates : List String
  selectedRows : ℕ

def RecentScan.initial : RecentScan := ⟨[], [], 0⟩

/-- A manifest that is eligible. -/
def RecentScan.add (maximumRows : ℤ) (s : RecentScan) (manifest : RawPartManifest) : RecentScan :=
  let s := { s with eligibleDates := s.eligibleDates.insert manifest.utcDate }
  if s.selectedRows < maximumRows then
    { s with
      selected := s.selected ++ [manifest]
      selectedRows := s.selectedRows + manifest.rowCount }
  else s

/-- The loop over the manifests of a date. -/
def scanDate (lake : Lake LakeName β) (q : RecentQuery) (expectedDate : String) :
    RecentScan → List RawPartName → Except LakeError RecentScan
  | s, [] => .ok s
  | s, n :: rest => do
    let manifest ← manifestAt C lake n
    lakeCheck (manifest.key = q.key expectedDate)
      (.rawStore "raw manifest does not match its immutable partition path")
    if q.maximumReceiveTsNs < manifest.maxReceiveTsNs then scanDate lake q expectedDate s rest
    else if q.maximumRows ≤ (s.add q.maximumRows manifest).selectedRows then
      return s.add q.maximumRows manifest
    else scanDate lake q expectedDate (s.add q.maximumRows manifest) rest

/-- The manifests in a directory of a date, the last file name first. -/
def namesOn (lake : Lake LakeName β) (q : RecentQuery) (date : String) : List RawPartName :=
  sorted (fun a b => decide (b.manifestFile ≤ a.manifestFile))
    ((manifestNames lake q.selection).filter fun n => n.utcDate = date)

/-- The directories of the stream, the last date first. -/
def datesOf (lake : Lake LakeName β) (q : RecentQuery) : List String :=
  sorted (fun a b => decide (b ≤ a)) ((manifestNames lake q.selection).map (·.utcDate)).dedup

/-- `discover_recent_manifests`. -/
def discoverRecentManifests (lake : Lake LakeName β) (q : RecentQuery) :
    Except LakeError RecentRawManifestSelection := do
  q.components.forM (validateComponent .rawStore "raw")
  lakeCheck (0 ≤ q.maximumReceiveTsNs ∧ 1 ≤ q.maximumRows)
    (.market (.valueError "recent raw-manifest bounds must be positive"))
  let s ← (datesOf lake q).foldlM (fun s date => do
    validateComponent .rawStore "raw" date
    scanDate C lake q date s (namesOn lake q date)) RecentScan.initial
  return ⟨s.selected, s.eligibleDates⟩

/-! ## The loops -/

variable {C} {lake : Lake LakeName β} {q : RecentQuery} {m : RawPartManifest}

/-- The manifests of `seen` were eligible, and those that are selected are the first of them. -/
structure Scanned (maximumRows : ℤ) (seen : List RawPartManifest) (s : RecentScan) : Prop where
  selected : s.selected <+: seen
  rows : s.selectedRows = (s.selected.map (·.rowCount)).sum
  enough : s.selected = seen ∨ maximumRows ≤ s.selectedRows
  dates : ∀ date, date ∈ s.eligibleDates ↔ ∃ m ∈ seen, m.utcDate = date

theorem Scanned.initial (maximumRows : ℤ) : Scanned maximumRows [] .initial where
  selected := List.prefix_rfl
  rows := rfl
  enough := .inl rfl
  dates date := by
    constructor
    · exact fun h => absurd h List.not_mem_nil
    · rintro ⟨m, hm, -⟩
      cases hm

variable {maximumRows : ℤ} {s : RecentScan}

theorem Scanned.add {seen : List RawPartManifest}
    (h : Scanned maximumRows seen s) (m : RawPartManifest) :
    Scanned maximumRows (seen ++ [m]) (s.add maximumRows m) := by
  have hdates : ∀ date, date ∈ s.eligibleDates.insert m.utcDate ↔
      ∃ m' ∈ seen ++ [m], m'.utcDate = date := by
    intro date
    rw [List.mem_insert_iff, h.dates]
    constructor
    · rintro (rfl | ⟨m', hm', rfl⟩)
      · exact ⟨m, List.mem_append_right _ List.mem_cons_self, rfl⟩
      · exact ⟨m', List.mem_append_left _ hm', rfl⟩
    · rintro ⟨m', hm', rfl⟩
      rcases List.mem_append.mp hm' with hm' | hm'
      · exact .inr ⟨m', hm', rfl⟩
      · exact .inl (by rw [List.mem_singleton.mp hm'])
  unfold RecentScan.add
  dsimp only
  split
  · next hfew =>
    have hall : s.selected = seen := h.enough.resolve_right (not_le.mpr hfew)
    refine ⟨?_, ?_, .inl ?_, hdates⟩
    · exact ⟨[], by rw [List.append_nil, hall]⟩
    · rw [List.map_append, List.sum_append, h.rows]
      rfl
    · rw [hall]
  · next hmany =>
    exact ⟨h.selected.trans (List.prefix_append seen [m]), h.rows, .inr (not_lt.mp hmany), hdates⟩

/-- Once there are enough rows, what else is on dates that were seen does not matter. -/
theorem Scanned.leave {seen more : List RawPartManifest}
    (h : Scanned maximumRows seen s) (hrows : maximumRows ≤ s.selectedRows)
    (hmore : ∀ m ∈ more, ∃ m' ∈ seen, m'.utcDate = m.utcDate) :
    Scanned maximumRows (seen ++ more) s where
  selected := h.selected.trans (List.prefix_append seen more)
  rows := h.rows
  enough := .inr hrows
  dates date := by
    rw [h.dates]
    constructor
    · rintro ⟨m, hm, rfl⟩
      exact ⟨m, List.mem_append_left _ hm, rfl⟩
    · rintro ⟨m, hm, rfl⟩
      rcases List.mem_append.mp hm with hm | hm
      · exact ⟨m, hm, rfl⟩
      · exact hmore m hm

/-- The manifest says that the part is not beyond the bound. -/
def RecentQuery.eligible (q : RecentQuery) (m : RawPartManifest) : Bool :=
  m.maxReceiveTsNs ≤ q.maximumReceiveTsNs

variable {date : String}

/-- **A date.** -/
theorem scanDate_scanned : ∀ {ms : List RawPartManifest} {s : RecentScan}
    {seen : List RawPartManifest},
    (∀ m ∈ ms, manifestAt C lake m.partPath = .ok m ∧ m.key = q.key date) →
      Scanned q.maximumRows seen s →
        ∃ s', scanDate C lake q date s (ms.map (·.partPath)) = .ok s' ∧
          Scanned q.maximumRows (seen ++ ms.filter q.eligible) s'
  | [], s, seen, _, hs => ⟨s, rfl, by rwa [List.filter_nil, List.append_nil]⟩
  | m :: rest, s, seen, hms, hs => by
    obtain ⟨⟨hread, hkey⟩, hrest⟩ := List.forall_mem_cons.mp hms
    rw [List.map_cons]
    unfold scanDate
    rw [hread]
    have hcheck : lakeCheck (decide (m.key = q.key date))
        (.rawStore "raw manifest does not match its immutable partition path") = .ok () :=
      lakeCheck_eq_ok.mpr (decide_eq_true hkey)
    simp only [bind, Except.bind, hcheck]
    split
    · next hbeyond =>
      have hnot : q.eligible m = false := decide_eq_false (not_le.mpr hbeyond)
      rw [List.filter_cons_of_neg (by rw [hnot]; exact Bool.false_ne_true)]
      exact scanDate_scanned hrest hs
    · next hwithin =>
      have hadded := hs.add m
      rw [List.filter_cons_of_pos (p := q.eligible) (decide_eq_true (not_lt.mp hwithin)),
        ← List.singleton_append, ← List.append_assoc]
      split
      · next hrows =>
        refine ⟨_, rfl, hadded.leave hrows fun m' hm' => ?_⟩
        refine ⟨m, List.mem_append_right _ List.mem_cons_self, ?_⟩
        have hkey' := (hrest m' (List.mem_of_mem_filter hm')).2
        exact congrArg RawKey.utcDate (hkey.trans hkey'.symm)
      · exact scanDate_scanned hrest hadded

/-! ## The manifests in their order -/

/-- What is read at the names. -/
theorem filterMap_read {α γ : Type} {f : α → Option γ} {g : γ → α} {l : List α}
    (h : ∀ x ∈ l, ∃ y, f x = some y ∧ g y = x) : (l.filterMap f).map g = l := by
  rw [List.map_filterMap]
  refine Eq.trans ?_ List.filterMap_some
  refine List.filterMap_congr fun x hx => ?_
  obtain ⟨y, hy, rfl⟩ := h x hx
  rw [hy]
  rfl

/-- The manifests of a date, the last file name first. -/
def manifestsOn (C : Codec D β) (lake : Lake LakeName β) (q : RecentQuery) (date : String) :
    List RawPartManifest :=
  (namesOn lake q date).filterMap fun n => (manifestAt C lake n).toOption

/-- All manifests of the stream. -/
def recentOrder (C : Codec D β) (lake : Lake LakeName β) (q : RecentQuery) : List RawPartManifest :=
  (datesOf lake q).flatMap (manifestsOn C lake q)

variable {n : RawPartName}

theorem mem_namesOn :
    n ∈ namesOn lake q date ↔ n ∈ manifestNames lake q.selection ∧ n.utcDate = date := by
  unfold namesOn
  rw [mem_sorted, List.mem_filter, decide_eq_true_iff]

theorem mem_datesOf :
    date ∈ datesOf lake q ↔ ∃ n ∈ manifestNames lake q.selection, n.utcDate = date := by
  unfold datesOf
  rw [mem_sorted, List.mem_dedup, List.mem_map]

/-- A name of a manifest is the one that it has. -/
theorem listed_of_name (hlake : RawLake C (lakeView C lake)) {s : Selection}
    (hn : n ∈ manifestNames lake s) : ∃ m, manifestAt C lake n = .ok m ∧ Listed C lake m ∧
      m.partPath = n := by
  obtain ⟨⟨text, htext⟩, -⟩ := mem_manifestNames.mp hn
  have hthere : (lakeView C lake (.raw n)).2 ≠ none := by
    simp [lakeView, view, htext]
  obtain ⟨_, key, rows, ⟨⟩, hpart⟩ := hlake _ hthere
  obtain ⟨m, hlisted, rfl, -⟩ := hpart.listed
  exact ⟨m, hlisted.manifestAt, hlisted, rfl⟩

theorem map_manifestsOn (hlake : RawLake C (lakeView C lake)) (date : String) :
    (manifestsOn C lake q date).map (·.partPath) = namesOn lake q date := by
  refine filterMap_read fun n hn => ?_
  obtain ⟨m, hread, -, hpath⟩ := listed_of_name hlake (mem_namesOn.mp hn).1
  exact ⟨m, by rw [hread]; rfl, hpath⟩

theorem selection_matches {exchange marketType channel symbol date : String} :
    q.selection.matches exchange marketType channel symbol date = true ↔
      (⟨exchange, marketType, channel, symbol, date⟩ : RawKey) = q.key date := by
  simp only [RecentQuery.selection, Selection.matches, Selection.has, Bool.and_eq_true,
    decide_eq_true_eq, RecentQuery.key, RawKey.mk.injEq, and_true, and_assoc]
  constructor
  · rintro ⟨rfl, rfl, rfl, rfl⟩
    exact ⟨rfl, rfl, rfl, rfl⟩
  · rintro ⟨rfl, rfl, rfl, rfl⟩
    exact ⟨rfl, rfl, rfl, rfl⟩

theorem mem_manifestsOn (hlake : RawLake C (lakeView C lake)) :
    m ∈ manifestsOn C lake q date ↔ Listed C lake m ∧ m.key = q.key date := by
  constructor
  · intro hm
    obtain ⟨n, hn, hread⟩ := List.mem_filterMap.mp hm
    obtain ⟨hn, hdate⟩ := mem_namesOn.mp hn
    obtain ⟨m', hread', hlisted, rfl⟩ := listed_of_name hlake hn
    rw [hread'] at hread
    cases hread
    have hname := hlisted.name hlake
    refine ⟨hlisted, ?_⟩
    rw [← hname, ← hdate]
    exact selection_matches.mp (mem_manifestNames.mp hn).2
  · rintro ⟨hlisted, hkey⟩
    have hname := hlisted.name hlake
    rw [hkey] at hname
    refine List.mem_filterMap.mpr ⟨m.partPath, mem_namesOn.mpr ⟨mem_manifestNames.mpr ⟨?_, ?_⟩, ?_⟩, ?_⟩
    · obtain ⟨text, htext, -⟩ := hlisted
      exact ⟨text, htext⟩
    · have hdate : m.partPath.utcDate = date := congrArg RawKey.utcDate hname
      rw [hdate] at hname ⊢
      exact selection_matches.mpr hname
    · exact congrArg RawKey.utcDate hname
    · rw [hlisted.manifestAt]
      rfl

theorem validate_date (hlake : RawLake C (lakeView C lake))
    (h : date ∈ datesOf lake q) : validateComponent .rawStore "raw" date = .ok () := by
  obtain ⟨n, hn, hdate⟩ := mem_datesOf.mp h
  obtain ⟨m, -, hlisted, rfl⟩ := listed_of_name hlake hn
  obtain ⟨rows, hpart, -⟩ := hlake.listed hlisted
  have hsafe : forM ([m.exchange, m.marketType, m.channel, m.symbol] ++ [m.utcDate])
      (validateComponent .rawStore "raw") = .ok () := hpart.safe
  have hname : m.partPath.utcDate = m.utcDate := congrArg RawKey.utcDate (hlisted.name hlake)
  rw [List.forM_append] at hsafe
  obtain ⟨_, -, hlast⟩ := bind_eq_ok.mp hsafe
  rw [List.forM_cons] at hlast
  obtain ⟨⟨⟩, hlast, -⟩ := bind_eq_ok.mp hlast
  rwa [← hdate, hname]

/-- **All dates.** -/
theorem scanDates_scanned (hlake : RawLake C (lakeView C lake)) : ∀ {dates : List String}
    {s : RecentScan} {seen : List RawPartManifest}, dates ⊆ datesOf lake q →
    Scanned q.maximumRows seen s → ∃ s', dates.foldlM (fun s date => do
        validateComponent .rawStore "raw" date
        scanDate C lake q date s (namesOn lake q date)) s = .ok s' ∧
      Scanned q.maximumRows
        (seen ++ (dates.flatMap (manifestsOn C lake q)).filter q.eligible) s'
  | [], s, seen, _, hs => ⟨s, rfl, by rwa [List.flatMap_nil, List.filter_nil, List.append_nil]⟩
  | date :: rest, s, seen, hdates, hs => by
    obtain ⟨hdate, hrest⟩ := List.cons_subset.mp hdates
    have hms : ∀ m ∈ manifestsOn C lake q date,
        manifestAt C lake m.partPath = .ok m ∧ m.key = q.key date := by
      intro m hm
      obtain ⟨hlisted, hkey⟩ := (mem_manifestsOn hlake).mp hm
      exact ⟨hlisted.manifestAt, hkey⟩
    obtain ⟨middle, hmiddle, hscanned⟩ := scanDate_scanned hms hs
    rw [map_manifestsOn hlake] at hmiddle
    obtain ⟨s', hs', hscanned'⟩ := scanDates_scanned hlake hrest hscanned
    refine ⟨s', ?_, ?_⟩
    · rw [List.foldlM_cons]
      exact bind_eq_ok.mpr ⟨middle, bind_eq_ok.mpr ⟨(), validate_date hlake hdate, hmiddle⟩, hs'⟩
    · rw [List.flatMap_cons, List.filter_append, ← List.append_assoc]
      exact hscanned'

variable {ms : List RawPartManifest}

/-- The manifests of a stream are found in another order. -/
theorem recentOrder_perm (hlake : RawLake C (lakeView C lake))
    (hms : discoverManifests C lake q.selection = .ok ms) : (recentOrder C lake q).Perm ms := by
  obtain ⟨hnodup, hmem⟩ := mem_discovered hlake hms
  have hsorted : ∀ {α : Type} {le : α → α → Bool} {l : List α}, l.Nodup → (sorted le l).Nodup :=
    fun h => (List.perm_insertionSort _ _).nodup_iff.mpr h
  refine (List.perm_ext_iff_of_nodup ?_ hnodup).mpr fun m => ?_
  · refine List.nodup_flatMap.mpr ⟨fun date _ => ?_, ?_⟩
    · refine List.Nodup.of_map (·.partPath) ?_
      rw [map_manifestsOn hlake]
      exact hsorted (nodup_manifestNames.filter _)
    · refine List.Pairwise.imp (fun {a b} hne m ha hb => hne ?_) (hsorted (List.nodup_dedup _))
      have hkey := ((mem_manifestsOn hlake).mp ha).2.symm.trans ((mem_manifestsOn hlake).mp hb).2
      exact congrArg RawKey.utcDate hkey
  · rw [hmem, selection_matches]
    unfold recentOrder
    rw [List.mem_flatMap]
    constructor
    · rintro ⟨date, -, hm⟩
      obtain ⟨hlisted, hkey⟩ := (mem_manifestsOn hlake).mp hm
      have hdate : m.utcDate = date := congrArg RawKey.utcDate hkey
      rw [hdate]
      exact ⟨hlisted, hdate ▸ hkey⟩
    · rintro ⟨hlisted, hkey⟩
      have hm := (mem_manifestsOn hlake).mpr ⟨hlisted, hkey⟩
      refine ⟨m.utcDate, mem_datesOf.mpr ?_, hm⟩
      have hname : m.partPath ∈ namesOn lake q m.utcDate := by
        rw [← map_manifestsOn hlake]
        exact List.mem_map_of_mem hm
      obtain ⟨hname, hdate⟩ := mem_namesOn.mp hname
      exact ⟨m.partPath, hname, hdate⟩

/-- `b` comes after `a`: it is of an earlier date, or has no later name on its date. -/
def ComesAfter (a b : RawPartManifest) : Prop :=
  b.utcDate < a.utcDate ∨
    b.utcDate = a.utcDate ∧ b.partPath.manifestFile ≤ a.partPath.manifestFile

theorem recentOrder_pairwise (hlake : RawLake C (lakeView C lake)) :
    (recentOrder C lake q).Pairwise ComesAfter := by
  have hdate : ∀ {date : String} {m : RawPartManifest}, m ∈ manifestsOn C lake q date →
      m.utcDate = date :=
    fun hm => congrArg RawKey.utcDate ((mem_manifestsOn hlake).mp hm).2
  refine List.pairwise_flatMap.mpr ⟨fun date _ => ?_, ?_⟩
  · have hnames : (namesOn lake q date).Pairwise fun a b => b.manifestFile ≤ a.manifestFile :=
      (pairwise_sorted _ (fun a b => by simpa using le_total b.manifestFile a.manifestFile)
        (fun a b c => by simpa using fun hab hbc => hbc.trans hab) _).imp of_decide_eq_true
    rw [← map_manifestsOn hlake, List.pairwise_map] at hnames
    exact hnames.imp_of_mem fun ha hb hle => .inr ⟨(hdate hb).trans (hdate ha).symm, hle⟩
  · have hdates : (datesOf lake q).Pairwise fun a b => b ≤ a :=
      (pairwise_sorted _ (fun a b => by simpa using le_total b a)
        (fun a b c => by simpa using fun hab hbc => hbc.trans hab) _).imp of_decide_eq_true
    have hnodup : (datesOf lake q).Nodup :=
      (List.perm_insertionSort _ _).nodup_iff.mpr (List.nodup_dedup _)
    refine (hdates.and hnodup).imp fun ⟨hle, hne⟩ a ha b hb => .inl ?_
    rw [hdate ha, hdate hb]
    exact lt_of_le_of_ne hle hne.symm

/-! ## What parts hold -/

/-- What a manifest says of the events of its part. -/
structure Describes (m : RawPartManifest) (rows : List (RawMarketEvent D)) : Prop where
  nonempty : rows ≠ []
  counted : m.rowCount = rows.length
  named : m.partPath.minReceiveTsNs = m.minReceiveTsNs
  positive : 0 ≤ m.minReceiveTsNs
  from_min : ∀ e ∈ rows, m.minReceiveTsNs ≤ e.receiveTsNs
  to_max : ∀ e ∈ rows, e.receiveTsNs ≤ m.maxReceiveTsNs
  last : ∃ e ∈ rows, e.receiveTsNs = m.maxReceiveTsNs
  dated : ∀ e ∈ rows, receiveDate e.receiveTsNs = .ok m.utcDate

theorem Listed.describes (hlake : RawLake C (lakeView C lake)) (h : Listed C lake m) :
    ∃ rows, openPart C lake m = ⟨rows, none⟩ ∧ Describes m rows := by
  obtain ⟨rows, hpart, hmin, hopen⟩ := openPart_listed hlake h
  obtain ⟨sha, -, hname, -, hentry⟩ := hpart.entry
  obtain ⟨text, htext, hfrom⟩ := h
  have hmanifest := (Prod.mk.inj hentry).2
  simp only [htext, Option.map_some, lakeFormat, hfrom, Except.map, Option.some.injEq,
    Except.ok.injEq, LakeManifest.raw.injEq, rawPart] at hmanifest
  have hmax : m.maxReceiveTsNs = (rows.getLast?.map (·.receiveTsNs)).getD 0 :=
    congrArg RawPartManifest.maxReceiveTsNs hmanifest
  have hordered : rows.Pairwise fun a b => a.receiveTsNs ≤ b.receiveTsNs :=
    hpart.ordered.imp fun {a b} hle => by
      simp only [rawLe, decide_eq_true_eq] at hle
      omega
  obtain ⟨before, last, hlast⟩ := List.eq_nil_or_concat' rows |>.resolve_left hpart.nonempty
  have hmaxlast : m.maxReceiveTsNs = last.receiveTsNs := by
    rw [hlast, List.getLast?_concat] at hmax
    exact hmax
  refine ⟨rows, hopen, hpart.nonempty, congrArg RawPartManifest.rowCount hmanifest, ?_, ?_, ?_, ?_,
    ?_, ?_⟩
  · exact (congrArg RawPartName.minReceiveTsNs (LakeName.raw.inj hname)).symm.trans hmin.symm
  · rw [hmin]
    cases rows with
    | nil => exact le_rfl
    | cons first rest => exact first.received.le
  · intro e he
    cases rows with
    | nil => cases he
    | cons first rest =>
      rw [hmin]
      rcases List.mem_cons.mp he with rfl | he
      · exact le_rfl
      · exact (List.pairwise_cons.mp hordered).1 e he
  · intro e he
    rw [hmaxlast]
    rw [hlast] at he hordered
    rcases List.mem_append.mp he with he | he
    · exact (List.pairwise_append.mp hordered).2.2 e he last List.mem_cons_self
    · rw [List.mem_singleton.mp he]
  · refine ⟨last, ?_, hmaxlast.symm⟩
    rw [hlast]
    exact List.mem_append_right _ List.mem_cons_self
  · intro e he
    obtain ⟨date, hdate, hkey⟩ := bind_eq_ok.mp (hpart.keyed e he)
    rw [hdate]
    exact congrArg Except.ok (congrArg RawKey.utcDate (congrArg Prod.fst (Except.ok.inj hkey)))

/-- An event of a later date is a later event. -/
theorem lt_of_date_lt {a b : RawMarketEvent D} {date date' : String}
    (ha : receiveDate a.receiveTsNs = .ok date) (hb : receiveDate b.receiveTsNs = .ok date')
    (h : date < date') : a.receiveTsNs < b.receiveTsNs := by
  have hdate : ∀ {ts : ℤ} {date : String}, receiveDate ts = .ok date →
      date = dateIsoformat (ts / 1000000000 / 86400) ∧
        (dateOfDays (ts / 1000000000 / 86400)).year ≤ 9999 := by
    intro ts date h
    unfold receiveDate at h
    dsimp only at h
    split at h
    · next hyear => exact ⟨(Except.ok.inj h).symm, hyear⟩
    · cases h
  obtain ⟨rfl, hyear⟩ := hdate ha
  obtain ⟨rfl, -⟩ := hdate hb
  by_contra hle
  rcases Int.lt_or_eq_of_le (show b.receiveTsNs / 1000000000 / 86400 ≤
    a.receiveTsNs / 1000000000 / 86400 by omega) with hlt | heq
  · have hpositive := b.received
    have hyear' : 0 ≤ (dateOfDays (b.receiveTsNs / 1000000000 / 86400)).year :=
      zero_le_year (by omega)
    exact absurd (dateIsoformat_lt hyear' hyear hlt) (not_lt.mpr h.le)
  · rw [heq] at h
    exact absurd h (lt_irrefl _)

/-- File names of as many digits are in the order of the first receive times. -/
theorem min_le_of_file {n n' : RawPartName} (hn : 0 ≤ n.minReceiveTsNs)
    (hdigits : (toString n.minReceiveTsNs).length = (toString n'.minReceiveTsNs).length)
    (h : n'.manifestFile ≤ n.manifestFile) : n'.minReceiveTsNs ≤ n.minReceiveTsNs := by
  by_contra hlt
  exact absurd h (not_le.mpr (toString_append_lt hn hdigits (not_le.mp hlt) _ _ _))

/-! ## The newest events -/

/-- The part lies at or before the bound as a whole. -/
def wholly (C : Codec D β) (lake : Lake LakeName β) (bound : ℤ) (m : RawPartManifest) : Bool :=
  (openPart C lake m).rows.all fun e => e.receiveTsNs ≤ bound

/-- Of `events`, the `n` newest ones are `selected`, as is every event with fewer newer ones. -/
def CoversNewest (n : ℤ) (events selected : List (RawMarketEvent D)) : Prop :=
  ∀ e ∈ events, (events.countP fun e' => e.receiveTsNs < e'.receiveTsNs : ℤ) < n → e ∈ selected

/-- Two parts of a date do not overlap, and their first receive times have as many digits. -/
def Separate (ms : List RawPartManifest) : Prop :=
  ∀ m ∈ ms, ∀ m' ∈ ms, m ≠ m' → m.utcDate = m'.utcDate →
    (toString m.minReceiveTsNs).length = (toString m'.minReceiveTsNs).length ∧
      (m.maxReceiveTsNs < m'.minReceiveTsNs ∨ m'.maxReceiveTsNs < m.minReceiveTsNs)

/-- What is selected of the manifests of a stream. -/
structure IsRecentSelection (C : Codec D β) (lake : Lake LakeName β) (q : RecentQuery)
    (ms : List RawPartManifest) (selection : RecentRawManifestSelection) : Prop where
  wholly : ∀ m ∈ selection.manifests, m ∈ ms ∧ wholly C lake q.maximumReceiveTsNs m = true
  dates : ∀ date, date ∈ selection.eligibleUtcDates ↔
    ∃ m ∈ ms, Data.wholly C lake q.maximumReceiveTsNs m = true ∧ m.utcDate = date
  /-- What is left comes after what is selected, and then there are enough rows. -/
  left : ∀ m ∈ ms, Data.wholly C lake q.maximumReceiveTsNs m = true → m ∉ selection.manifests →
    (∀ m' ∈ selection.manifests, ComesAfter m' m) ∧
      q.maximumRows ≤ (rowsOf C lake selection.manifests).length
  newest : Separate (ms.filter (Data.wholly C lake q.maximumReceiveTsNs)) →
    CoversNewest q.maximumRows (rowsOf C lake (ms.filter (Data.wholly C lake q.maximumReceiveTsNs)))
      (rowsOf C lake selection.manifests)

theorem eligible_eq_wholly (hlake : RawLake C (lakeView C lake)) (h : Listed C lake m) :
    q.eligible m = wholly C lake q.maximumReceiveTsNs m := by
  obtain ⟨rows, hopen, hdescribes⟩ := h.describes hlake
  unfold wholly
  rw [hopen, Bool.eq_iff_iff, List.all_eq_true]
  unfold RecentQuery.eligible
  rw [decide_eq_true_iff]
  constructor
  · exact fun hle e he => decide_eq_true ((hdescribes.to_max e he).trans hle)
  · intro hall
    obtain ⟨e, he, hlast⟩ := hdescribes.last
    rw [← hlast]
    exact of_decide_eq_true (hall e he)

theorem length_rowsOf (hlake : RawLake C (lakeView C lake)) : ∀ {ms : List RawPartManifest},
    (∀ m ∈ ms, Listed C lake m) → (rowsOf C lake ms).length = (ms.map (·.rowCount)).sum
  | [], _ => rfl
  | m :: rest, h => by
    obtain ⟨hm, hrest⟩ := List.forall_mem_cons.mp h
    obtain ⟨rows, hopen, hdescribes⟩ := hm.describes hlake
    have ih := length_rowsOf hlake hrest
    unfold rowsOf at ih ⊢
    rw [List.flatMap_cons, List.length_append, ih, hopen, List.map_cons, List.sum_cons,
      hdescribes.counted]

/-- Of parts that do not overlap, what comes before is newer. -/
theorem newer_of_comesAfter (hlake : RawLake C (lakeView C lake))
    {m' : RawPartManifest} (hseparate : Separate ms) (hm : m ∈ ms) (hm' : m' ∈ ms)
    (hlisted : Listed C lake m) (hlisted' : Listed C lake m') (hne : m' ≠ m)
    (h : ComesAfter m' m) {e e' : RawMarketEvent D} (he : e ∈ (openPart C lake m).rows)
    (he' : e' ∈ (openPart C lake m').rows) : e.receiveTsNs < e'.receiveTsNs := by
  obtain ⟨rows, hopen, hdescribes⟩ := hlisted.describes hlake
  obtain ⟨rows', hopen', hdescribes'⟩ := hlisted'.describes hlake
  rw [hopen] at he
  rw [hopen'] at he'
  rcases h with hdate | ⟨hdate, hfile⟩
  · exact lt_of_date_lt (hdescribes.dated e he) (hdescribes'.dated e' he') hdate
  · obtain ⟨hdigits, hapart⟩ := hseparate m' hm' m hm hne hdate.symm
    have hmin := hdescribes.from_min e he
    have hmax := hdescribes.to_max e he
    have hmin' := hdescribes'.from_min e' he'
    have hmax' := hdescribes'.to_max e' he'
    rw [← hdescribes.named, ← hdescribes'.named] at hdigits
    -- the file names say which of the two is first
    have hle : m.minReceiveTsNs ≤ m'.minReceiveTsNs := by
      rw [← hdescribes.named, ← hdescribes'.named]
      refine min_le_of_file ?_ hdigits hfile
      rw [hdescribes'.named]
      exact hdescribes'.positive
    omega

/-- Of parts that do not overlap, the first ones have the newest events. -/
theorem coversNewest_of_left (hlake : RawLake C (lakeView C lake)) {n : ℤ}
    {ms selected rest : List RawPartManifest} (hlisted : ∀ m ∈ ms, Listed C lake m)
    (hperm : (selected ++ rest).Perm ms) (hseparate : Separate ms)
    (hleft : ∀ m ∈ ms, m ∉ selected →
      (∀ m' ∈ selected, ComesAfter m' m) ∧ n ≤ (rowsOf C lake selected).length) :
    CoversNewest n (rowsOf C lake ms) (rowsOf C lake selected) := by
  intro e he hfew
  obtain ⟨m, hm, hem⟩ := List.mem_flatMap.mp he
  by_cases hin : m ∈ selected
  · exact List.mem_flatMap.mpr ⟨m, hin, hem⟩
  · obtain ⟨hafter, henough⟩ := hleft m hm hin
    exfalso
    have hnewer : ∀ e' ∈ rowsOf C lake selected, e.receiveTsNs < e'.receiveTsNs := by
      intro e' he'
      obtain ⟨m', hm', hem'⟩ := List.mem_flatMap.mp he'
      have hmem := hperm.mem_iff.mp (List.mem_append_left rest hm')
      refine newer_of_comesAfter hlake hseparate hm hmem (hlisted m hm) (hlisted m' hmem) ?_
        (hafter m' hm') hem hem'
      rintro rfl
      exact hin hm'
    have hall : (rowsOf C lake selected ++ rowsOf C lake rest).Perm (rowsOf C lake ms) := by
      have h : (rowsOf C lake (selected ++ rest)).Perm (rowsOf C lake ms) := hperm.flatMap_right _
      rwa [rowsOf, List.flatMap_append] at h
    have hcount : (rowsOf C lake selected).length ≤
        (rowsOf C lake ms).countP fun e' => e.receiveTsNs < e'.receiveTsNs := by
      rw [← hall.countP_eq, List.countP_append]
      refine Nat.le_add_right_of_le (le_of_eq (List.countP_eq_length.mpr ?_).symm)
      exact fun e' he' => decide_eq_true (hnewer e' he')
    omega

section Sample

/-- The newest events up to the bound are selected, and the dates are theirs. -/
def SelectsNewest (C : Codec D β) (lake : Lake LakeName β) (q : RecentQuery) : Prop :=
  ∀ ms selection, discoverManifests C lake q.selection = .ok ms →
    discoverRecentManifests C lake q = .ok selection →
      CoversNewest q.maximumRows
        ((rowsOf C lake ms).filter fun e => e.receiveTsNs ≤ q.maximumReceiveTsNs)
        (rowsOf C lake selection.manifests) ∧
      ∀ date, date ∈ selection.eligibleUtcDates ↔ ∃ m ∈ ms, m.utcDate = date ∧
        ∃ e ∈ (openPart C lake m).rows, e.receiveTsNs ≤ q.maximumReceiveTsNs

def recentEvent (eventId : String) (ts : ℕ) : RawMarketEvent (digestOf []) :=
  sampleRaw "c" eventId (ts + 1) (ts + 1) sampleConnection_ne (Int.succ_ofNat_pos ts)
    (Int.succ_ofNat_pos ts)

/-- Batches that are written one after the other. -/
def writeBatches (batches : List (List (RawMarketEvent (digestOf [])))) :
    RawRoots (SamplePiece (digestOf [])) :=
  batches.foldl (fun s events => { s with source := (stoppedAt (lakeFormat sampleLakeCodec "data")
    sampleLakeAnswers (writeRaw sampleLakeCodec "data" events) s.source 20).1 }) .empty

theorem writeBatches_reachable (batches : List (List (RawMarketEvent (digestOf [])))) :
    RawReachable sampleLakeCodec "data" (writeBatches batches) := by
  induction batches using List.reverseRecOn with
  | nil => exact .refl
  | append_singleton before events ih =>
    unfold writeBatches at ih ⊢
    rw [List.foldl_append]
    exact ih.tail (.write sampleLakeAnswers events 20 _)

def recentQuery (maximumReceiveTsNs maximumRows : ℤ) : RecentQuery :=
  ⟨"bybit", "linear", "trades", "BTCUSDT", maximumReceiveTsNs, maximumRows⟩

/-- A part from 10 to 99. -/
def widePart : List (RawMarketEvent (digestOf [])) := [recentEvent "a" 9, recentEvent "b" 98]

def coversIds (n : ℤ) (events selected : List (RawMarketEvent (digestOf []))) : Bool :=
  events.all fun e => n ≤ (events.countP fun e' => e.receiveTsNs < e'.receiveTsNs : ℤ) ||
    (selected.map (·.eventId)).contains e.eventId

theorem coversIds_of_coversNewest {n : ℤ} {events selected : List (RawMarketEvent (digestOf []))}
    (h : CoversNewest n events selected) : coversIds n events selected = true := by
  refine List.all_eq_true.mpr fun e he => ?_
  rw [Bool.or_eq_true]
  rcases lt_or_ge ((events.countP fun e' => e.receiveTsNs < e'.receiveTsNs : ℕ) : ℤ) n with hlt | hle
  · exact .inr (List.contains_iff_mem.mpr (List.mem_map_of_mem (h e he hlt)))
  · exact .inl (decide_eq_true hle)

/-- Whether the ids of the newest events are selected. -/
def selectsIds (s : RawRoots (SamplePiece (digestOf []))) (q : RecentQuery) : Bool :=
  match discoverManifests sampleLakeCodec s.source q.selection,
    discoverRecentManifests sampleLakeCodec s.source q with
  | .ok ms, .ok selection => coversIds q.maximumRows
      ((rowsOf sampleLakeCodec s.source ms).filter fun e => e.receiveTsNs ≤ q.maximumReceiveTsNs)
      (rowsOf sampleLakeCodec s.source selection.manifests)
  | _, _ => true

theorem selectsIds_of_selectsNewest {s : RawRoots (SamplePiece (digestOf []))} {q : RecentQuery}
    (h : SelectsNewest sampleLakeCodec s.source q) : selectsIds s q = true := by
  unfold selectsIds
  split
  · next ms selection hms hselection => exact coversIds_of_coversNewest (h ms selection hms hselection).1
  · rfl

/-- The event at 10 is not selected when its part goes beyond the bound, and the event at 99 is not
when the part of the event at 50 starts later. -/
theorem straddling_and_overlapping :
    ¬ (∀ s, RawReachable sampleLakeCodec "data" s →
        SelectsNewest sampleLakeCodec s.source (recentQuery 50 1)) ∧
      ¬ ∀ s, RawReachable sampleLakeCodec "data" s →
        SelectsNewest sampleLakeCodec s.source (recentQuery 99 1) := by
  have hruns : selectsIds (writeBatches [widePart]) (recentQuery 50 1) = false ∧
      selectsIds (writeBatches [widePart, [recentEvent "c" 49]]) (recentQuery 99 1) = false := by
    decide +kernel
  refine ⟨fun h => ?_, fun h => ?_⟩
  · have hall := selectsIds_of_selectsNewest (h _ (writeBatches_reachable [widePart]))
    rw [hruns.1] at hall
    cases hall
  · have hall := selectsIds_of_selectsNewest
      (h _ (writeBatches_reachable [widePart, [recentEvent "c" 49]]))
    rw [hruns.2] at hall
    cases hall

end Sample

/-- **Recent manifests** are the eligible ones from the last on, until there are enough rows. -/
theorem discoverRecentManifests_newest (hlake : RawLake C (lakeView C lake)) (q : RecentQuery)
    (hbounds : 0 ≤ q.maximumReceiveTsNs ∧ 1 ≤ q.maximumRows) {ms : List RawPartManifest}
    (hms : discoverManifests C lake q.selection = .ok ms) :
    ∃ selection, discoverRecentManifests C lake q = .ok selection ∧
      IsRecentSelection C lake q ms selection := by
  obtain ⟨_, hsafe, -⟩ := bind_eq_ok.mp hms
  obtain ⟨s, hs, hscanned⟩ := scanDates_scanned (q := q) hlake (List.Subset.refl _)
    (Scanned.initial q.maximumRows)
  rw [List.nil_append] at hscanned
  change Scanned q.maximumRows ((recentOrder C lake q).filter q.eligible) s at hscanned
  have hperm := recentOrder_perm hlake hms
  have hlisted : ∀ m ∈ ms, Listed C lake m := fun m hm => (((mem_discovered hlake hms).2 m).mp hm).1
  have hmem : ∀ m, m ∈ (recentOrder C lake q).filter q.eligible ↔
      m ∈ ms ∧ wholly C lake q.maximumReceiveTsNs m = true := by
    intro m
    rw [List.mem_filter, hperm.mem_iff]
    exact and_congr_right fun hm => by rw [eligible_eq_wholly hlake (hlisted m hm)]
  have hfilter : ((recentOrder C lake q).filter q.eligible).Perm
      (ms.filter (wholly C lake q.maximumReceiveTsNs)) := by
    refine (hperm.filter _).trans (List.Perm.of_eq (List.filter_congr fun m hm => ?_))
    exact eligible_eq_wholly hlake (hlisted m hm)
  have hpairwise := (recentOrder_pairwise (q := q) hlake).filter q.eligible
  obtain ⟨rest, hrest⟩ := hscanned.selected
  have hselected : ∀ m ∈ s.selected, m ∈ ms ∧ wholly C lake q.maximumReceiveTsNs m = true :=
    fun m hm => (hmem m).mp (hscanned.selected.subset hm)
  have hrows : (rowsOf C lake s.selected).length = s.selectedRows := by
    rw [hscanned.rows]
    exact length_rowsOf hlake fun m hm => hlisted m (hselected m hm).1
  -- what is left is in the rest, and then the rows are enough
  have hleft : ∀ m ∈ ms, wholly C lake q.maximumReceiveTsNs m = true → m ∉ s.selected →
      (∀ m' ∈ s.selected, ComesAfter m' m) ∧
        q.maximumRows ≤ (rowsOf C lake s.selected).length := by
    intro m hm hwholly hnot
    have hin := (hmem m).mpr ⟨hm, hwholly⟩
    rw [← hrest] at hin hpairwise
    refine ⟨fun m' hm' => (List.pairwise_append.mp hpairwise).2.2 m' hm' m
      ((List.mem_append.mp hin).resolve_left hnot), ?_⟩
    rw [hrows]
    refine hscanned.enough.resolve_left fun hall => hnot ?_
    rw [hall, ← hrest]
    exact hin
  refine ⟨⟨s.selected, s.eligibleDates⟩, ?_, hselected, ?_, hleft, ?_⟩
  · exact bind_eq_ok.mpr ⟨(), hsafe, bind_eq_ok.mpr
      ⟨(), lakeCheck_eq_ok.mpr (decide_eq_true hbounds), bind_eq_ok.mpr ⟨s, hs, rfl⟩⟩⟩
  · intro date
    rw [hscanned.dates]
    simp only [hmem, and_assoc]
  · intro hseparate
    have hsplit : (s.selected ++ rest).Perm
        (ms.filter (wholly C lake q.maximumReceiveTsNs)) := hrest ▸ hfilter
    refine coversNewest_of_left hlake ?_ hsplit hseparate ?_
    · exact fun m hm => hlisted m (List.mem_of_mem_filter hm)
    · intro m hm
      obtain ⟨hmms, hwholly⟩ := List.mem_filter.mp hm
      exact hleft m hmms hwholly

/-- Two parts of one event. -/
theorem discoverRecentManifests_newest_sample : ∃ ms selection,
    discoverManifests sampleLakeCodec
      (writeBatches [[recentEvent "a" 9], [recentEvent "c" 49]]).source
      (recentQuery 99 1).selection = .ok ms ∧
    discoverRecentManifests sampleLakeCodec
      (writeBatches [[recentEvent "a" 9], [recentEvent "c" 49]]).source (recentQuery 99 1) =
        .ok selection ∧
    IsRecentSelection sampleLakeCodec
      (writeBatches [[recentEvent "a" 9], [recentEvent "c" 49]]).source (recentQuery 99 1) ms
        selection := by
  have hlake := (writeBatches_reachable [[recentEvent "a" 9], [recentEvent "c" 49]]).sound.source
  have hsafe : (recentQuery 99 1).components.forM (validateComponent .rawStore "raw") = .ok () := by
    decide +kernel
  obtain ⟨ms, hms, -⟩ := discoverManifests_spec (s := (recentQuery 99 1).selection) hlake hsafe
  obtain ⟨selection, hselection, hrecent⟩ :=
    discoverRecentManifests_newest hlake (recentQuery 99 1) (by decide) hms
  exact ⟨ms, selection, hms, hselection, hrecent⟩

end Greenfield.Data
