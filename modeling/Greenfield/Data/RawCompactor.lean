import Greenfield.Data.RawReader
import Mathlib.Data.List.Pairwise
import Mathlib.Logic.Relation

/-!
# Compaction of raw parts

`compact_raw_partition` of `src/data/raw_compactor.py` writes the events of a partition as one part
of a second lake, `raw_compacted`. A run verifies the part that it writes, and leaves the parts of
the runs before it: the mirror is the source as long as those hold the same events
(`compacted_mirrors`).
-/

namespace Greenfield.Data

open Effects Parts Py

variable {D : Digests} {β : Type} (C : Codec D β)

/-! ## `compact_raw_partition` -/

structure RawCompactionReport where
  schemaVersion : ℤ
  exchange : String
  marketType : String
  channel : String
  symbol : String
  utcDate : String
  sourcePartCount : ℕ
  sourceRowCount : ℕ
  sourceEventsSha256 : String
  sourceParts : List String
  compactedRoot : String
  compactedParts : List String
  compactedRowCount : ℕ
  compactedEventsSha256 : String
  createdAt : String

/-- What is below `data_dir`. -/
structure RawRoots (β : Type) where
  source : Lake LakeName β
  /-- The lake in `raw_compacted`. -/
  compacted : Lake LakeName β
  /-- The files in `raw_compacted/reports`. -/
  reports : RawKey → Option RawCompactionReport

/-- What a run has read of the source. -/
structure SourceRead (D : Digests) where
  manifests : List RawPartManifest
  checksums : List (RawPartName × String)
  events : List (RawMarketEvent D)

def duplicateEvent (eventId : String) : LakeError :=
  .rawStore ("duplicate source event during compaction: " ++ eventId)

/-- An event of a source part; `seen_ids` are the ids of the events before. -/
def addEvent (events : List (RawMarketEvent D)) (event : RawMarketEvent D) :
    Except LakeError (List (RawMarketEvent D)) :=
  if event.eventId ∈ events.map (·.eventId) then .error (duplicateEvent event.eventId)
  else .ok (events ++ [event])

def fileChecksum (lake : Lake LakeName β) (part : RawPartName) : String :=
  C.fileSha256 ((lake.read (.part (.raw part))).getD [])

def readSourcePart (source : Lake LakeName β)
    (read : List (RawPartName × String) × List (RawMarketEvent D)) (manifest : RawPartManifest) :
    Except LakeError (List (RawPartName × String) × List (RawMarketEvent D)) := do
  let rows ← readVerifiedPart C source manifest
  let events ← rows.foldlM addEvent read.2
  return (read.1 ++ [(manifest.partPath, fileChecksum C source manifest.partPath)], events)

def readSource (source : Lake LakeName β) (key : RawKey) : Except LakeError (SourceRead D) := do
  let discovered ← discoverManifests C source { key.selection with utcDate := none }
  let manifests := discovered.filter fun manifest => manifest.utcDate = key.utcDate
  lakeCheck (manifests ≠ []) (.rawStore "no source raw parts match the requested partition")
  let (checksums, events) ← manifests.foldlM (readSourcePart C source) ([], [])
  return { manifests, checksums, events := sorted rawLe events }

/-- The manifests of raw parts that were written. -/
def rawManifests (written : List LakeManifest) : List RawPartManifest :=
  written.filterMap fun
    | .raw m => some m
    | _ => none

/-- The events of the parts that were written, and their checksum. -/
def checkCompacted (s : RawRoots β) (read : SourceRead D) (sourceEventsSha256 : String)
    (written : List RawPartManifest) : Except LakeError (List (RawMarketEvent D) × String) := do
  let parts ← written.mapM (readVerifiedPart C s.compacted)
  let events := sorted rawLe parts.flatten
  let eventsSha256 ← asciiSha256 D (events.map (·.eventId))
  lakeCheck (sourceEventsSha256 = eventsSha256 ∧ read.events.length = events.length)
    (.rawStore "compacted output is not event-identical to its source")
  read.checksums.forM fun (part, checksum) =>
    lakeCheck ((s.source.read (.part (.raw part))).map C.fileSha256 = some checksum)
      (.rawStore ("source part changed during compaction: " ++ part.path))
  return (events, eventsSha256)

def compactedRoot (dataDir : String) : String := dataDir ++ "/raw_compacted"

/-- The events of the source, before anything is written. -/
def startCompaction (source : Lake LakeName β) (key : RawKey) :
    Except LakeError (SourceRead D × String) := do
  let read ← readSource C source key
  let sourceEventsSha256 ← asciiSha256 D (read.events.map (·.eventId))
  return (read, sourceEventsSha256)

/-- The write of the events to the mirror. -/
def writeCompacted (dataDir : String) (answers : (q : Parts.Query LakeName) → Parts.Answer q)
    (compacted : Lake LakeName β) (events : List (RawMarketEvent D)) :
    Except LakeError (List LakeManifest) × Lake LakeName β × List (Files.Event (PartFile LakeName) β) :=
  (writeSteps (lakeFormat C (compactedRoot dataDir)) (writeRaw C (compactedRoot dataDir) events)).run
    (answer (lakeFormat C (compactedRoot dataDir)) answers) (compacted, [])

/-- `compact_raw_partition`; `createdAt` is the time of the report. -/
def compactRawPartition (dataDir : String) (answers : (q : Parts.Query LakeName) → Parts.Answer q)
    (createdAt : String) (s : RawRoots β) (key : RawKey) :
    Except LakeError RawCompactionReport × RawRoots β :=
  match startCompaction C s.source key with
  | .error e => (.error e, s)
  | .ok (read, sourceEventsSha256) =>
    match writeCompacted C dataDir answers s.compacted read.events with
    | (.error e, compacted, _) => (.error e, { s with compacted })
    | (.ok written, compacted, _) =>
      match checkCompacted C { s with compacted } read sourceEventsSha256 (rawManifests written) with
      | .error e => (.error e, { s with compacted })
      | .ok (events, eventsSha256) =>
        let report : RawCompactionReport :=
          { schemaVersion := 1, exchange := key.exchange, marketType := key.marketType
            channel := key.channel, symbol := key.symbol, utcDate := key.utcDate
            sourcePartCount := read.manifests.length, sourceRowCount := read.events.length
            sourceEventsSha256, sourceParts := read.manifests.map (·.partPath.path)
            compactedRoot := "raw_compacted"
            compactedParts := (rawManifests written).map (·.partPath.path)
            compactedRowCount := events.length, compactedEventsSha256 := eventsSha256, createdAt }
        (.ok report, { s with compacted, reports := Function.update s.reports key (some report) })

/-! ## Runs -/

/-- A call, of a writer of the source or of a compaction; both can be stopped while they write. -/
inductive RawMove (dataDir : String) : RawRoots β → RawRoots β → Prop where
  | write (answers : (q : Parts.Query LakeName) → Parts.Answer q) (events : List (RawMarketEvent D))
      (k : ℕ) (s : RawRoots β) : RawMove dataDir s
        { s with source := (stoppedAt (lakeFormat C dataDir) answers (writeRaw C dataDir events)
            s.source k).1 }
  | compact (answers : (q : Parts.Query LakeName) → Parts.Answer q) (createdAt : String)
      (key : RawKey) (s : RawRoots β) :
      RawMove dataDir s (compactRawPartition C dataDir answers createdAt s key).2
  | stop (answers : (q : Parts.Query LakeName) → Parts.Answer q) {key : RawKey} {s : RawRoots β}
      {read : SourceRead D} {sha : String} (h : startCompaction C s.source key = .ok (read, sha))
      (k : ℕ) : RawMove dataDir s
        { s with compacted := (stoppedAt (lakeFormat C (compactedRoot dataDir)) answers
            (writeRaw C (compactedRoot dataDir) read.events) s.compacted k).1 }

theorem noFiles_nodup : (([] : List (PartFile LakeName × List β)).map Prod.fst).Nodup :=
  List.nodup_nil

/-- Nothing is below `data_dir`. -/
def RawRoots.empty : RawRoots β := ⟨⟨[], noFiles_nodup⟩, ⟨[], noFiles_nodup⟩, fun _ => none⟩

/-- What calls, one after the other, can lead to. -/
def RawReachable (dataDir : String) (s : RawRoots β) : Prop :=
  Relation.ReflTransGen (RawMove C dataDir) .empty s

variable {C} {dataDir createdAt : String} {answers : (q : Parts.Query LakeName) → Parts.Answer q}
  {s s' : RawRoots β} {key : RawKey} {report : RawCompactionReport} {read : SourceRead D} {sha : String}

/-- Both lakes hold what `AtomicRawWriter` writes. -/
structure RawRoots.Sound (C : Codec D β) (s : RawRoots β) : Prop where
  source : RawLake C (lakeView C s.source)
  compacted : RawLake C (lakeView C s.compacted)

variable (C dataDir answers createdAt s key) in
/-- What a run leaves: nothing is done, or the write is, up to the end. -/
theorem compactRawPartition_leaves : (compactRawPartition C dataDir answers createdAt s key).2 = s ∨
    ∃ read sha, startCompaction C s.source key = .ok (read, sha) ∧ ∃ reports,
      (compactRawPartition C dataDir answers createdAt s key).2 =
        ⟨s.source, (writeCompacted C dataDir answers s.compacted read.events).2.1, reports⟩ := by
  unfold compactRawPartition
  split
  · exact .inl rfl
  · next read sha hstart =>
    refine .inr ⟨read, sha, hstart, ?_⟩
    split
    · next hwrite => exact ⟨_, by rw [hwrite]⟩
    · next hwrite =>
      split
      · exact ⟨_, by rw [hwrite]⟩
      · exact ⟨_, by rw [hwrite]⟩

variable (C dataDir answers createdAt s key) in
/-- **Compaction leaves the source**: its parts and its manifests. -/
theorem compactRawPartition_source :
    (compactRawPartition C dataDir answers createdAt s key).2.source = s.source := by
  rcases compactRawPartition_leaves C dataDir createdAt answers s key with h | ⟨_, _, -, reports, h⟩
  · rw [h]
  · rw [h]

variable (dataDir answers) in
theorem writeCompacted_rawLake {compacted : Lake LakeName β} (events : List (RawMarketEvent D))
    (h : RawLake C (lakeView C compacted)) :
    RawLake C (lakeView C (writeCompacted C dataDir answers compacted events).2.1) := by
  obtain ⟨k, hk⟩ := run_eq_stoppedAt (lakeFormat C (compactedRoot dataDir)) answers
    (writeRaw C (compactedRoot dataDir) events) compacted
  unfold writeCompacted
  rw [hk]
  exact h.stoppedAt k

/-- **A call** keeps both lakes sound and leaves the files of the source that are in place. -/
theorem RawMove.keeps (hmove : RawMove C dataDir s s') (hs : s.Sound C) :
    s'.Sound C ∧ InPlace s.source s'.source := by
  cases hmove with
  | write answers events k =>
    exact ⟨⟨hs.source.stoppedAt k, hs.compacted⟩, stoppedAt_inPlace _ _ _ _ k⟩
  | compact answers createdAt key =>
    rcases compactRawPartition_leaves C dataDir createdAt answers s key with
      h | ⟨read, _, -, reports, h⟩
    · rw [h]
      exact ⟨hs, .refl _⟩
    · rw [h]
      exact ⟨⟨hs.source, writeCompacted_rawLake dataDir answers read.events hs.compacted⟩, .refl _⟩
  | stop answers hstart k =>
    exact ⟨⟨hs.source, hs.compacted.stoppedAt k⟩, .refl _⟩

theorem RawReachable.sound (hs : RawReachable C dataDir s) : s.Sound C := by
  induction hs with
  | refl => exact ⟨fun n h => absurd rfl h, fun n h => absurd rfl h⟩
  | tail _ hmove ih => exact (hmove.keeps ih).1

/-! ## What a run reads -/

section Reading

variable {events rows : List (RawMarketEvent D)} {ms : List RawPartManifest}

/-- The events of a part are added unless an id is there twice. -/
theorem foldlM_addEvent : ∀ (rows : List (RawMarketEvent D)) {events : List (RawMarketEvent D)},
    (events.map (·.eventId)).Nodup →
    (((events ++ rows).map (·.eventId)).Nodup → rows.foldlM addEvent events = .ok (events ++ rows)) ∧
      (¬ ((events ++ rows).map (·.eventId)).Nodup →
        ∃ id, rows.foldlM addEvent events = .error (duplicateEvent id))
  | [], events, h => by
    rw [List.append_nil]
    exact ⟨fun _ => rfl, fun hnot => absurd h hnot⟩
  | e :: rows, events, h => by
    have hcons : events ++ e :: rows = (events ++ [e]) ++ rows := by simp
    by_cases hmem : e.eventId ∈ events.map (·.eventId)
    · constructor
      · intro hnodup
        rw [List.map_append, List.nodup_append] at hnodup
        exact absurd rfl (hnodup.2.2 _ hmem _ (List.mem_map_of_mem List.mem_cons_self))
      · intro _
        refine ⟨e.eventId, ?_⟩
        rw [List.foldlM_cons, addEvent, if_pos hmem]
        rfl
    · have hnext : ((events ++ [e]).map (·.eventId)).Nodup := by
        rw [List.map_append]
        refine h.append (List.nodup_singleton _) ?_
        intro id hid hid'
        rw [List.mem_singleton.mp hid'] at hid
        exact hmem hid
      rw [List.foldlM_cons, addEvent, if_neg hmem, hcons]
      exact foldlM_addEvent rows hnext

variable {source : Lake LakeName β}

/-- The parts are read one after the other. -/
theorem foldlM_readSourcePart (hlake : RawLake C (lakeView C source)) :
    ∀ {ms : List RawPartManifest} (read : List (RawPartName × String) × List (RawMarketEvent D)),
      (∀ m ∈ ms, Listed C source m) → (read.2.map (·.eventId)).Nodup →
      (((read.2 ++ rowsOf C source ms).map (·.eventId)).Nodup →
        ms.foldlM (readSourcePart C source) read = .ok (read.1 ++ ms.map fun m =>
          (m.partPath, fileChecksum C source m.partPath), read.2 ++ rowsOf C source ms)) ∧
      (¬ ((read.2 ++ rowsOf C source ms).map (·.eventId)).Nodup →
        ∃ id, ms.foldlM (readSourcePart C source) read = .error (duplicateEvent id))
  | [], read, _, h => by
    simp only [rowsOf, List.flatMap_nil, List.append_nil, List.map_nil]
    exact ⟨fun _ => rfl, fun hnot => absurd h hnot⟩
  | m :: ms, read, hlisted, h => by
    obtain ⟨hm, hms⟩ := List.forall_mem_cons.mp hlisted
    obtain ⟨rows, -, -, hread⟩ := hlake.listed hm
    have hrows : rowsOf C source (m :: ms) = rows ++ rowsOf C source ms := by
      unfold rowsOf openPart
      rw [List.flatMap_cons, hread]
    have hpart : readSourcePart C source read m = (rows.foldlM addEvent read.2).map fun events =>
        (read.1 ++ [(m.partPath, fileChecksum C source m.partPath)], events) := by
      unfold readSourcePart
      rw [hread]
      rfl
    obtain ⟨hadd, hdup⟩ := foldlM_addEvent rows h
    rw [List.foldlM_cons, hpart, hrows, ← List.append_assoc]
    by_cases hnodup : ((read.2 ++ rows).map (·.eventId)).Nodup
    · rw [hadd hnodup]
      have hnext : ((read.1 ++ [(m.partPath, fileChecksum C source m.partPath)],
          read.2 ++ rows).2.map (·.eventId)).Nodup := hnodup
      obtain ⟨hok, herr⟩ := foldlM_readSourcePart hlake _ hms hnext
      refine ⟨fun hall => (hok hall).trans ?_, fun hall => herr hall⟩
      simp
    · obtain ⟨id, hid⟩ := hdup hnodup
      rw [hid]
      refine ⟨fun hall => ?_, fun _ => ⟨id, rfl⟩⟩
      rw [List.map_append] at hall
      exact absurd (List.nodup_append.mp hall).1 hnodup

/-- What was read of the source. -/
structure SourceRead.Of (C : Codec D β) (source : Lake LakeName β) (key : RawKey)
    (read : SourceRead D) : Prop where
  nodup : read.manifests.Nodup
  listed : ∀ m, m ∈ read.manifests ↔ Listed C source m ∧ m.key = key
  nonempty : read.manifests ≠ []
  events : read.events = sorted rawLe (rowsOf C source read.manifests)
  ids : ((rowsOf C source read.manifests).map (·.eventId)).Nodup

theorem matches_undated {m : RawPartManifest} :
    ({ key.selection with utcDate := none } : Selection).matches m.exchange m.marketType m.channel
      m.symbol m.utcDate = true ∧ decide (m.utcDate = key.utcDate) = true ↔ m.key = key := by
  simp only [RawKey.selection, Selection.matches, Selection.has, Bool.and_eq_true, decide_eq_true_eq]
  constructor
  · rintro ⟨⟨⟨⟨⟨h₁, h₂⟩, h₃⟩, h₄⟩, -⟩, h₅⟩
    unfold RawPartManifest.key
    rw [← h₁, ← h₂, ← h₃, ← h₄, h₅]
  · rintro rfl
    exact ⟨⟨⟨⟨⟨rfl, rfl⟩, rfl⟩, rfl⟩, trivial⟩, rfl⟩

/-- The manifests of the partition. -/
theorem mem_partition {source : Lake LakeName β} (hlake : RawLake C (lakeView C source))
    (hms : discoverManifests C source { key.selection with utcDate := none } = .ok ms)
    (m : RawPartManifest) :
    (m ∈ ms.filter fun m => m.utcDate = key.utcDate) ↔ Listed C source m ∧ m.key = key := by
  rw [List.mem_filter, (mem_discovered hlake hms).2, and_assoc, matches_undated]

theorem readSource_spec (hlake : RawLake C (lakeView C source))
    (h : readSource C source key = .ok read) : read.Of C source key := by
  unfold readSource at h
  obtain ⟨discovered, hms, h⟩ := bind_eq_ok.mp h
  obtain ⟨_, hnonempty, h⟩ := bind_eq_ok.mp h
  obtain ⟨⟨checksums, events⟩, hread, h⟩ := bind_eq_ok.mp h
  cases h
  have hlisted := mem_partition hlake hms
  obtain ⟨hok, herr⟩ := foldlM_readSourcePart hlake ([], [])
    (fun m hm => ((hlisted m).mp hm).1) List.nodup_nil
  by_cases hids : ((rowsOf C source (discovered.filter fun m => m.utcDate = key.utcDate)).map
      (·.eventId)).Nodup
  · rw [hok hids] at hread
    cases hread
    exact ⟨(mem_discovered hlake hms).1.filter _, hlisted,
      of_decide_eq_true (lakeCheck_eq_ok.mp hnonempty), rfl, hids⟩
  · obtain ⟨id, hid⟩ := herr hids
    rw [hid] at hread
    cases hread

/-- **The same event in two parts** of the source raises. -/
theorem readSource_duplicate (hlake : RawLake C (lakeView C source))
    {m₁ m₂ : RawPartManifest} (h₁ : Listed C source m₁) (h₂ : Listed C source m₂)
    (hkey₁ : m₁.key = key) (hkey₂ : m₂.key = key) (hne : m₁ ≠ m₂) {e₁ e₂ : RawMarketEvent D}
    (he₁ : e₁ ∈ (openPart C source m₁).rows) (he₂ : e₂ ∈ (openPart C source m₂).rows)
    (hid : e₁.eventId = e₂.eventId) :
    ∃ id, readSource C source key = .error (duplicateEvent id) := by
  obtain ⟨rows, hpart, -⟩ := hlake.listed h₁
  have hsafe : forM ([key.exchange, key.marketType, key.channel, key.symbol] ++ [key.utcDate])
      (validateComponent .rawStore "raw") = .ok () := hkey₁ ▸ hpart.safe
  rw [List.forM_append] at hsafe
  obtain ⟨_, hsafe, -⟩ := bind_eq_ok.mp hsafe
  obtain ⟨discovered, hms, -⟩ := discoverManifests_spec
    (s := { key.selection with utcDate := none }) hlake hsafe
  have hlisted := mem_partition hlake hms
  have hmem₁ := (hlisted m₁).mpr ⟨h₁, hkey₁⟩
  have hmem₂ := (hlisted m₂).mpr ⟨h₂, hkey₂⟩
  have hids : ¬ ((rowsOf C source (discovered.filter fun m => m.utcDate = key.utcDate)).map
      (·.eventId)).Nodup := by
    intro hnodup
    unfold rowsOf at hnodup
    rw [List.map_flatMap, List.nodup_flatMap] at hnodup
    have : Std.Symm (Function.onFun List.Disjoint fun m =>
        (openPart C source m).rows.map (·.eventId)) := ⟨fun _ _ h => h.symm⟩
    have hdisjoint := hnodup.2.forall hmem₁ hmem₂ hne
    exact hdisjoint (List.mem_map_of_mem he₁) (hid ▸ List.mem_map_of_mem he₂)
  obtain ⟨-, herr⟩ := foldlM_readSourcePart hlake ([], [])
    (fun m hm => ((hlisted m).mp hm).1) List.nodup_nil
  obtain ⟨id, hid⟩ := herr hids
  refine ⟨id, bind_eq_error.mpr (.inr ⟨discovered, hms, bind_eq_error.mpr (.inr ⟨(), ?_,
    bind_eq_error.mpr (.inl hid)⟩)⟩)⟩
  exact lakeCheck_eq_ok.mpr (decide_eq_true (List.ne_nil_of_mem hmem₁))

/-- The events of a partition that was read. -/
theorem SourceRead.Of.mem (h : read.Of C source key)
    (hlake : RawLake C (lakeView C source)) {e : RawMarketEvent D} (he : e ∈ read.events) :
    rawKey e = .ok (key, e) := by
  rw [h.events] at he
  obtain ⟨m, hm, he⟩ := List.mem_flatMap.mp (mem_sorted.mp he)
  obtain ⟨hlisted, hkey⟩ := (h.listed m).mp hm
  obtain ⟨rows, hpart, -, hopen⟩ := openPart_listed hlake hlisted
  rw [hopen] at he
  exact hkey ▸ hpart.keyed e he

theorem SourceRead.Of.ne_nil (h : read.Of C source key)
    (hlake : RawLake C (lakeView C source)) : read.events ≠ [] := by
  obtain ⟨m, hm⟩ := List.exists_mem_of_ne_nil _ h.nonempty
  obtain ⟨rows, hpart, -, hopen⟩ := openPart_listed hlake ((h.listed m).mp hm).1
  obtain ⟨e, he⟩ := List.exists_mem_of_ne_nil _ hpart.nonempty
  apply List.ne_nil_of_mem (a := e)
  rw [h.events]
  refine mem_sorted.mpr (List.mem_flatMap.mpr ⟨m, hm, ?_⟩)
  rwa [hopen]

end Reading

/-! ## What a run writes -/

section Writing

variable {events : List (RawMarketEvent D)}

/-- Events of one partition are written as one part. -/
theorem writeRaw_one (hnonempty : events ≠ []) (hkeyed : ∀ e ∈ events, rawKey e = .ok (key, e)) :
    writeRaw C dataDir events = [writePartition C dataDir key events] := by
  obtain ⟨keyed, hmapM, hmap⟩ := mapM_ok (f := rawKey) (g := id) (h := fun e => (key, e)) (l := events)
    fun e he => ⟨_, hkeyed e he, rfl⟩
  rw [List.map_id] at hmap
  subst hmap
  have hkeys : (events.map fun e => (key, e)).map Prod.fst = List.replicate events.length key := by
    refine List.eq_replicate_iff.mpr ⟨by simp, fun k hk => ?_⟩
    obtain ⟨x, hx, rfl⟩ := List.mem_map.mp hk
    obtain ⟨e, -, rfl⟩ := List.mem_map.mp hx
    rfl
  have hgroup : ((events.map fun e => (key, e)).filter fun x => decide (x.1 = key)).map Prod.snd =
      events := by
    rw [List.filter_eq_self.mpr, List.map_map]
    · exact List.map_id events
    · intro x hx
      obtain ⟨e, -, rfl⟩ := List.mem_map.mp hx
      exact decide_eq_true rfl
  have hlength : events.length ≠ 0 := fun h => hnonempty (List.length_eq_zero_iff.mp h)
  unfold writeRaw
  rw [hmapM]
  dsimp only
  rw [hkeys, List.replicate_dedup hlength]
  show [writePartition C dataDir key _] = _
  rw [hgroup]

/-- What a run leaves that returns: the part that it has verified, which it wrote or found. -/
structure Compacted (C : Codec D β) (s s' : RawRoots β) (key : RawKey)
    (events : List (RawMarketEvent D)) (n : RawPartName) (rows : List (RawMarketEvent D)) : Prop where
  part : IsPart C (lakeView C s'.compacted) n key rows
  length : events.length = rows.length
  /-- `n` is the name of the part of `events`. -/
  named : ∀ V n', IsPart C V n' key events → n' = n
  view : lakeView C s'.compacted = lakeView C s.compacted ∨
    lakeView C s.compacted (.raw n) = (none, none) ∧ rows = events ∧
      ∃ x, lakeView C s'.compacted = Function.update (lakeView C s.compacted) (.raw n) x

theorem writePartition_name {P : LakePart β}
    (hP : writePartition C dataDir key events = .ok (some P)) {n : RawPartName}
    (hn : P.name = .raw n) (hevents : events.Pairwise fun a b => rawLe a b = true) :
    (∀ {V n' key' rows}, IsPart C V n' key' rows → n' = n → key' = key) ∧
      ∀ V n', IsPart C V n' key events → n' = n := by
  unfold writePartition at hP
  obtain ⟨-, -, hP⟩ := bind_eq_ok.mp hP
  obtain ⟨sha, hsha, hP⟩ := bind_eq_ok.mp hP
  cases hP
  cases hn
  rw [sorted_eq_self hevents] at hsha ⊢
  constructor
  · rintro V n' key' rows hpart rfl
    obtain ⟨sha', -, hname, -⟩ := hpart.entry
    obtain ⟨h₁, h₂, h₃, h₄, h₅, -⟩ := RawPartName.mk.inj (LakeName.raw.inj hname)
    exact (RawKey.mk.injEq ..).mpr ⟨h₁, h₂, h₃, h₄, h₅⟩
  · intro V n' hpart
    obtain ⟨sha', hsha', hname, -⟩ := hpart.entry
    rw [hsha] at hsha'
    cases hsha'
    exact (LakeName.raw.inj hname).symm

/-- The part that is in place after a write of one. -/
theorem writeCompacted_ok {compacted compacted' : Lake LakeName β} {written : List LakeManifest}
    {log : List (Files.Event (PartFile LakeName) β)} (hlake : RawLake C (lakeView C compacted))
    (hnonempty : events ≠ []) (hkeyed : ∀ e ∈ events, rawKey e = .ok (key, e))
    (hevents : events.Pairwise fun a b => rawLe a b = true)
    (hrun : writeCompacted C dataDir answers compacted events = (.ok written, compacted', log)) :
    ∃ n rows m, rawManifests written = [m] ∧ readVerifiedPart C compacted' m = .ok rows ∧
      IsPart C (lakeView C compacted') n key rows ∧ (∀ V n', IsPart C V n' key events → n' = n) ∧
      (lakeView C compacted' = lakeView C compacted ∨
        lakeView C compacted (.raw n) = (none, none) ∧ rows = events ∧
          ∃ x, lakeView C compacted' = Function.update (lakeView C compacted) (.raw n) x) := by
  have hlake' : RawLake C (lakeView C compacted') := by
    have h := writeCompacted_rawLake dataDir answers events hlake
    rwa [hrun] at h
  unfold writeCompacted at hrun
  rw [writeRaw_one hnonempty hkeyed] at hrun
  cases hstep : writePartition C (compactedRoot dataDir) key events with
  | error e =>
    rw [hstep] at hrun
    cases hrun
  | ok o =>
  cases o with
  | none =>
    unfold writePartition at hstep
    obtain ⟨-, -, hstep⟩ := bind_eq_ok.mp hstep
    obtain ⟨sha, -, hstep⟩ := bind_eq_ok.mp hstep
    cases hstep
  | some P =>
  rw [hstep] at hrun
  obtain ⟨written, rfl, hinstall, hmanifest⟩ := run_writeStep lakeFormat_lawful
    (lawful_writePartition hstep) hrun
  rw [lakeView_eq] at hmanifest
  rw [lakeView_eq, lakeView_eq] at hinstall
  have hthere : (lakeView C compacted' P.name).2 ≠ none := fun h => Option.some_ne_none _ (hmanifest.symm.trans h)
  obtain ⟨n, key', rows, hn, hpart⟩ := hlake' _ hthere
  obtain ⟨hkey, hnamed⟩ := writePartition_name hstep hn hevents
  cases hkey hpart rfl
  rw [hn] at hmanifest
  obtain ⟨m, rfl, hread⟩ := hpart.read_undated hmanifest
  refine ⟨n, rows, m, rfl, hread, hpart, hnamed, ?_⟩
  rcases install_eq_ok hinstall with ⟨-, hview⟩ | ⟨hnone, content, hcontent, hview⟩
  · exact .inl hview
  · refine .inr ⟨hn ▸ hnone, ?_, _, hn ▸ hview⟩
    have hself : lakeView C compacted' P.name = P.entry (lakeFormat C (compactedRoot dataDir)) content :=
      (congrFun hview P.name).trans (Function.update_self ..)
    obtain ⟨n', hn', hpart'⟩ := writePartition_isPart hnonempty hkeyed hstep hcontent hself
    rw [hn] at hn'
    cases hn'
    rw [sorted_eq_self hevents] at hpart'
    exact (hpart.unique hpart').2

theorem compactRawPartition_ok (hs : s.Sound C)
    (h : compactRawPartition C dataDir answers createdAt s key = (.ok report, s')) :
    ∃ read n rows, readSource C s.source key = .ok read ∧ Compacted C s s' key read.events n rows := by
  unfold compactRawPartition at h
  split at h
  · cases h
  next read sha hstart =>
  obtain ⟨read', hread, hstart⟩ := bind_eq_ok.mp hstart
  obtain ⟨sha', -, hstart⟩ := bind_eq_ok.mp hstart
  cases hstart
  have hof := readSource_spec hs.source hread
  split at h
  · cases h
  next written compacted log hwrite =>
  split at h
  · cases h
  next events eventsSha256 hcheck =>
  cases h
  obtain ⟨n, rows, m, hwritten, hm, hpart, hnamed, hview⟩ := writeCompacted_ok hs.compacted
    (hof.ne_nil hs.source) (fun e he => hof.mem hs.source he)
    (hof.events ▸ pairwise_rawLe _) hwrite
  refine ⟨read, n, rows, hread, hpart, ?_, hnamed, hview⟩
  unfold checkCompacted at hcheck
  rw [hwritten] at hcheck
  obtain ⟨parts, hparts, hcheck⟩ := bind_eq_ok.mp hcheck
  obtain ⟨sha', -, hcheck⟩ := bind_eq_ok.mp hcheck
  obtain ⟨_, hsame, -⟩ := bind_eq_ok.mp hcheck
  have hone : [m].mapM (readVerifiedPart C compacted) = .ok [rows] := by
    rw [List.mapM_cons, hm]
    rfl
  rw [hone] at hparts
  cases hparts
  have hlength := (of_decide_eq_true (lakeCheck_eq_ok.mp hsame)).2
  rw [hlength]
  simp [sorted]

end Writing

/-! ## The mirror -/

/-- What readers are given of the mirror is what they are given of the source. -/
def Mirrors (C : Codec D β) (s : RawRoots β) (key : RawKey) : Prop :=
  iterRawEvents C s.compacted key.selection = iterRawEvents C s.source key.selection

/-- Each part that the mirror has of the partition holds the events that the source has. -/
def Current (C : Codec D β) (s : RawRoots β) (key : RawKey) : Prop :=
  ∀ read ms, readSource C s.source key = .ok read →
    discoverManifests C s.compacted key.selection = .ok ms →
      ∀ m ∈ ms, readVerifiedPart C s.compacted m = .ok read.events

section Mirror

variable {n n' : RawPartName} {rows rows' events : List (RawMarketEvent D)}

/-- A part of the mirror that is not the one of the run was there before. -/
theorem Compacted.before (h : Compacted C s s' key events n rows)
    (hpart : IsPart C (lakeView C s'.compacted) n' key rows') (hne : n' ≠ n) :
    IsPart C (lakeView C s.compacted) n' key rows' := by
  rcases h.view with hview | ⟨-, -, x, hview⟩
  · rwa [hview] at hpart
  · have hname : LakeName.raw n' ≠ .raw n := fun heq => hne (LakeName.raw.inj heq)
    obtain ⟨sha, hsha, hn, hcontent, hentry⟩ := hpart.entry
    rw [hview, Function.update_of_ne hname] at hentry
    exact ⟨hpart.nonempty, hpart.keyed, hpart.ordered, hpart.safe, sha, hsha, hn, hcontent, hentry⟩

/-- A part of the mirror stays there. -/
theorem Compacted.after (h : Compacted C s s' key events n rows)
    (hpart : IsPart C (lakeView C s.compacted) n' key rows') :
    IsPart C (lakeView C s'.compacted) n' key rows' := by
  rcases h.view with hview | ⟨hnone, -, x, hview⟩
  · rwa [hview]
  · rw [hview]
    refine hpart.update (fun heq => ?_) x
    obtain ⟨sha, -, -, -, hentry⟩ := hpart.entry
    rw [heq, hnone] at hentry
    cases hentry

/-- If the parts before are current, then the part of the run is the only one. -/
theorem Compacted.current (h : Compacted C s s' key events n rows)
    (hbefore : ∀ n' rows', IsPart C (lakeView C s.compacted) n' key rows' → rows' = events) :
    rows = events ∧
      ∀ n' rows', IsPart C (lakeView C s'.compacted) n' key rows' → n' = n := by
  have hrows : rows = events := by
    rcases h.view with hview | ⟨-, hrows, -⟩
    · exact hbefore n rows (hview ▸ h.part)
    · exact hrows
  refine ⟨hrows, fun n' rows' hpart => ?_⟩
  by_contra hne
  have hold := h.before hpart hne
  cases hbefore n' rows' hold
  exact hne (h.named _ _ hold)

variable {ms : List RawPartManifest} {lake : Lake LakeName β}

/-- The rows of a partition of one part. -/
theorem rowsOf_only (hlake : RawLake C (lakeView C lake))
    (hms : discoverManifests C lake key.selection = .ok ms)
    (hpart : IsPart C (lakeView C lake) n key rows)
    (honly : ∀ n' rows', IsPart C (lakeView C lake) n' key rows' → n' = n) :
    rowsOf C lake ms = rows := by
  obtain ⟨m, hm, hpath, hread⟩ := (isPart_iff hlake hms).mp hpart
  obtain ⟨hnodup, hspec⟩ := mem_discovered hlake hms
  have hone : ms = [m] := by
    refine List.perm_singleton.mp ((List.perm_ext_iff_of_nodup hnodup (List.nodup_singleton m)).mpr
      fun m' => ?_)
    rw [List.mem_singleton]
    constructor
    · intro hm'
      obtain ⟨hlisted, hkey⟩ := (hspec m').mp hm'
      obtain ⟨rows', hpart', -⟩ := hlake.listed hlisted
      rw [matches_selection.mp hkey] at hpart'
      exact hlisted.unique ((hspec m).mp hm).1 ((honly _ _ hpart').trans hpath.symm)
    · rintro rfl
      exact hm
  rw [hone, rowsOf, List.flatMap_singleton, openPart, hread]

/-- Any part is among the rows of its partition, and if it has as many as they are then there is
no other. -/
theorem rowsOf_part (hlake : RawLake C (lakeView C lake))
    (hms : discoverManifests C lake key.selection = .ok ms)
    (hpart : IsPart C (lakeView C lake) n key rows)
    (hlength : (rowsOf C lake ms).length = rows.length) :
    rowsOf C lake ms = rows ∧
      ∀ n' rows', IsPart C (lakeView C lake) n' key rows' → n' = n := by
  obtain ⟨m, hm, hpath, hread⟩ := (isPart_iff hlake hms).mp hpart
  have hrows : (openPart C lake m).rows = rows := by rw [openPart, hread]
  obtain ⟨before, after, rfl⟩ := List.append_of_mem hm
  unfold rowsOf at hlength
  rw [List.flatMap_append, List.flatMap_cons, hrows, List.length_append, List.length_append] at hlength
  have honly : ∀ n' rows', IsPart C (lakeView C lake) n' key rows' → n' = n := by
    intro n' rows' hpart'
    obtain ⟨m', hm', rfl, hread'⟩ := (isPart_iff hlake hms).mp hpart'
    have hempty : m' ∉ before ++ after := by
      intro hmem
      obtain ⟨e, he⟩ := List.exists_mem_of_ne_nil _ hpart'.nonempty
      have hrows' : (openPart C lake m').rows = rows' := by rw [openPart, hread']
      have hin : e ∈ (before ++ after).flatMap fun m => (openPart C lake m).rows :=
        List.mem_flatMap.mpr ⟨m', hmem, by rwa [hrows']⟩
      have hpos := List.length_pos_of_mem hin
      rw [List.flatMap_append, List.length_append] at hpos
      omega
    rcases List.mem_append.mp hm' with h | h
    · exact absurd (List.mem_append_left _ h) hempty
    · rcases List.mem_cons.mp h with rfl | h
      · exact hpath
      · exact absurd (List.mem_append_right _ h) hempty
  exact ⟨rowsOf_only hlake hms hpart honly, honly⟩

/-- The rows that the reader of the source merges are those of the run. -/
theorem SourceRead.Of.perm {source : Lake LakeName β} (h : read.Of C source key)
    (hlake : RawLake C (lakeView C source))
    (hms : discoverManifests C source key.selection = .ok ms) :
    (rowsOf C source ms).Perm read.events ∧
      ((rowsOf C source ms).map (rawKeys D).orderKey).Nodup := by
  obtain ⟨hnodup, hspec⟩ := mem_discovered hlake hms
  have hmanifests : ms.Perm read.manifests := by
    refine (List.perm_ext_iff_of_nodup hnodup h.nodup).mpr fun m => ?_
    rw [hspec, h.listed, matches_selection]
  have hrows : (rowsOf C source ms).Perm (rowsOf C source read.manifests) :=
    hmanifests.flatMap_right _
  refine ⟨?_, ?_⟩
  · rw [h.events]
    exact hrows.trans (List.perm_insertionSort _ _).symm
  · have hids : ((rowsOf C source ms).map (·.eventId)).Nodup := (hrows.map _).nodup_iff.mpr h.ids
    refine List.Nodup.of_map (fun k : ℤ ×ₗ ℤ ×ₗ String => (ofLex (ofLex k).2).2) ?_
    rwa [List.map_map]

/-- **The mirror**, after a run that returns: it is the source if its parts were current, and if
the source can be given whole then only if they were. -/
theorem Compacted.mirrors_iff (hs : s.Sound C) (hs' : s'.Sound C) (hsource : s'.source = s.source)
    (hread : readSource C s.source key = .ok read) (h : Compacted C s s' key read.events n rows) :
    (Current C s key → Mirrors C s' key) ∧
      ((iterRawEvents C s.source key.selection).raised = none → Mirrors C s' key →
        Current C s key) := by
  have hof := readSource_spec hs.source hread
  have hsafe := h.part.safe
  obtain ⟨before, hbefore, -⟩ := discoverManifests_spec (s := key.selection) hs.compacted hsafe
  obtain ⟨after, hafter, -⟩ := discoverManifests_spec (s := key.selection) hs'.compacted hsafe
  obtain ⟨ms, hms, -⟩ := discoverManifests_spec (s := key.selection) hs.source hsafe
  obtain ⟨hperm, hkeys⟩ := hof.perm hs.source hms
  unfold Mirrors
  rw [hsource]
  constructor
  · intro hcurrent
    obtain ⟨hrows, honly⟩ := h.current fun n' rows' hpart => by
      obtain ⟨m, hm, -, hread'⟩ := (isPart_iff hs.compacted hbefore).mp hpart
      rw [hcurrent read before hread hbefore m hm] at hread'
      exact (Except.ok.inj hread').symm
    refine iterRawEvents_perm hs.source hs'.compacted hms hafter hkeys ?_
    rw [rowsOf_only hs'.compacted hafter h.part honly, hrows]
    exact hperm.symm
  · intro hraised hsame read' before' hread' hbefore' m hm
    rw [hread] at hread'
    rw [hbefore] at hbefore'
    cases hread'
    cases hbefore'
    -- both are given whole, so the mirror has the events of the source and no more
    have hsource := iterRawEvents_whole hs.source hms hraised
    have hmirror := iterRawEvents_whole hs'.compacted hafter (hsame ▸ hraised)
    rw [hsame] at hmirror
    have hwhole : (rowsOf C s'.compacted after).Perm read.events :=
      hmirror.symm.trans (hsource.trans hperm)
    obtain ⟨hrows, honly⟩ := rowsOf_part hs'.compacted hafter h.part
      (hwhole.length_eq.trans h.length)
    rw [hrows] at hwhole
    have hevents : rows = read.events := by
      refine ascending_unique (K := rawKeys D) ((hperm.map _).nodup_iff.mp hkeys) ?_ ?_ hwhole
      · exact (hof.events ▸ pairwise_rawLe _ : read.events.Pairwise _).imp rawLe_iff.mp
      · exact h.part.ordered.imp rawLe_iff.mp
    obtain ⟨hlisted, hkey⟩ := ((mem_discovered hs.compacted hbefore).2 m).mp hm
    obtain ⟨rows', hpart, -, hread'⟩ := hs.compacted.listed hlisted
    rw [matches_selection.mp hkey] at hpart
    have hafterPart := h.after hpart
    cases honly _ _ hafterPart
    rw [hread', (hafterPart.unique h.part).2, hevents]

theorem startCompaction_duplicate {id : String}
    (h : readSource C s.source key = .error (duplicateEvent id)) :
    compactRawPartition C dataDir answers createdAt s key = (.error (duplicateEvent id), s) := by
  have hstart : startCompaction C s.source key = .error (duplicateEvent id) :=
    bind_eq_error.mpr (.inl h)
  unfold compactRawPartition
  rw [hstart]

end Mirror

section Sample

abbrev sampleLakeCodec : Codec (digestOf []) (SamplePiece (digestOf [])) := sampleCodec (digestOf [])

def firstEvent : RawMarketEvent (digestOf []) :=
  sampleRaw "c" "a" 1 1 sampleConnection_ne Int.one_pos Int.one_pos

theorem second_pos : (0 : ℤ) < 2 := by decide

def secondEvent : RawMarketEvent (digestOf []) :=
  sampleRaw "c" "b" 2 2 sampleConnection_ne second_pos second_pos

def samplePartition : RawKey := ⟨"bybit", "linear", "trades", "BTCUSDT", "1970-01-01"⟩

/-- The event is written to the source. -/
def sampleRawWrite (event : RawMarketEvent (digestOf [])) (s : RawRoots (SamplePiece (digestOf []))) :
    RawRoots (SamplePiece (digestOf [])) :=
  { s with source := (stoppedAt (lakeFormat sampleLakeCodec "data") sampleLakeAnswers
      (writeRaw sampleLakeCodec "data" [event]) s.source 20).1 }

def sampleCompact (s : RawRoots (SamplePiece (digestOf []))) :
    Except LakeError RawCompactionReport × RawRoots (SamplePiece (digestOf [])) :=
  compactRawPartition sampleLakeCodec "data" sampleLakeAnswers "2026-01-01T00:00:00+00:00" s
    samplePartition

def oneWritten : RawRoots (SamplePiece (digestOf [])) := sampleRawWrite firstEvent .empty

theorem oneWritten_reachable : RawReachable sampleLakeCodec "data" oneWritten :=
  .single (.write sampleLakeAnswers [firstEvent] 20 .empty)

/-- An event is written, the partition is compacted, and another event is written. -/
def grown : RawRoots (SamplePiece (digestOf [])) :=
  sampleRawWrite secondEvent (sampleCompact oneWritten).2

theorem grown_reachable : RawReachable sampleLakeCodec "data" grown :=
  (oneWritten_reachable.tail (.compact sampleLakeAnswers "2026-01-01T00:00:00+00:00" samplePartition
    oneWritten)).tail (.write sampleLakeAnswers [secondEvent] 20 _)

/-- Whether a part of the mirror has as many rows as the source. -/
def sameSize (s : RawRoots (SamplePiece (digestOf []))) : Bool :=
  match readSource sampleLakeCodec s.source samplePartition,
    discoverManifests sampleLakeCodec s.compacted samplePartition.selection with
  | .ok read, .ok ms => ms.all fun m => decide
      ((readVerifiedPart sampleLakeCodec s.compacted m).map List.length = .ok read.events.length)
  | _, _ => true

variable {s : RawRoots (SamplePiece (digestOf []))}

theorem sameSize_of_current
    (h : Current sampleLakeCodec s samplePartition) : sameSize s = true := by
  unfold sameSize
  split
  · next read ms hread hms =>
    refine List.all_eq_true.mpr fun m hm => decide_eq_true ?_
    rw [h read ms hread hms m hm]
    rfl
  · rfl

theorem grown_compacts : (sampleCompact grown).1.toOption.isSome = true ∧
    (iterRawEvents sampleLakeCodec grown.source samplePartition.selection).raised.isSome = false ∧
    sameSize grown = false := by decide +kernel

/-- A run that returns. -/
theorem sampleCompact_ok
    (h : (sampleCompact s).1.toOption.isSome = true) :
    ∃ report, sampleCompact s = (.ok report, (sampleCompact s).2) := by
  rcases hrun : sampleCompact s with ⟨e | report, s'⟩
  · rw [hrun] at h
    cases h
  · exact ⟨report, rfl⟩

theorem sampleCompact_source (s : RawRoots (SamplePiece (digestOf []))) :
    (sampleCompact s).2.source = s.source := compactRawPartition_source ..

/-- The part that the first run left has one event, the source has two, and after the second run
the mirror has the first event in two parts. -/
theorem grown_not_mirrored : ¬ ∀ s, RawReachable sampleLakeCodec "data" s →
    ∀ answers createdAt key report s',
      compactRawPartition sampleLakeCodec "data" answers createdAt s key = (.ok report, s') →
        Mirrors sampleLakeCodec s' key := by
  intro hclaim
  obtain ⟨hreturns, hsource, hstale⟩ := grown_compacts
  obtain ⟨report, hrun⟩ := sampleCompact_ok hreturns
  have hsame := hclaim grown grown_reachable _ _ _ report _ hrun
  have hsound := grown_reachable.sound
  have hreach : RawReachable sampleLakeCodec "data" (sampleCompact grown).2 :=
    grown_reachable.tail (.compact _ _ _ grown)
  obtain ⟨read, n, rows, hread, hcompacted⟩ := compactRawPartition_ok hsound hrun
  have hcurrent := (hcompacted.mirrors_iff hsound hreach.sound (sampleCompact_source grown) hread).2
    (Option.not_isSome_iff_eq_none.mp (by rw [hsource]; exact Bool.false_ne_true)) hsame
  rw [sameSize_of_current hcurrent] at hstale
  cases hstale

end Sample

/-- **Compaction.** Whatever was written and compacted before, a run leaves the source, whose files
no call changes, and raises before it writes when an event is in two parts of the source. If it
returns, the mirror is the source when the parts that the mirror had held the events that the source
has now, and where the source can be read without an error, only then. -/
theorem compacted_mirrors (hs : RawReachable C dataDir s)
    (answers : (q : Parts.Query LakeName) → Parts.Answer q) (createdAt : String) (key : RawKey) :
    (compactRawPartition C dataDir answers createdAt s key).2.source = s.source ∧
    (∀ s', RawMove C dataDir s s' → InPlace s.source s'.source) ∧
    (∀ m₁ m₂, Listed C s.source m₁ → Listed C s.source m₂ → m₁.key = key → m₂.key = key → m₁ ≠ m₂ →
      ∀ e₁ ∈ (openPart C s.source m₁).rows, ∀ e₂ ∈ (openPart C s.source m₂).rows,
        e₁.eventId = e₂.eventId → ∃ id, compactRawPartition C dataDir answers createdAt s key =
          (.error (duplicateEvent id), s)) ∧
    ∀ report s', compactRawPartition C dataDir answers createdAt s key = (.ok report, s') →
      (Current C s key → Mirrors C s' key) ∧
        ((iterRawEvents C s.source key.selection).raised = none → Mirrors C s' key →
          Current C s key) := by
  have hsound := hs.sound
  refine ⟨compactRawPartition_source .., fun s' hmove => (hmove.keeps hsound).2, ?_, ?_⟩
  · intro m₁ m₂ h₁ h₂ hkey₁ hkey₂ hne e₁ he₁ e₂ he₂ hid
    obtain ⟨id, hread⟩ := readSource_duplicate hsound.source h₁ h₂ hkey₁ hkey₂ hne he₁ he₂ hid
    exact ⟨id, startCompaction_duplicate hread⟩
  · intro report s' hrun
    have hmove : RawMove C dataDir s s' := by
      have h : RawMove C dataDir s (compactRawPartition C dataDir answers createdAt s key).2 :=
        .compact answers createdAt key s
      rwa [hrun] at h
    have hsource : s'.source = s.source := by
      have h := compactRawPartition_source C dataDir createdAt answers s key
      rwa [hrun] at h
    obtain ⟨read, n, rows, hread, hcompacted⟩ := compactRawPartition_ok hsound hrun
    exact hcompacted.mirrors_iff hsound (hmove.keeps hsound).1 hsource hread

/-- A first compaction, of one event. -/
theorem compacted_mirrors_first : ∃ report, sampleCompact oneWritten =
    (.ok report, (sampleCompact oneWritten).2) ∧
      Mirrors sampleLakeCodec (sampleCompact oneWritten).2 samplePartition := by
  have hreturns : (sampleCompact oneWritten).1.toOption.isSome = true ∧
      discoverManifests sampleLakeCodec oneWritten.compacted samplePartition.selection = .ok [] := by
    decide +kernel
  obtain ⟨report, hrun⟩ := sampleCompact_ok hreturns.1
  refine ⟨report, hrun, ((compacted_mirrors oneWritten_reachable _ _ _).2.2.2 report _ hrun).1 ?_⟩
  intro read ms _ hms m hm
  rw [hreturns.2] at hms
  cases hms
  cases hm

end Greenfield.Data
