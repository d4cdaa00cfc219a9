import Greenfield.Data.LakeStores
import Greenfield.Data.RawMerge
import Greenfield.Lib.Resume

/-!
# Writes of the lake that are stopped

All writers of the lake go by one protocol, so each of them can be done again exactly when it was
not stopped between the rename of a part and the rename of its manifest
(`lake_write_resumes_iff`).
-/

namespace Greenfield.Data

open Effects Parts Py

variable {D : Digests} {β : Type} {C : Codec D β} {dataDir : String}

/-! ## The parts satisfy the protocol -/

theorem lakeCheck_eq_ok {c : Bool} {e : LakeError} {u : Unit} :
    lakeCheck c e = .ok u ↔ c = true := by
  unfold lakeCheck
  split <;> simp_all

theorem lakeFormat_lawful : (lakeFormat C dataDir).Lawful where
  partOf_undated m := by cases m <;> rfl
  verify_undated m := by cases m <;> rfl
  missing_undated m := by cases m <;> rfl

/-- A table that is written is what its codec writes. -/
theorem tableOf_eq_ok {ρ : Type} {integers : ρ → List (ℕ × ℤ)} {write : List ρ → List β}
    {rows : List ρ} {content : List β} (h : tableOf integers write rows = .ok content) :
    content = write rows := by
  unfold tableOf at h
  split at h
  · exact (Except.ok.inj h).symm
  · cases h

/-- A manifest of the versions that are supported is read back. -/
theorem fromJson_rawJson {m : RawPartManifest} (hmanifest : m.manifestVersion = 1)
    (hschema : m.rawSchemaVersion = rawEventSchemaVersion) :
    RawPartManifest.fromJson C (C.rawJson m) = .ok m :=
  bind_eq_ok.mpr ⟨m, C.loadsRaw_rawJson m,
    bind_eq_ok.mpr ⟨(), lakeCheck_eq_ok.mpr (decide_eq_true hmanifest),
      bind_eq_ok.mpr ⟨(), lakeCheck_eq_ok.mpr (decide_eq_true hschema), rfl⟩⟩⟩

theorem fromJson_silverJson {m : NormalizedPartManifest} (hmanifest : m.manifestVersion = 1)
    (hschema : m.normalizedSchemaVersion = normalizedEventSchemaVersion)
    (hversion : supportedNormalizerVersions.contains m.normalizerVersion = true) :
    NormalizedPartManifest.fromJson C (C.silverJson m) = .ok m :=
  bind_eq_ok.mpr ⟨m, C.loadsSilver_silverJson m,
    bind_eq_ok.mpr ⟨(), lakeCheck_eq_ok.mpr (decide_eq_true hmanifest),
      bind_eq_ok.mpr ⟨(), lakeCheck_eq_ok.mpr (decide_eq_true hschema),
        bind_eq_ok.mpr ⟨(), lakeCheck_eq_ok.mpr hversion, rfl⟩⟩⟩⟩

theorem fromJson_goldJson {m : FeaturePartManifest} (hmanifest : m.manifestVersion = 1)
    (hstore : m.featureStoreVersion = 1) : FeaturePartManifest.fromJson C (C.goldJson m) = .ok m :=
  bind_eq_ok.mpr ⟨m, C.loadsGold_goldJson m,
    bind_eq_ok.mpr ⟨(), lakeCheck_eq_ok.mpr (decide_eq_true ⟨hmanifest, hstore⟩), rfl⟩⟩

theorem rawPart_lawful {key : RawKey} {ordered : List (RawMarketEvent D)} {eventsSha256 : String}
    (hsha : asciiSha256 D (ordered.map (·.eventId)) = .ok eventsSha256) :
    (rawPart C dataDir key ordered eventsSha256).Lawful (lakeFormat C dataDir) where
  parsed _ _ := congrArg (Except.map LakeManifest.raw) (fromJson_rawJson rfl rfl)
  about _ _ := rfl
  undated _ _ _ := rfl
  same_manifest _ _ := decide_eq_true rfl
  same_undated m := by cases m <;> rfl
  verified content hcontent time := by
    cases tableOf_eq_ok hcontent
    exact bind_eq_ok.mpr ⟨(), lakeCheck_eq_ok.mpr (decide_eq_true rfl), bind_eq_ok.mpr
      ⟨ordered, C.readRaw_rawParquet ordered, bind_eq_ok.mpr ⟨eventsSha256, hsha, bind_eq_ok.mpr
        ⟨(), lakeCheck_eq_ok.mpr (decide_eq_true rfl),
          lakeCheck_eq_ok.mpr (decide_eq_true rfl)⟩⟩⟩⟩

theorem silverPart_lawful {ordered : List NormalizedMarketEvent}
    {stream : String × String × String × String}
    {normalizerVersion sourceEventsSha256 sourcePartPath utcDate idsSha256 : String}
    (hversion : supportedNormalizerVersions.contains normalizerVersion = true)
    (hsha : asciiSha256 D (ordered.map (·.normalizedId)) = .ok idsSha256) :
    (silverPart C dataDir ordered stream normalizerVersion sourceEventsSha256 sourcePartPath utcDate
      idsSha256).Lawful (lakeFormat C dataDir) where
  parsed _ _ := congrArg (Except.map LakeManifest.silver) (fromJson_silverJson rfl rfl hversion)
  about _ _ := rfl
  undated _ _ _ := rfl
  same_manifest _ _ := decide_eq_true ⟨rfl, rfl⟩
  same_undated m := by cases m <;> rfl
  verified content hcontent time := by
    cases tableOf_eq_ok hcontent
    exact bind_eq_ok.mpr ⟨(), lakeCheck_eq_ok.mpr (decide_eq_true rfl), bind_eq_ok.mpr
      ⟨ordered, C.readSilver_silverParquet ordered, bind_eq_ok.mpr
        ⟨(), lakeCheck_eq_ok.mpr (decide_eq_true rfl), bind_eq_ok.mpr
          ⟨idsSha256, hsha, lakeCheck_eq_ok.mpr (decide_eq_true rfl)⟩⟩⟩⟩

theorem goldPart_lawful {frame : GoldFrame}
    {featureSet symbol utcDate datasetVersion codeVersion : String} :
    (writeFeaturePartition C dataDir frame featureSet symbol utcDate datasetVersion
      codeVersion).Lawful (lakeFormat C dataDir) where
  parsed _ _ := congrArg (Except.map LakeManifest.gold) (fromJson_goldJson rfl rfl)
  about _ _ := rfl
  undated _ _ _ := rfl
  same_manifest _ _ := decide_eq_true rfl
  same_undated m := by cases m <;> rfl
  verified content hcontent time := by
    cases hcontent
    exact bind_eq_ok.mpr ⟨(), lakeCheck_eq_ok.mpr (decide_eq_true rfl), bind_eq_ok.mpr
      ⟨frame, C.readGold_goldParquet frame, bind_eq_ok.mpr
        ⟨(), lakeCheck_eq_ok.mpr (decide_eq_true ⟨rfl, rfl⟩),
          lakeCheck_eq_ok.mpr (decide_eq_true rfl)⟩⟩⟩

/-! ## The steps of the writers -/

variable {P : LakePart β}

theorem lawful_writePartition {key : RawKey} {events : List (RawMarketEvent D)}
    (h : writePartition C dataDir key events = .ok (some P)) : P.Lawful (lakeFormat C dataDir) := by
  unfold writePartition at h
  obtain ⟨-, -, h⟩ := bind_eq_ok.mp h
  obtain ⟨eventsSha256, hsha, h⟩ := bind_eq_ok.mp h
  cases h
  exact rawPart_lawful hsha

theorem lawful_writeRaw (events : List (RawMarketEvent D)) :
    LawfulSteps (lakeFormat C dataDir) (writeRaw C dataDir events) := by
  intro P hP
  unfold writeRaw at hP
  split at hP
  · cases List.mem_singleton.mp hP
  · obtain ⟨key, -, hkey⟩ := List.mem_map.mp hP
    exact lawful_writePartition hkey

theorem lawful_writeSourcePart {rows : List NormalizedMarketEvent}
    {sourceEventsSha256 sourcePartPath utcDate : String}
    (h : writeSourcePart C dataDir rows sourceEventsSha256 sourcePartPath utcDate = .ok (some P)) :
    P.Lawful (lakeFormat C dataDir) := by
  unfold writeSourcePart at h
  split at h
  · cases h
  · unfold writeSilverPart at h
    obtain ⟨stream, -, h⟩ := bind_eq_ok.mp h
    obtain ⟨-, -, h⟩ := bind_eq_ok.mp h
    obtain ⟨normalizerVersion, -, h⟩ := bind_eq_ok.mp h
    obtain ⟨_, hversion, h⟩ := bind_eq_ok.mp h
    obtain ⟨-, -, h⟩ := bind_eq_ok.mp h
    obtain ⟨idsSha256, hsha, h⟩ := bind_eq_ok.mp h
    cases h
    exact silverPart_lawful (lakeCheck_eq_ok.mp hversion) hsha

theorem lawful_writeFeatures {frame : FeatureFrame}
    {featureSet symbol datasetVersion codeVersion : String} :
    LawfulSteps (lakeFormat C dataDir)
      (writeFeatures C dataDir frame featureSet symbol datasetVersion codeVersion) := by
  intro P hP
  unfold writeFeatures at hP
  split at hP
  · cases List.mem_singleton.mp hP
  · obtain ⟨utcDate, -, hdate⟩ := List.mem_map.mp hP
    cases hdate
    exact goldPart_lawful

theorem lawful_normalizeRawLake {normalizers : String → Option (Normalizer D)}
    {source : Lake LakeName β} {exchange marketType : String}
    {symbol channel utcDate : Option String} {minimumFreeBytes : ℤ} {free : ℕ → ℤ} :
    LawfulSteps (lakeFormat C dataDir) (normalizeRawLake C normalizers source dataDir exchange
      marketType symbol channel utcDate minimumFreeBytes free) := by
  intro P hP
  unfold normalizeRawLake at hP
  dsimp only at hP
  split at hP
  · cases List.mem_singleton.mp hP
  · obtain ⟨⟨manifest, i⟩, -, hpart⟩ := List.mem_map.mp hP
    obtain ⟨-, -, hpart⟩ := bind_eq_ok.mp hpart
    obtain ⟨events, -, hpart⟩ := bind_eq_ok.mp hpart
    obtain ⟨rows, -, hpart⟩ := bind_eq_ok.mp hpart
    obtain ⟨-, -, hpart⟩ := bind_eq_ok.mp hpart
    exact lawful_writeSourcePart hpart

/-- A call of a writer, with its input. -/
inductive LakeWrite (D : Digests) (β : Type) where
  | raw (events : List (RawMarketEvent D))
  | silver (rows : List NormalizedMarketEvent) (sourceEventsSha256 sourcePartPath utcDate : String)
  | normalize (normalizers : String → Option (Normalizer D)) (source : Lake LakeName β)
      (exchange marketType : String) (symbol channel utcDate : Option String)
      (minimumFreeBytes : ℤ) (free : ℕ → ℤ)
  | features (frame : FeatureFrame) (featureSet symbol datasetVersion codeVersion : String)

/-- What the call writes, below `data_dir`. -/
def LakeWrite.steps (C : Codec D β) (dataDir : String) : LakeWrite D β → List (LakeStep β)
  | .raw events => writeRaw C dataDir events
  | .silver rows sourceEventsSha256 sourcePartPath utcDate =>
    [writeSourcePart C dataDir rows sourceEventsSha256 sourcePartPath utcDate]
  | .normalize normalizers source exchange marketType symbol channel utcDate minimumFreeBytes free =>
    normalizeRawLake C normalizers source dataDir exchange marketType symbol channel utcDate
      minimumFreeBytes free
  | .features frame featureSet symbol datasetVersion codeVersion =>
    writeFeatures C dataDir frame featureSet symbol datasetVersion codeVersion

theorem LakeWrite.lawful (call : LakeWrite D β) :
    LawfulSteps (lakeFormat C dataDir) (call.steps C dataDir) := by
  cases call with
  | raw events => exact lawful_writeRaw events
  | silver rows sourceEventsSha256 sourcePartPath utcDate =>
    intro P hP
    exact lawful_writeSourcePart (List.mem_singleton.mp hP).symm
  | normalize => exact lawful_normalizeRawLake
  | features => exact lawful_writeFeatures

/-- **Writes of the lake resume** if and only if they return by themselves and were not stopped
between the rename of a part and the rename of its manifest. -/
theorem lake_write_resumes_iff (C : Codec D β) (dataDir : String) (call : LakeWrite D β)
    (lake : Lake LakeName β) (answers answers' : (q : Parts.Query LakeName) → Parts.Answer q)
    (n : ℕ) :
    Resumes (lakeFormat C dataDir) answers answers' (call.steps C dataDir) lake n ↔
      (∃ lake', Completes (lakeFormat C dataDir) answers (call.steps C dataDir) lake lake') ∧
        halfway (stoppedAt (lakeFormat C dataDir) answers (call.steps C dataDir) lake n).2 = none :=
  resumes_iff lakeFormat_lawful call.lawful n

section Sample

/-- Files that are what was written. -/
inductive SamplePiece (D : Digests) where
  | raw (rows : List (RawMarketEvent D))
  | silver (rows : List NormalizedMarketEvent)
  | gold (frame : GoldFrame)
  | rawManifest (m : RawPartManifest)
  | silverManifest (m : NormalizedPartManifest)
  | goldManifest (m : FeaturePartManifest)

def sampleCodec (D : Digests) : Codec D (SamplePiece D) where
  fileSha256 _ := ""
  rawParquet rows := [.raw rows]
  readRaw
    | [.raw rows] => .ok rows
    | _ => .error .osError
  silverParquet rows := [.silver rows]
  readSilver
    | [.silver rows] => .ok rows
    | _ => .error .osError
  goldParquet frame := [.gold frame]
  readGold
    | [.gold frame] => .ok frame
    | _ => .error .osError
  rawJson m := [.rawManifest m]
  loadsRaw
    | [.rawManifest m] => .ok m
    | _ => .error .osError
  silverJson m := [.silverManifest m]
  loadsSilver
    | [.silverManifest m] => .ok m
    | _ => .error .osError
  goldJson m := [.goldManifest m]
  loadsGold
    | [.goldManifest m] => .ok m
    | _ => .error .osError
  frameJson _ := ""
  readRaw_rawParquet _ := rfl
  readSilver_silverParquet _ := rfl
  readGold_goldParquet _ := rfl
  loadsRaw_rawJson _ := rfl
  loadsSilver_silverJson _ := rfl
  loadsGold_goldJson _ := rfl

/-- One event, to an empty lake. -/
def sampleWrite : LakeWrite (digestOf []) (SamplePiece (digestOf [])) :=
  .raw [sampleRaw "c" "a" 1 1 sampleConnection_ne Int.one_pos Int.one_pos]

def sampleLakeAnswers : (q : Parts.Query LakeName) → Parts.Answer q
  | .uuid _ => (0 : ℕ)
  | .settle _ => ()
  | .now _ => "2026-01-01T00:00:00+00:00"

def emptyLake {D : Digests} : Lake LakeName (SamplePiece D) := ⟨[], List.nodup_nil⟩

theorem sampleWrite_halfway :
    (halfway (stoppedAt (lakeFormat (sampleCodec (digestOf [])) "data") sampleLakeAnswers
      (sampleWrite.steps (sampleCodec (digestOf [])) "data") emptyLake 8).2).isSome = true := by
  decide +kernel

theorem sampleWrite_returns :
    ((writeSteps (lakeFormat (sampleCodec (digestOf [])) "data")
      (sampleWrite.steps (sampleCodec (digestOf [])) "data")).run
        (answer (lakeFormat (sampleCodec (digestOf [])) "data") sampleLakeAnswers)
          (emptyLake, [])).1.toOption.isSome = true := by
  decide +kernel

/-- The write returns, but not after a stop between its two renames. -/
theorem lake_write_stuck :
    (∃ lake', Completes (lakeFormat (sampleCodec (digestOf [])) "data") sampleLakeAnswers
      (sampleWrite.steps (sampleCodec (digestOf [])) "data") emptyLake lake') ∧
    ¬ Resumes (lakeFormat (sampleCodec (digestOf [])) "data") sampleLakeAnswers sampleLakeAnswers
      (sampleWrite.steps (sampleCodec (digestOf [])) "data") emptyLake 8 := by
  constructor
  · have hreturns := sampleWrite_returns
    unfold Completes
    rcases hrun : (writeSteps (lakeFormat (sampleCodec (digestOf [])) "data")
        (sampleWrite.steps (sampleCodec (digestOf [])) "data")).run
          (answer (lakeFormat (sampleCodec (digestOf [])) "data") sampleLakeAnswers)
            (emptyLake, []) with ⟨e | manifests, lake', log⟩
    · rw [hrun] at hreturns
      cases hreturns
    · exact ⟨lake', manifests, log, rfl⟩
  · intro h
    have hnone := ((resumes_iff lakeFormat_lawful sampleWrite.lawful 8).mp h).2
    have hsome := sampleWrite_halfway
    rw [hnone] at hsome
    cases hsome

end Sample

end Greenfield.Data
