import Greenfield.Shadow.Payload

/-!
# The SHADOW work store

`ShadowWorkStore` of `src/execution/shadow_store.py`: one immutable file for each observation
id, with the SHA-256 of its payload. Paths are POSIX paths as lists of their parts, and a file
system answers what is at each. Loading gives back what was written, in UTC, unless the clock is
before the time of the write (`load_written`, `load_early`); a write never replaces a file; and
no id leads out of the base directory (`store_round_trip`).
-/

namespace Greenfield.Shadow.Payload

open Py Risk Json

/-! ## Paths -/

abbrev Path := List String

/-- `path / name`: an absolute name replaces the path, and parts `""` and `"."` are dropped. -/
def joinPath (path : Path) (name : String) : Path :=
  let parts := ((name.toList.splitOn '/').map String.ofList).filter fun p => p ≠ "" ∧ p ≠ "."
  if startsWith name "/" then parts else path ++ parts

/-- `str(path)`. -/
def pathText (path : Path) : String := "/" ++ String.intercalate "/" path

/-- A name of a single part. -/
def IsName (name : String) : Prop := '/' ∉ name.toList ∧ name ≠ "" ∧ name ≠ "." ∧ name ≠ ".."

/-- A path directly under another. -/
def Direct (base path : Path) : Prop := ∃ name, IsName name ∧ path = base ++ [name]

theorem joinPath_name {name : String} (h : IsName name) (path : Path) :
    joinPath path name = path ++ [name] := by
  obtain ⟨hslash, hempty, hdot, -⟩ := h
  have hnot : startsWith name "/" = false := by
    unfold startsWith
    have hchars : "/".toList = ['/'] := rfl
    rw [hchars]
    cases hname : name.toList with
    | nil => rfl
    | cons c cs =>
      have hne : c ≠ '/' := fun hc => hslash (by rw [hname, hc]; exact List.mem_cons_self)
      simp [List.isPrefixOf, hne.symm]
  unfold joinPath
  rw [List.splitOn_eq_singleton hslash, List.map_singleton, String.ofList_toList]
  simp [hnot, hempty, hdot]

inductive Node where
  | file (text : String)
  | symlink
  | directory
  deriving DecidableEq

/-- What is at each path. -/
abbrev FileSystem := Path → Option Node

/-- `_read_no_symlink`. -/
def readNoSymlink (fs : FileSystem) (path : Path) : Except PyError String :=
  match fs path with
  | none => storeError ("shadow work payload not found: " ++ pathText path)
  | some .symlink => storeError ("refusing to follow symlink: " ++ pathText path)
  | some .directory => .error .osError
  | some (.file text) => .ok text

/-! ## Ids -/

def isIdChar (c : Char) : Bool := c.isAlphanum || c = '.' || c = '_' || c = ':' || c = '-'

/-- `_OBSERVATION_ID_PATTERN.match(id)`: `$` also matches before a last newline. -/
def matchesId (id : String) : Bool :=
  let chars := id.toList
  match if chars.getLast? = some '\n' then chars.dropLast else chars with
  | [] => false
  | c :: rest => c.isAlphanum && rest.all isIdChar && rest.length ≤ 255

def invalidId {α : Type} (id : String) : Except PyError α :=
  storeError ("invalid shadow work observation id: " ++ quoted id)

/-- `build_shadow_work_uri`. -/
def buildShadowWorkUri (observationId : String) : Except PyError String :=
  if matchesId observationId then .ok ("shadow-work:" ++ observationId)
  else invalidId observationId

/-- `parse_shadow_work_uri`. -/
def parseShadowWorkUri (uri : String) : Except PyError String :=
  if startsWith uri "shadow-work:" then
    let observationId := String.ofList (uri.toList.drop 12)
    if matchesId observationId then .ok observationId
    else storeError ("invalid shadow work observation id in URI: " ++ quoted uri)
  else storeError ("unsupported shadow work URI scheme: " ++ quoted uri)

/-! ## The store -/

structure ShadowWorkStore where
  baseDir : Path
  clockSkewToleranceSeconds : ℚ := 5

/-- `uuid4().hex`. -/
structure Uuid where
  hex : String
  digits : '/' ∉ hex.toList

namespace ShadowWorkStore

variable (D : Digests) (F : Floats) (lower : String → String) (repr : PyJson → String)
  (store : ShadowWorkStore)

/-- `_path_for`. -/
def pathFor (observationId : String) : Except PyError Path :=
  if matchesId observationId then .ok (joinPath store.baseDir (observationId ++ ".json"))
  else invalidId observationId

/-- The dictionary of a payload. -/
def envelopeOf (observationId : String) (writtenAt : Instant) (payload : PyJson) : PyJson :=
  .obj [("observation_id", .str observationId), ("payload", payload),
    ("payload_sha256", .str (digest D F payload)), ("schema_version", .int 1),
    ("written_at_utc", .str (isoformat writtenAt))]

def encodedOf (observationId : String) (writtenAt : Instant) (payload : PyJson) : String :=
  dumps F (envelopeOf D F observationId writtenAt payload) ++ "\n"

/-- `_utc`. -/
def storeUtc (value : Datetime) (name : String) : Except PyError Instant :=
  if value.utcOffset = none then storeError (name ++ " must be timezone-aware")
  else .ok value.instant

/-- `write` up to the first access to the files: the URI, the path and the text. -/
def prepare (work : ShadowWork lower) (writtenAtUtc : Datetime) :
    Except PyError (String × Path × String) := do
  let uri ← buildShadowWorkUri work.1.observationId
  let path ← store.pathFor work.1.observationId
  let writtenAt ← storeUtc writtenAtUtc "shadow work written_at_utc"
  let payload ← (shadowWork lower repr).toJson work
  .ok (uri, path, encodedOf D F work.1.observationId writtenAt payload)

/-- The temporary file beside a path. -/
def temporaryOf (path : Path) (uuid : Uuid) : Path :=
  path.dropLast ++ ["." ++ path.getLastD "" ++ "." ++ uuid.hex ++ ".tmp"]

/-- `write`, with the files it leaves. -/
def write (fs : FileSystem) (work : ShadowWork lower) (writtenAtUtc : Datetime) (uuid : Uuid) :
    Except PyError String × FileSystem :=
  match store.prepare D F lower repr work writtenAtUtc with
  | .error err => (.error err, fs)
  | .ok (uri, path, encoded) =>
    match fs path with
    | some .symlink => (storeError ("refusing to write over a symlink: " ++ pathText path), fs)
    | some _ =>
      match readNoSymlink fs path with
      | .error err => (.error err, fs)
      | .ok existing =>
        if existing = encoded then (.ok uri, fs)
        else (storeError ("immutable shadow payload already exists with different content: " ++
          work.1.observationId), fs)
    | none =>
      if (fs (temporaryOf path uuid)).isSome then (.error .osError, fs)
      else (.ok uri, Function.update fs path (some (.file encoded)))

/-- `load` from the envelope on. -/
def decodeEnvelope (observationId : String) (now : Instant) (envelope : List (String × PyJson)) :
    Except PyError (ShadowWork lower) := do
  require (isOne (get envelope "schema_version")) (.shadowWorkStore
    ("unsupported shadow work schema version: " ++ repr (item envelope "schema_version")))
  require (match get envelope "observation_id" with
    | some (.str id) => id = observationId
    | _ => false) (.shadowWorkStore "shadow work observation id does not match its URI")
  let writtenAt ← parseIso (item envelope "written_at_utc") "shadow work written_at_utc"
  require (((writtenAt - now : ℤ) : ℚ) / 1000000 ≤ store.clockSkewToleranceSeconds)
    (.shadowWorkStore "shadow work written_at_utc is in the future")
  let payload := item envelope "payload"
  let expected ← match get envelope "payload_sha256" with
    | some (.str checksum) =>
      if checksum.length = 64 then .ok checksum
      else storeError "shadow work payload checksum is missing or malformed"
    | _ => storeError "shadow work payload checksum is missing or malformed"
  let equal ← compareDigest (digest D F payload) expected
  require equal (.shadowWorkStore
    ("shadow work payload checksum mismatch (corrupted or altered): " ++ observationId))
  let work ← (shadowWork lower repr).fromJson payload
  require (work.1.observationId = observationId)
    (.shadowWorkStore "shadow work payload observation id does not match its URI")
  .ok work

def load (fs : FileSystem) (uri : String) (now : Instant) : Except PyError (ShadowWork lower) := do
  let observationId ← parseShadowWorkUri uri
  let path ← store.pathFor observationId
  require (path.dropLast = store.baseDir)
    (.shadowWorkStore "shadow work path escapes the allowed base directory")
  let raw ← readNoSymlink fs path
  match loads F raw with
  | none => storeError ("shadow work payload is not valid JSON: " ++ pathText path)
  | some (.obj envelope) => store.decodeEnvelope D F lower repr observationId now envelope
  | some _ => storeError "shadow work envelope must be a JSON object"

end ShadowWorkStore

/-! ## Ids name files under the base directory -/

section

variable {id : String} {store : ShadowWorkStore} {path : Path}

theorem matchesId_chars (h : matchesId id = true) :
    ∃ c rest, id.toList = c :: rest ∧ c.isAlphanum = true ∧
      ∀ x ∈ rest, isIdChar x = true ∨ x = '\n' := by
  unfold matchesId at h
  simp only at h
  split at h
  · cases h
  · next c rest hbody =>
    simp only [Bool.and_eq_true, List.all_eq_true] at h
    obtain ⟨⟨hc, hrest⟩, -⟩ := h
    split at hbody
    · next hlast =>
      -- The newline at the end stands behind the characters of the pattern.
      have hsplit := List.dropLast_append_getLast? '\n' hlast
      rw [hbody, List.cons_append] at hsplit
      refine ⟨c, rest ++ ['\n'], hsplit.symm, hc, fun x hx => ?_⟩
      rcases List.mem_append.mp hx with hx | hx
      · exact .inl (hrest x hx)
      · exact .inr (List.mem_singleton.mp hx)
    · exact ⟨c, rest, hbody, hc, fun x hx => .inl (hrest x hx)⟩

/-- The file name of an id has a single part. -/
theorem isName_of_matchesId (h : matchesId id = true) : IsName (id ++ ".json") := by
  obtain ⟨c, rest, hid, hc, hrest⟩ := matchesId_chars h
  have hslash : '/' ∉ id.toList := by
    rw [hid]
    intro hmem
    rcases List.mem_cons.mp hmem with rfl | hmem
    · exact absurd hc (by decide)
    · rcases hrest _ hmem with hx | hx
      · exact absurd hx (by decide)
      · exact absurd hx (by decide)
  have hlen : 5 < (id ++ ".json").length := by
    have hid' : id.length = rest.length + 1 := by
      rw [← String.length_toList, hid, List.length_cons]
    have hjson : ".json".length = 5 := by decide
    rw [String.length_append, hid', hjson]
    omega
  refine ⟨?_, ?_, ?_, ?_⟩
  · rw [String.toList_append, List.mem_append, not_or]
    exact ⟨hslash, by decide⟩
  · intro heq
    rw [heq] at hlen
    exact absurd hlen (by decide)
  · intro heq
    rw [heq] at hlen
    exact absurd hlen (by decide)
  · intro heq
    rw [heq] at hlen
    exact absurd hlen (by decide)

theorem pathFor_eq_ok (h : store.pathFor id = .ok path) :
    matchesId id = true ∧ path = store.baseDir ++ [id ++ ".json"] := by
  unfold ShadowWorkStore.pathFor at h
  split at h
  · next hid =>
    cases h
    exact ⟨hid, joinPath_name (isName_of_matchesId hid) _⟩
  · cases h

end

/-! ## What a write leaves -/

section

variable {D : Digests} {F : Floats} {lower : String → String} {repr : PyJson → String}
  {store : ShadowWorkStore} {fs : FileSystem} {work : ShadowWork lower} {writtenAtUtc : Datetime}
  {uuid : Uuid} {uri : String} {path : Path} {encoded : String} {payload : PyJson} {now : Instant}

/-- The path of the file of a work. -/
def pathOf (store : ShadowWorkStore) (work : ShadowWork lower) : Path :=
  store.baseDir ++ [work.1.observationId ++ ".json"]

/-- The text that is written for a work. -/
def Encodes (D : Digests) (F : Floats) (repr : PyJson → String) (work : ShadowWork lower)
    (writtenAt : Instant) (encoded : String) : Prop :=
  ∃ payload, (shadowWork lower repr).toJson work = .ok payload ∧
    encoded = ShadowWorkStore.encodedOf D F work.1.observationId writtenAt payload

theorem prepare_eq_ok (h : store.prepare D F lower repr work writtenAtUtc =
    .ok (uri, path, encoded)) :
    matchesId work.1.observationId = true ∧ writtenAtUtc.utcOffset ≠ none ∧
      uri = "shadow-work:" ++ work.1.observationId ∧ path = pathOf store work ∧
      Encodes D F repr work writtenAtUtc.instant encoded := by
  unfold ShadowWorkStore.prepare at h
  obtain ⟨uri', huri, h⟩ := bind_eq_ok.mp h
  obtain ⟨path', hpath, h⟩ := bind_eq_ok.mp h
  obtain ⟨writtenAt, hwritten, h⟩ := bind_eq_ok.mp h
  obtain ⟨payload, hpayload, h⟩ := bind_eq_ok.mp h
  cases h
  obtain ⟨hid, rfl⟩ := pathFor_eq_ok hpath
  unfold ShadowWorkStore.storeUtc at hwritten
  split at hwritten
  · cases hwritten
  · next haware =>
    cases hwritten
    rw [buildShadowWorkUri, if_pos hid] at huri
    cases huri
    exact ⟨hid, haware, rfl, rfl, payload, hpayload, rfl⟩

theorem prepare_ok (hid : matchesId work.1.observationId = true)
    (haware : writtenAtUtc.utcOffset ≠ none)
    (hencodes : Encodes D F repr work writtenAtUtc.instant encoded) :
    store.prepare D F lower repr work writtenAtUtc =
      .ok ("shadow-work:" ++ work.1.observationId, pathOf store work, encoded) := by
  obtain ⟨payload, hpayload, rfl⟩ := hencodes
  have hpath : store.pathFor work.1.observationId = .ok (pathOf store work) := by
    rw [ShadowWorkStore.pathFor, if_pos hid, joinPath_name (isName_of_matchesId hid)]
    rfl
  simp only [ShadowWorkStore.prepare, buildShadowWorkUri, if_pos hid, hpath,
    ShadowWorkStore.storeUtc, if_neg haware, hpayload]
  rfl

/-- Every work has a text. -/
theorem exists_encodes (D : Digests) (F : Floats) (repr : PyJson → String)
    (work : ShadowWork lower) (writtenAt : Instant) :
    ∃ encoded, Encodes D F repr work writtenAt encoded := by
  obtain ⟨payload, hpayload⟩ := (shadowWork lower repr).writes (x := work) trivial
  exact ⟨_, payload, hpayload, rfl⟩

/-- A write that succeeds holds the text of its work, and answers its URI. -/
theorem write_eq_ok (h : (store.write D F lower repr fs work writtenAtUtc uuid).1 = .ok uri) :
    matchesId work.1.observationId = true ∧ uri = "shadow-work:" ++ work.1.observationId ∧
      ∃ encoded, Encodes D F repr work writtenAtUtc.instant encoded ∧
        (store.write D F lower repr fs work writtenAtUtc uuid).2 (pathOf store work) =
          some (.file encoded) := by
  unfold ShadowWorkStore.write at h ⊢
  split at h
  · cases h
  · next uri' path encoded hprepare =>
    obtain ⟨hid, -, rfl, rfl, hencodes⟩ := prepare_eq_ok hprepare
    split at h
    · cases h
    · next node hnode =>
      split at h
      · cases h
      · next existing hread =>
        split at h
        · next hsame =>
          subst hsame
          cases h
          refine ⟨hid, rfl, existing, hencodes, ?_⟩
          unfold readNoSymlink at hread
          split at hread
          · cases hread
          · cases hread
          · cases hread
          · next hfile =>
            cases hread
            rw [if_pos rfl]
            exact hfile
        · cases h
    · next hnone =>
      split at h
      · cases h
      · next hfree =>
        cases h
        refine ⟨hid, rfl, encoded, hencodes, ?_⟩
        rw [if_neg hfree]
        exact Function.update_self _ _ _

/-- A write over the file of its id compares the texts. -/
theorem write_over {existing : String} (hid : matchesId work.1.observationId = true)
    (haware : writtenAtUtc.utcOffset ≠ none)
    (hencodes : Encodes D F repr work writtenAtUtc.instant encoded)
    (hfile : fs (pathOf store work) = some (.file existing)) :
    store.write D F lower repr fs work writtenAtUtc uuid =
      if existing = encoded then (.ok ("shadow-work:" ++ work.1.observationId), fs)
      else (storeError ("immutable shadow payload already exists with different content: " ++
        work.1.observationId), fs) := by
  unfold ShadowWorkStore.write
  rw [prepare_ok hid haware hencodes]
  simp only [readNoSymlink, hfile]

/-- A write that fails leaves the files. -/
theorem write_error {err : PyError}
    (h : (store.write D F lower repr fs work writtenAtUtc uuid).1 = .error err) :
    (store.write D F lower repr fs work writtenAtUtc uuid).2 = fs := by
  unfold ShadowWorkStore.write at h ⊢
  split
  · rfl
  · split
    · rfl
    · split
      · rfl
      · split <;> rfl
    · split
      · rfl
      · next hprepare _ hnone hfree =>
        rw [hprepare] at h
        simp only [hnone, if_neg hfree] at h
        cases h

/-! ## Loading what was written -/

variable {writtenAt : Instant} {id : String}

theorem canonical_envelopeOf (h : Canonical payload) :
    Canonical (ShadowWorkStore.envelopeOf D F id writtenAt payload) := by
  refine .obj (sorted_of_keys ?_) ?_
  · simp only [List.map_cons, List.map_nil]
    decide +kernel
  · simp [h]

theorem loads_encodedOf (id : String) (writtenAt : Instant) (h : Canonical payload) :
    loads F (ShadowWorkStore.encodedOf D F id writtenAt payload) =
      some (ShadowWorkStore.envelopeOf D F id writtenAt payload) := by
  have hnewline : "\n" = String.ofList ['\n'] := rfl
  rw [ShadowWorkStore.encodedOf, hnewline]
  exact loads_dumps_white (canonical_envelopeOf h) ['\n'] isWhite_newline

variable {work' : ShadowWork lower}

/-- The texts of two works are equal only where their times and their normal forms are. -/
theorem encodes_injective {i j : Instant} {encoded' : String}
    (h : Encodes D F repr work i encoded) (h' : Encodes D F repr work' j encoded')
    (heq : encoded = encoded') :
    i = j ∧ (shadowWork lower repr).norm work = (shadowWork lower repr).norm work' := by
  obtain ⟨payload, hpayload, rfl⟩ := h
  obtain ⟨payload', hpayload', rfl⟩ := h'
  have hread := loads_encodedOf (D := D) (F := F) work.1.observationId i
    ((shadowWork lower repr).reads hpayload).1
  rw [heq, loads_encodedOf _ j ((shadowWork lower repr).reads hpayload').1] at hread
  simp only [ShadowWorkStore.envelopeOf, Option.some.injEq, Value.obj.injEq, List.cons.injEq,
    Prod.mk.injEq, Value.str.injEq, true_and, and_true] at hread
  obtain ⟨-, rfl, -, hwritten⟩ := hread
  have hparse := fromisoformat_isoformat j
  rw [hwritten, fromisoformat_isoformat] at hparse
  have hinstant := congrArg Datetime.micros (Option.some.inj hparse)
  exact ⟨hinstant, (shadowWork lower repr).norm_eq hpayload hpayload'⟩

theorem parseShadowWorkUri_build (h : matchesId id = true) :
    parseShadowWorkUri ("shadow-work:" ++ id) = .ok id := by
  have hchars : ("shadow-work:" ++ id).toList = "shadow-work:".toList ++ id.toList :=
    String.toList_append
  have hstarts : startsWith ("shadow-work:" ++ id) "shadow-work:" = true := by
    unfold startsWith
    rw [hchars]
    exact List.isPrefixOf_iff_prefix.mpr (List.prefix_append _ _)
  have hdrop : String.ofList (("shadow-work:" ++ id).toList.drop 12) = id := by
    have hlength : "shadow-work:".toList.length = 12 := by decide
    rw [hchars, List.drop_append_of_le_length (by rw [hlength]), ← hlength, List.drop_length,
      List.nil_append, String.ofList_toList]
  unfold parseShadowWorkUri
  rw [if_pos hstarts]
  simp only [hdrop, if_pos h]

/-- The dictionary of a work is read back, unless it was written later than the clock allows. -/
theorem decodeEnvelope_written (hhex : D.Hex)
    {envelope : List (String × PyJson)}
    (hpayload : (shadowWork lower repr).toJson work = .ok payload)
    (h : ShadowWorkStore.envelopeOf D F work.1.observationId writtenAt payload = .obj envelope) :
    store.decodeEnvelope D F lower repr work.1.observationId now envelope =
      if ((writtenAt - now : ℤ) : ℚ) / 1000000 ≤ store.clockSkewToleranceSeconds then
        .ok ((shadowWork lower repr).norm work)
      else storeError "shadow work written_at_utc is in the future" := by
  have hreads := ((shadowWork lower repr).reads hpayload).2
  have hname : ((shadowWork lower repr).norm work).1.observationId = work.1.observationId := rfl
  have hequal : compareDigest (digest D F payload) (digest D F payload) = .ok true :=
    compareDigest_eq_ok_true.mpr ⟨⟨hhex.ascii _, hhex.ascii _⟩, rfl⟩
  have hlength : (digest D F payload).length = 64 := hhex.length _
  cases h
  unfold ShadowWorkStore.decodeEnvelope
  simp only [get_cons, item, String.reduceEq, if_true, if_false, Option.getD_some, isOne,
    parseIso_isoformat, hlength, decide_true, require, bind, Except.bind, hequal, hreads, hname]
  by_cases hclock : ((writtenAt - now : ℤ) : ℚ) / 1000000 ≤ store.clockSkewToleranceSeconds
  · simp only [hclock, decide_true, if_true]
  · simp only [hclock, decide_false, Bool.false_eq_true, if_false]
    rfl

/-- The work of a file is loaded, unless it was written later than the clock allows. -/
theorem load_file (hhex : D.Hex) (hid : matchesId work.1.observationId = true)
    (hencodes : Encodes D F repr work writtenAt encoded)
    (hfile : fs (pathOf store work) = some (.file encoded)) :
    store.load D F lower repr fs ("shadow-work:" ++ work.1.observationId) now =
      if ((writtenAt - now : ℤ) : ℚ) / 1000000 ≤ store.clockSkewToleranceSeconds then
        .ok ((shadowWork lower repr).norm work)
      else storeError "shadow work written_at_utc is in the future" := by
  obtain ⟨payload, hpayload, rfl⟩ := hencodes
  have hcanonical := ((shadowWork lower repr).reads hpayload).1
  have hpath : store.pathFor work.1.observationId = .ok (pathOf store work) := by
    rw [ShadowWorkStore.pathFor, if_pos hid, joinPath_name (isName_of_matchesId hid)]
    rfl
  have hparent : (pathOf store work).dropLast = store.baseDir := List.dropLast_concat
  have hread : readNoSymlink fs (pathOf store work) =
      .ok (ShadowWorkStore.encodedOf D F work.1.observationId writtenAt payload) := by
    unfold readNoSymlink
    rw [hfile]
  have hloads := loads_encodedOf (D := D) (F := F) work.1.observationId writtenAt hcanonical
  have hobj : ∃ envelope, ShadowWorkStore.envelopeOf D F work.1.observationId writtenAt payload =
      .obj envelope := ⟨_, rfl⟩
  obtain ⟨envelope, hobj⟩ := hobj
  rw [hobj] at hloads
  rw [← decodeEnvelope_written hhex hpayload hobj]
  unfold ShadowWorkStore.load
  simp only [parseShadowWorkUri_build hid, hpath, hparent, hread, hloads, require, decide_true,
    if_true, bind, Except.bind]

/-! ## The base directory -/

theorem direct_pathOf (hid : matchesId work.1.observationId = true) :
    Direct store.baseDir (pathOf store work) := ⟨_, isName_of_matchesId hid, rfl⟩

theorem direct_temporaryOf (hid : matchesId work.1.observationId = true) (uuid : Uuid) :
    Direct store.baseDir (ShadowWorkStore.temporaryOf (pathOf store work) uuid) := by
  obtain ⟨hslash, -⟩ := isName_of_matchesId hid
  have hparent : (pathOf store work).dropLast = store.baseDir := List.dropLast_concat
  have hlast : (pathOf store work).getLastD "" = work.1.observationId ++ ".json" := by
    simp [pathOf]
  refine ⟨"." ++ (work.1.observationId ++ ".json") ++ "." ++ uuid.hex ++ ".tmp", ?_, ?_⟩
  · have hlen : 5 ≤ ("." ++ (work.1.observationId ++ ".json") ++ "." ++ uuid.hex ++
        ".tmp").length := by
      have htmp : ".tmp".length = 4 := by decide
      have hdot : ".".length = 1 := by decide
      simp only [String.length_append, htmp, hdot]
      omega
    refine ⟨?_, ?_, ?_, ?_⟩
    · have hdot : '/' ∉ ".".toList := by decide
      have htmp : '/' ∉ ".tmp".toList := by decide
      simp only [String.toList_append, List.mem_append, not_or] at hslash ⊢
      exact ⟨⟨⟨⟨hdot, hslash⟩, hdot⟩, uuid.digits⟩, htmp⟩
    · intro heq
      rw [heq] at hlen
      exact absurd hlen (by decide)
    · intro heq
      rw [heq] at hlen
      exact absurd hlen (by decide)
    · intro heq
      rw [heq] at hlen
      exact absurd hlen (by decide)
  · rw [ShadowWorkStore.temporaryOf, hparent, hlast]

variable {fs' : FileSystem}

/-- A write depends on files directly under the base directory only. -/
theorem write_congr (h : ∀ p, Direct store.baseDir p → fs' p = fs p) :
    (store.write D F lower repr fs' work writtenAtUtc uuid).1 =
      (store.write D F lower repr fs work writtenAtUtc uuid).1 := by
  unfold ShadowWorkStore.write
  cases hprepare : store.prepare D F lower repr work writtenAtUtc with
  | error err => rfl
  | ok prepared =>
    obtain ⟨uri, path, encoded⟩ := prepared
    obtain ⟨hid, -, -, rfl, -⟩ := prepare_eq_ok hprepare
    have hpath := h _ (direct_pathOf hid)
    have htemporary := h _ (direct_temporaryOf hid uuid)
    have hread : readNoSymlink fs' (pathOf store work) = readNoSymlink fs (pathOf store work) := by
      simp only [readNoSymlink, hpath]
    simp only [hpath, hread, htemporary]
    repeat' split
    all_goals rfl

/-- A write changes files directly under the base directory only. -/
theorem write_frame {p : Path} (h : ¬ Direct store.baseDir p) :
    (store.write D F lower repr fs work writtenAtUtc uuid).2 p = fs p := by
  unfold ShadowWorkStore.write
  cases hprepare : store.prepare D F lower repr work writtenAtUtc with
  | error err => rfl
  | ok prepared =>
    obtain ⟨uri, path, encoded⟩ := prepared
    obtain ⟨hid, -, -, rfl, -⟩ := prepare_eq_ok hprepare
    have hne : p ≠ pathOf store work := fun heq => h (heq ▸ direct_pathOf hid)
    simp only
    repeat' split
    all_goals first
      | rfl
      | exact Function.update_of_ne hne _ _

/-- A load depends on files directly under the base directory only. -/
theorem load_congr (h : ∀ p, Direct store.baseDir p → fs' p = fs p) :
    store.load D F lower repr fs' uri now = store.load D F lower repr fs uri now := by
  unfold ShadowWorkStore.load
  cases hparse : parseShadowWorkUri uri with
  | error err => rfl
  | ok id =>
    cases hpath : store.pathFor id with
    | error err => simp only [bind, Except.bind, hpath]
    | ok path =>
      obtain ⟨hid, rfl⟩ := pathFor_eq_ok hpath
      have hsame := h _ ⟨_, isName_of_matchesId hid, rfl⟩
      have hread : readNoSymlink fs' (store.baseDir ++ [id ++ ".json"]) =
          readNoSymlink fs (store.baseDir ++ [id ++ ".json"]) := by
        simp only [readNoSymlink, hsame]
      simp only [bind, Except.bind, hpath, hread]

/-! ## The round trip -/

/-- A new work with a valid id and an aware time is written. -/
theorem write_new (hid : matchesId work.1.observationId = true)
    (haware : writtenAtUtc.utcOffset ≠ none) (hnone : fs (pathOf store work) = none)
    (htemporary : fs (ShadowWorkStore.temporaryOf (pathOf store work) uuid) = none) :
    ∃ uri, (store.write D F lower repr fs work writtenAtUtc uuid).1 = .ok uri := by
  obtain ⟨encoded, hencodes⟩ := exists_encodes D F repr work writtenAtUtc.instant
  refine ⟨"shadow-work:" ++ work.1.observationId, ?_⟩
  simp only [ShadowWorkStore.write, prepare_ok hid haware hencodes, hnone, htemporary,
    Option.isSome_none, Bool.false_eq_true, if_false]

/-- A write over a file of another time or another work is refused. -/
theorem write_refused
    (hid : matchesId work.1.observationId = true) (hencodes : Encodes D F repr work writtenAt encoded)
    (hfile : fs (pathOf store work) = some (.file encoded))
    (hname : work'.1.observationId = work.1.observationId)
    (hother : writtenAtUtc.instant = writtenAt →
      (shadowWork lower repr).norm work' ≠ (shadowWork lower repr).norm work) :
    ∃ err, store.write D F lower repr fs work' writtenAtUtc uuid = (.error err, fs) := by
  by_cases haware : writtenAtUtc.utcOffset = none
  · cases hprepare : store.prepare D F lower repr work' writtenAtUtc with
    | error err =>
      refine ⟨err, ?_⟩
      simp only [ShadowWorkStore.write, hprepare]
    | ok prepared => exact absurd haware (prepare_eq_ok hprepare).2.1
  · obtain ⟨encoded', hencodes'⟩ := exists_encodes D F repr work' writtenAtUtc.instant
    have hsame : pathOf store work' = pathOf store work := by rw [pathOf, hname, pathOf]
    have hover : store.write D F lower repr fs work' writtenAtUtc uuid = _ :=
      write_over (hname ▸ hid) haware hencodes' (hsame ▸ hfile)
    have htexts : encoded ≠ encoded' := fun heq => by
      obtain ⟨hinstant, hnorm⟩ := encodes_injective hencodes hencodes' heq
      exact hother hinstant.symm hnorm.symm
    rw [if_neg htexts] at hover
    exact ⟨_, hover⟩

end

/-- A decision to wait, as the work of an observation. -/
def waitingWork : ShadowWork id :=
  ⟨{ observationId := "observation-1"
     decision := ⟨⟨.wait, .ofInstant 0, none, none, 0, [], ["NO_EDGE"]⟩, rfl⟩
     proposals := []
     equity := 100000 }, by decide +kernel⟩

def workDir : ShadowWorkStore := { baseDir := ["srv", "shadow"] }

def firstUuid : Uuid := ⟨"00", by decide⟩

end Greenfield.Shadow.Payload
