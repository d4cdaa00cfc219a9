import Greenfield.Data.ArchiveRotation
import Mathlib.Data.List.Dedup

/-!
# The rotation keeps the bytes of the source

A call writes to temporaries, to its two reports and to copies that were absent (`Stable`), until
all copies are verified and the manifest is written. Only then it removes source files, and
each of them has a verified copy (`Pruning`).
-/

namespace Greenfield.Data.Rotation

open Effects Files Py

/-! ## Paths -/

section Paths

variable {f : String → String} {root p : Path}

theorem mapName_append (hp : p ≠ []) : mapName f (root ++ p) = root ++ mapName f p := by
  unfold mapName name
  rw [List.dropLast_append_of_ne_nil hp, List.append_assoc, List.getLastD_eq_getLast?,
    List.getLast?_append_of_ne_nil _ hp, ← List.getLastD_eq_getLast?]

@[simp] theorem name_mapName : name (mapName f p) = f (name p) := by
  simp [name, mapName]

theorem name_append (hp : p ≠ []) : name (root ++ p) = name p := by
  unfold name
  rw [List.getLastD_eq_getLast?, List.getLast?_append_of_ne_nil _ hp, ← List.getLastD_eq_getLast?]

theorem endsWith_temporary : endsWith ".part" (name (temporary p)) = true := by
  unfold temporary endsWith
  rw [name_mapName, List.isSuffixOf_iff_suffix, String.toList_append]
  exact List.suffix_append ..

/-- A name does not end in two suffixes of which none ends in the other. -/
theorem endsWith_other {a b text : String} (h : endsWith a text = true)
    (hab : ¬ a.toList <:+ b.toList) (hba : ¬ b.toList <:+ a.toList) : endsWith b text = false := by
  by_contra hb
  unfold endsWith at h hb
  rw [Bool.not_eq_false, List.isSuffixOf_iff_suffix] at hb
  rw [List.isSuffixOf_iff_suffix] at h
  rcases List.suffix_or_suffix_of_suffix h hb with hs | hs
  · exact hab hs
  · exact hba hs

/-- Without `.manifest.json` the name of a Bronze manifest ends in `.zip`. -/
theorem endsWith_removeSuffix {text : String} (h : endsWith ".zip.manifest.json" text = true) :
    endsWith ".zip" (removeSuffix ".manifest.json" text) = true := by
  unfold endsWith at h ⊢
  rw [List.isSuffixOf_iff_suffix] at h ⊢
  obtain ⟨stem, hstem⟩ := h
  have hsplit : ".zip.manifest.json".toList = ".zip".toList ++ ".manifest.json".toList := by decide
  have hlong : (".manifest.json".length : Nat) = 14 := by decide
  have hlength : text.length - ".manifest.json".length = (stem ++ ".zip".toList).length := by
    rw [← String.length_toList, ← hstem, hlong]
    simp
  have htext : (removeSuffix ".manifest.json" text).toList = stem ++ ".zip".toList := by
    rw [removeSuffix, hlength, ← hstem, hsplit, ← List.append_assoc, List.take_left,
      String.toList_ofList]
  exact ⟨stem, htext.symm⟩

end Paths

/-! ## Sources and copies -/

variable (data backup : Path)

/-- The relative path of a file that can be rotated: it is not a temporary. -/
def Rotated (rel : Path) : Prop := 2 ≤ rel.length ∧ endsWith ".part" (name rel) = false

/-- The reports of a call, in the directory of its period. -/
def reports : List String := ["rotation-manifest.json", "prune-evidence.json"]

/-- A path of the backup that is neither a temporary nor a report. -/
def Copy (q : Path) : Prop :=
  endsWith ".part" (name q) = false ∧
    ∃ rel, q = backup ++ rel ∧ ∀ period, ∀ file ∈ reports, rel ≠ [period, file]

/-- A path that is neither in the source nor such a path of the backup. -/
def Scratch (q : Path) : Prop := ¬ data <+: q ∧ ¬ Copy backup q

/-- The data directory and the backup are outside each other. -/
def Apart : Prop := ¬ data <+: backup ∧ ¬ backup <+: data

variable {data backup}

theorem Apart.not_source (h : Apart data backup) (rel : Path) : ¬ data <+: backup ++ rel := by
  intro hpre
  rcases List.prefix_or_prefix_of_prefix hpre (List.prefix_append backup rel) with h' | h'
  · exact h.1 h'
  · exact h.2 h'

variable {rel : Path}

theorem Rotated.ne_nil (h : Rotated rel) : rel ≠ [] := by
  rintro rfl
  exact absurd h.1 (by decide)

/-- The temporary of a file of the backup. -/
theorem scratch_temporary (h : Apart data backup) (hrel : rel ≠ []) :
    Scratch data backup (temporary (backup ++ rel)) := by
  have htemp : temporary (backup ++ rel) = backup ++ temporary rel := mapName_append hrel
  refine ⟨htemp ▸ h.not_source _, ?_⟩
  rintro ⟨hpart, -⟩
  rw [endsWith_temporary] at hpart
  cases hpart

theorem scratch_report (h : Apart data backup) (period : String) {file : String}
    (hfile : file ∈ reports) : Scratch data backup (backup ++ [period] ++ [file]) := by
  rw [List.append_assoc]
  refine ⟨h.not_source _, ?_⟩
  rintro ⟨-, rel, heq, hrel⟩
  exact hrel period file hfile (List.append_cancel_left heq).symm

theorem copy_of_rotated (period : String) (h : Rotated rel) :
    Copy backup (backup ++ [period] ++ rel) := by
  refine ⟨(congrArg _ (name_append h.ne_nil)).trans h.2, period :: rel, by simp, ?_⟩
  rintro period' file - heq
  have hlength := congrArg List.length heq
  have := h.1
  simp only [List.length_cons, List.length_nil] at hlength
  omega

variable {f : Path}

theorem Apart.not_copy (h : Apart data backup) (hf : data <+: f) : ¬ Copy backup f := by
  rintro ⟨-, rel, rfl, -⟩
  exact h.not_source _ hf

/-! ## Stable properties -/

abbrev World := Store Path UInt8 × List (Event Path UInt8)

abbrev traced : Sem (Files.Op Path UInt8 Query) (Res Path UInt8 Answer) PyError World :=
  Traced Answer PyError.osError

variable (data backup)

/-- What reading keeps, and writing to scratch paths and to copies that are absent. -/
structure Stable (J : World → Prop) : Prop where
  read : ∀ {s log p c}, s.read p = some c → J (s, log) → J (s, log ++ [.read p c])
  put : ∀ {s log p c}, Scratch data backup p → J (s, log) → J (s.put p c, log)
  unlinked : ∀ {s log p}, Scratch data backup p → J (s, log) →
    J (s.remove p, log ++ [.unlinked p])
  replaced : ∀ {s log p q c}, Scratch data backup p → ¬ data <+: q →
    (Copy backup q → s.read q = none) → J (s, log) →
      J ((s.remove p).put q c, log ++ [.replaced p q])

variable {data backup} {J J' I : World → Prop} {w : World} (F : Formats)

/-- An event that has happened. -/
theorem Stable.and_happened (hJ : Stable data backup J) (e : Event Path UInt8) :
    Stable data backup fun w => J w ∧ e ∈ w.2 where
  read h hw := ⟨hJ.read h hw.1, List.mem_append_left _ hw.2⟩
  put h hw := ⟨hJ.put h hw.1, hw.2⟩
  unlinked h hw := ⟨hJ.unlinked h hw.1, List.mem_append_left _ hw.2⟩
  replaced h hq hnone hw := ⟨hJ.replaced h hq hnone hw.1, List.mem_append_left _ hw.2⟩

theorem Stable.and (hJ : Stable data backup J) (hJ' : Stable data backup J') :
    Stable data backup fun w => J w ∧ J' w where
  read h hw := ⟨hJ.read h hw.1, hJ'.read h hw.2⟩
  put h hw := ⟨hJ.put h hw.1, hJ'.put h hw.2⟩
  unlinked h hw := ⟨hJ.unlinked h hw.1, hJ'.unlinked h hw.2⟩
  replaced h hq hnone hw := ⟨hJ.replaced h hq hnone hw.1, hJ'.replaced h hq hnone hw.2⟩

variable {α : Type}

/-- The temporary is removed whatever becomes of the body. -/
theorem wp_finallyUnlink {temp : Path} {body : FileProg α}
    (hJ : Stable data backup J) (hJ' : Stable data backup J') (hI : ∀ w, J w → I w)
    (hI' : ∀ w, J' w → I w) (htemp : Scratch data backup temp)
    (h : wp traced I body (fun _ => J') (fun _ => J) w) :
    wp traced I (finallyUnlink temp body) (fun _ w => J' w) (fun _ w => J w ∨ J' w) w := by
  refine (wp_bind _).mpr (wp_attempt.mpr (wp_mono (fun _ => id) ?_ ?_ h))
  · rintro a ⟨s, log⟩ hw
    refine (wp_bind _).mpr (wp_unlink (hI' _ hw) ?_ (.inr hw))
    exact hJ'.unlinked htemp hw
  · rintro e ⟨s, log⟩ hw
    refine (wp_bind _).mpr (wp_unlink (hI _ hw) ?_ (.inl hw))
    exact .inl (hJ.unlinked htemp hw)

theorem wp_fileSize (hJ : Stable data backup J) (hI : ∀ w, J w → I w) (p : Path) (hw : J w) :
    wp traced I (fileSize p) (fun _ => J) (fun _ => J) w := by
  obtain ⟨s, log⟩ := w
  exact (wp_bind _).mpr (wp_read (hI _ hw) (fun c hc => hJ.read hc hw) hw)

theorem wp_writeJsonAtomic (hJ : Stable data backup J) (hI : ∀ w, J w → I w) {path : Path}
    (htemp : Scratch data backup (temporary path)) (hpath : Scratch data backup path)
    (value : PyJson) (hw : J w) :
    wp traced I (writeJsonAtomic F path value)
      (fun _ w => J w ∧ .replaced (temporary path) path ∈ w.2) (fun _ => J) w := by
  obtain ⟨s, log⟩ := w
  refine (wp_bind _).mpr (wp_ask (hI _ hw) (fun _ => ?_) hw)
  have hJ' := hJ.and_happened (.replaced (temporary path) path)
  refine wp_mono (fun _ => id) (fun _ _ => id) (fun e w h => h.elim id (·.1))
    (wp_finallyUnlink hJ hJ' hI (fun w h => hI w h.1) htemp ?_)
  refine (wp_bind _).mpr (wp_truncate (hI _ hw) ?_ hw)
  have hput : ∀ c, J (s.put (temporary path) c, log) := fun c => hJ.put htemp hw
  refine (wp_bind _).mpr (wp_append (hI _ (hput _)) (fun c _ => ?_) (fun c => ?_) (hput _))
  · have happended := hJ.put (c := c ++ F.dump value) htemp (hput [])
    refine (wp_bind _).mpr (wp_ask (hI _ happended) (fun _ => ?_) happended)
    refine wp_replace (hI _ happended) (fun c' _ => ⟨?_, ?_⟩) happended
    · exact hJ.replaced htemp hpath.1 (fun hcopy => absurd hcopy hpath.2) happended
    · exact List.mem_append_right _ (List.mem_singleton.mpr rfl)
  · exact hJ.put htemp (hput [])

/-- A copy is made only where there is none. -/
theorem wp_copyVerified (hJ : Stable data backup J) (hI : ∀ w, J w → I w) (source : Path)
    {destination : Path} (htemp : Scratch data backup (temporary destination))
    (hdestination : ¬ data <+: destination) (hcopy : Copy backup destination)
    (expectedSha256 : String) (hw : J w) :
    wp traced I (copyVerified F source destination expectedSha256) (fun _ => J) (fun _ => J) w := by
  obtain ⟨s, log⟩ := w
  refine (wp_bind _).mpr (wp_isFile (hI _ hw) ?_ hw)
  cases hdest : s.read destination with
  | some c =>
    refine (wp_bind _).mpr (wp_read (hI _ hw) (fun c' hc' => ?_) hw)
    exact wp_check.mpr ⟨fun _ => hJ.read hc' hw, fun _ => hJ.read hc' hw⟩
  | none =>
    have hne : destination ≠ temporary destination := fun heq => htemp.2 (heq ▸ hcopy)
    refine (wp_bind _).mpr (wp_ask (hI _ hw) (fun _ => ?_) hw)
    refine wp_mono (fun _ => id) (fun _ _ => id) (fun e w h => h.elim id id)
      (wp_finallyUnlink hJ hJ hI hI htemp ?_)
    refine (wp_bind _).mpr (wp_read (hI _ hw) (fun content hcontent => ?_) hw)
    have hread := hJ.read hcontent hw
    refine (wp_bind _).mpr (wp_create (hI _ hread) (fun _ => ?_) hread)
    have hput : ∀ c, J (s.put (temporary destination) c, log ++ [.read source content]) :=
      fun c => hJ.put htemp hread
    refine (wp_bind _).mpr (wp_append (hI _ (hput _)) (fun c _ => ?_) (fun c => ?_) (hput _))
    · have happended := hJ.put (c := c ++ content) htemp (hput [])
      refine (wp_bind _).mpr (wp_ask (hI _ happended) (fun _ => ?_) happended)
      refine (wp_bind _).mpr (wp_read (hI _ happended) (fun copied hcopied => ?_) happended)
      have hcopied' := hJ.read hcopied happended
      refine (wp_bind _).mpr (wp_check.mpr ⟨fun _ => ?_, fun _ => hcopied'⟩)
      refine wp_replace (hI _ hcopied') (fun c' _ => ?_) hcopied'
      refine hJ.replaced htemp hdestination (fun _ => ?_) hcopied'
      rw [Store.read_put, if_neg hne, Store.read_put, if_neg hne, hdest]
    · exact hJ.put htemp (hput [])

/-! ## Discovery -/

/-- A file of the source that can be rotated. -/
def Source (data f : Path) : Prop := ∃ rel, f = data ++ rel ∧ Rotated rel

theorem mem_rglob {root p : Path} {pattern : String → Bool} {paths : List Path}
    (h : p ∈ rglob root pattern paths) : ∃ rel, p = root ++ rel ∧ rel ≠ [] ∧
      pattern (name p) = true := by
  have hp := (List.mem_filter.mp h).2
  simp only [Bool.and_eq_true, decide_eq_true_eq, List.isPrefixOf_iff_prefix] at hp
  obtain ⟨⟨⟨rel, rfl⟩, hlength⟩, hpattern⟩ := hp
  refine ⟨rel, rfl, ?_, hpattern⟩
  rintro rfl
  simp at hlength

/-- A file of a directory of the lake, by its name. -/
theorem source_of_name {parts rel : Path} (suffix : String) (hparts : 2 ≤ parts.length)
    (hname : endsWith suffix (name (data ++ parts ++ rel)) = true)
    (hpart : ¬ suffix.toList <:+ ".part".toList) (hpart' : ¬ ".part".toList <:+ suffix.toList) :
    Source data (data ++ parts ++ rel) := by
  have hne : parts ++ rel ≠ [] := by
    intro hnil
    rw [List.append_eq_nil_iff] at hnil
    rw [hnil.1] at hparts
    exact absurd hparts (by decide)
  refine ⟨parts ++ rel, List.append_assoc .., ?_, ?_⟩
  · rw [List.length_append]
    omega
  · rw [List.append_assoc, name_append hne] at hname
    exact endsWith_other hname hpart hpart'

/-- The files found so far are of the source. -/
def Discovered (data : Path) (J : World → Prop) (found : Found) (w : World) : Prop :=
  J w ∧ ∀ f ∈ found.files, Source data f

variable {found : Found}

theorem Discovered.add {a b : Path} {bronze silver : List String}
    (h : Discovered data J found w) (ha : Source data a) (hb : Source data b) :
    Discovered data J ⟨found.files ++ [a, b], bronze, silver⟩ w := by
  refine ⟨h.1, fun f hf => ?_⟩
  simp only [List.mem_append, List.mem_cons, List.not_mem_nil, or_false] at hf
  rcases hf with hf | rfl | rfl
  · exact h.2 f hf
  · exact ha
  · exact hb

variable {manifest : Path}

theorem wp_addBronze (hJ : Stable data backup J) (hI : ∀ w, J w → I w) (period : String)
    (hsource : Source data (mapName (removeSuffix ".manifest.json") manifest))
    (hmanifest : Source data manifest) (hw : Discovered data J found w) :
    wp traced I (addBronze F period found manifest) (Discovered data J) (fun _ => J) w := by
  obtain ⟨s, log⟩ := w
  refine (wp_bind _).mpr (wp_read (hI _ hw.1) (fun c hc => ?_) hw.1)
  have hread := hJ.read hc hw.1
  refine (wp_bind _).mpr (wp_lift.mpr ⟨fun raw _ => ?_, fun e _ => hread⟩)
  split
  · split
    · exact ⟨hread, hw.2⟩
    · refine (wp_bind _).mpr (wp_isFile (hI _ hread) ?_ hread)
      refine (wp_bind _).mpr (wp_check.mpr ⟨fun _ => ?_, fun _ => hread⟩)
      exact Discovered.add ⟨hread, hw.2⟩ hsource hmanifest
  · exact ⟨hread, hw.2⟩

theorem wp_addSilver (hJ : Stable data backup J) (hI : ∀ w, J w → I w) (period : String)
    (hsource : Source data (mapName (fun _ => "part.parquet") manifest))
    (hmanifest : Source data manifest) (hw : Discovered data J found w) :
    wp traced I (addSilver F period found manifest) (Discovered data J) (fun _ => J) w := by
  obtain ⟨s, log⟩ := w
  refine (wp_bind _).mpr (wp_read (hI _ hw.1) (fun c hc => ?_) hw.1)
  have hread := hJ.read hc hw.1
  refine (wp_bind _).mpr (wp_lift.mpr ⟨fun raw _ => ?_, fun e _ => hread⟩)
  dsimp only
  split
  · exact ⟨hread, hw.2⟩
  · refine (wp_bind _).mpr (wp_isFile (hI _ hread) ?_ hread)
    refine (wp_bind _).mpr (wp_check.mpr ⟨fun _ => ?_, fun _ => hread⟩)
    exact Discovered.add ⟨hread, hw.2⟩ hsource hmanifest

theorem wp_discoverPeriodFiles (hJ : Stable data backup J) (hI : ∀ w, J w → I w)
    (period : String) (hw : J w) :
    wp traced I (discoverPeriodFiles F data period) (Discovered data J) (fun _ => J) w := by
  obtain ⟨s, log⟩ := w
  refine (wp_bind _).mpr (wp_list (hI _ hw) ?_ hw)
  have hstart : Discovered data J {} (s, log) := ⟨hw, fun f hf => absurd hf List.not_mem_nil⟩
  refine (wp_bind _).mpr (wp_mono (fun _ => id) ?_ (fun _ _ => id)
    (wp_foldEach (J := fun _ => Discovered data J) ?_ hstart))
  · rintro found ⟨s, log⟩ hfound
    refine (wp_bind _).mpr (wp_list (hI _ hfound.1) ?_ hfound.1)
    refine wp_foldEach (J := fun _ => Discovered data J) ?_ hfound
    rintro done manifest rest found w hl hw
    have hmem := mem_rglob (hl ▸ List.mem_append_right done List.mem_cons_self)
    obtain ⟨rel, rfl, hrel, hname⟩ := hmem
    rw [decide_eq_true_eq] at hname
    apply wp_addSilver F hJ hI period _ _ hw
    · rw [mapName_append hrel]
      apply source_of_name ".parquet" (by decide) _ (by decide) (by decide)
      rw [name_append (by simp [mapName]), name_mapName]
      decide
    · apply source_of_name ".json" (by decide) _ (by decide) (by decide)
      rw [hname]
      decide
  · rintro done manifest rest found w hl hw
    have hmem := mem_rglob (hl ▸ List.mem_append_right done List.mem_cons_self)
    obtain ⟨rel, rfl, hrel, hname⟩ := hmem
    apply wp_addBronze F hJ hI period _ _ hw
    · rw [mapName_append hrel]
      apply source_of_name ".zip" (by decide) _ (by decide) (by decide)
      rw [name_append (by simp [mapName]), name_mapName]
      rw [name_append hrel] at hname
      exact endsWith_removeSuffix hname
    · exact source_of_name _ (by decide) hname (by decide) (by decide)

/-! ## Before the source is pruned -/

variable (data backup)

/-- What a call that started from `s₀` has kept: the source, and the copies there were. -/
structure Calm (s₀ : Store Path UInt8) (w : World) : Prop where
  sources : ∀ f, data <+: f → w.1.read f = s₀.read f
  copies : ∀ q c, Copy backup q → s₀.read q = some c → w.1.read q = some c
  log : ∀ f, .unlinked f ∈ w.2 → ¬ data <+: f

variable {data backup} {s₀ : Store Path UInt8}

theorem Calm.start : Calm data backup s₀ (s₀, []) where
  sources _ _ := rfl
  copies _ _ _ h := h
  log _ h := absurd h List.not_mem_nil

variable {s : Store Path UInt8}

variable {p q : Path}

variable {c : Bytes}

/-- Reading a path of `s.put p c` that is not `p`. -/
theorem read_put_ne (h : q ≠ p) :
    (s.put p c).read q = s.read q := by
  rw [Store.read_put, if_neg h]

theorem read_remove_ne (h : q ≠ p) :
    (s.remove p).read q = s.read q := by
  rw [Store.read_remove, if_neg h]

theorem ne_of_source {p f : Path} (hp : ¬ data <+: p) (hf : data <+: f) : f ≠ p :=
  fun heq => hp (heq ▸ hf)

theorem Scratch.ne_copy (h : Scratch data backup p) (hq : Copy backup q) : q ≠ p :=
  fun heq => h.2 (heq ▸ hq)

/-- A copy that there is stays what it is where an absent one is made. -/
theorem read_replaced {p q q' : Path} {c c' : Bytes}
    (hp : Scratch data backup p) (hq : Copy backup q → s.read q = none) (hq' : Copy backup q')
    (h : s.read q' = some c') : ((s.remove p).put q c).read q' = some c' := by
  have hne : q' ≠ q := by
    rintro rfl
    rw [hq hq'] at h
    cases h
  rw [read_put_ne hne, read_remove_ne (hp.ne_copy hq'), h]

theorem Calm.stable : Stable data backup (Calm data backup s₀) where
  read _ hw := ⟨hw.sources, hw.copies, fun f hf => hw.log f (by simpa using hf)⟩
  put hp hw := by
    refine ⟨fun f hf => ?_, fun q c hq hc => ?_, hw.log⟩
    · exact (read_put_ne (ne_of_source hp.1 hf)).trans (hw.sources f hf)
    · exact (read_put_ne (hp.ne_copy hq)).trans (hw.copies q c hq hc)
  unlinked hp hw := by
    refine ⟨fun f hf => ?_, fun q c hq hc => ?_, fun f hf => ?_⟩
    · exact (read_remove_ne (ne_of_source hp.1 hf)).trans (hw.sources f hf)
    · exact (read_remove_ne (hp.ne_copy hq)).trans (hw.copies q c hq hc)
    · rcases List.mem_append.mp hf with hf | hf
      · exact hw.log f hf
      · cases List.mem_singleton.mp hf
        exact hp.1
  replaced hp hq hnone hw := by
    refine ⟨fun f hf => ?_, fun q' c hq' hc => ?_, fun f hf => hw.log f (by simpa using hf)⟩
    · rw [read_put_ne (ne_of_source hq hf), read_remove_ne (ne_of_source hp.1 hf)]
      exact hw.sources f hf
    · exact read_replaced hp hnone hq' (hw.copies q' c hq' hc)

/-- The entries are those of the files, with the digests of their bytes. -/
def Listed (F : Formats) (data : Path) (s₀ : Store Path UInt8) (files : List Path)
    (entries : List Entry) : Prop :=
  entries.map (fun e => data ++ e.path) = files ∧
    ∀ e ∈ entries, ∃ c, s₀.read (data ++ e.path) = some c ∧ F.sha256 c = e.sha256

variable {files : List Path}

theorem wp_entries (hI : ∀ w, Calm data backup s₀ w → I w)
    (hfiles : ∀ f ∈ files, data <+: f) (hw : Calm data backup s₀ w) :
    wp traced I (foldEach (addEntry F data) [] files)
      (fun entries w => Calm data backup s₀ w ∧ Listed F data s₀ files entries)
      (fun _ => Calm data backup s₀) w := by
  refine wp_foldEach (J := fun done entries w => Calm data backup s₀ w ∧
    Listed F data s₀ done entries) ?_ ⟨hw, rfl, fun e he => absurd he List.not_mem_nil⟩
  rintro done file rest entries w hl ⟨hw, hmap, hall⟩
  refine (wp_bind _).mpr (wp_mono (fun _ => id) ?_ (fun _ _ => id)
    (wp_fileSize Calm.stable hI file hw))
  rintro size ⟨s, log⟩ hw
  refine (wp_bind _).mpr (wp_read (hI _ hw) (fun c hc => ?_) hw)
  obtain ⟨rel, rfl⟩ := hfiles file (hl ▸ List.mem_append_right done List.mem_cons_self)
  refine ⟨Calm.stable.read hc hw, ?_, ?_⟩
  · rw [List.map_append, hmap, List.map_singleton, List.drop_left]
  · intro e he
    rcases List.mem_append.mp he with he | he
    · exact hall e he
    · cases List.mem_singleton.mp he
      rw [List.drop_left]
      exact ⟨c, (hw.sources _ (List.prefix_append data rel)).symm.trans hc, rfl⟩

/-- The copies that were read have the digests of the entries. -/
theorem wp_verifyCopies (hJ : Stable data backup J) (hI : ∀ w, J w → I w) (root : Path) :
    ∀ (entries : List Entry) {w : World}, J w →
      wp traced I (verifyCopies F root entries) (fun b w' => J w' ∧ w'.1 = w.1 ∧ w.2 <+: w'.2 ∧
        (b = true → ∀ e ∈ entries, ∃ c, w.1.read (root ++ e.path) = some c ∧
          F.sha256 c = e.sha256 ∧ .read (root ++ e.path) c ∈ w'.2)) (fun _ => J) w
  | [], w, hw => ⟨hw, rfl, List.prefix_refl _, fun _ e he => absurd he List.not_mem_nil⟩
  | entry :: entries, (s, log), hw => by
    refine (wp_bind _).mpr (wp_read (hI _ hw) (fun c hc => ?_) hw)
    have hread := hJ.read hc hw
    split
    · next hsha =>
      refine wp_mono (fun _ => id) ?_ (fun _ _ => id)
        (wp_verifyCopies hJ hI root entries hread)
      rintro b w' ⟨hw', hs, hlog, hall⟩
      refine ⟨hw', hs, (List.prefix_append _ _).trans hlog, fun hb => ?_⟩
      refine List.forall_mem_cons.mpr ⟨⟨c, hc, hsha, ?_⟩, hall hb⟩
      exact hlog.subset (List.mem_append_right _ (List.mem_singleton.mpr rfl))
    · exact ⟨hread, rfl, List.prefix_append _ _, fun hb => by cases hb⟩

/-! ## While the source is pruned -/

variable (data backup)

/-- The copies of the entries in `root` have the bytes of the sources, and were read. -/
def Copied (s₀ : Store Path UInt8) (root : Path) (entries : List Entry) (w : World) : Prop :=
  ∀ e ∈ entries, ∃ c, s₀.read (data ++ e.path) = some c ∧ w.1.read (root ++ e.path) = some c ∧
    .read (root ++ e.path) c ∈ w.2

/-- A call with the copies of the entries and the record `pre`, which has removed no other file
of the source since then. -/
structure Pruning (s₀ : Store Path UInt8) (root : Path) (entries : List Entry)
    (pre : List (Event Path UInt8)) (w : World) : Prop where
  copies : ∀ q c, Copy backup q → s₀.read q = some c → w.1.read q = some c
  sources : ∀ f, data <+: f → w.1.read f = s₀.read f ∨ ∃ e ∈ entries, f = data ++ e.path
  copied : Copied data s₀ root entries w
  log : ∃ more, w.2 = pre ++ more ∧
    ∀ f, .unlinked f ∈ more → data <+: f → ∃ e ∈ entries, f = data ++ e.path

variable {data backup} {root : Path} {entries : List Entry} {pre : List (Event Path UInt8)}

/-- Copies that are left as they are stay copied. -/
theorem Copied.of_read {s s' : Store Path UInt8} {log log' : List (Event Path UInt8)}
    (h : Copied data s₀ root entries (s, log))
    (hread : ∀ e ∈ entries, ∀ c, s.read (root ++ e.path) = some c →
      s'.read (root ++ e.path) = some c) (hlog : log <+: log') :
    Copied data s₀ root entries (s', log') := by
  intro e he
  obtain ⟨c, hsource, hcopy, hmem⟩ := h e he
  exact ⟨c, hsource, hread e he c hcopy, hlog.subset hmem⟩

theorem Copied.stable (hcopies : ∀ e ∈ entries, Copy backup (root ++ e.path)) :
    Stable data backup (Copied data s₀ root entries) where
  read _ hw := hw.of_read (fun _ _ _ h => h) (List.prefix_append _ _)
  put hp hw := hw.of_read (fun e he _ hc =>
    (read_put_ne (hp.ne_copy (hcopies e he))).trans hc) (List.prefix_refl _)
  unlinked hp hw := hw.of_read (fun e he _ hc =>
    (read_remove_ne (hp.ne_copy (hcopies e he))).trans hc) (List.prefix_append _ _)
  replaced hp _ hnone hw := hw.of_read (fun e he _ hc =>
    read_replaced hp hnone (hcopies e he) hc) (List.prefix_append _ _)

variable {w : World}

/-- An event that removes no other file of the source is recorded. -/
theorem Pruning.log_append (h : Pruning data backup s₀ root entries pre w)
    {e : Event Path UInt8} (he : ∀ f, e = .unlinked f → data <+: f →
      ∃ entry ∈ entries, f = data ++ entry.path) :
    ∃ more, w.2 ++ [e] = pre ++ more ∧
      ∀ f, .unlinked f ∈ more → data <+: f → ∃ entry ∈ entries, f = data ++ entry.path := by
  obtain ⟨more, hlog, hmore⟩ := h.log
  refine ⟨more ++ [e], by rw [hlog, List.append_assoc], fun f hf hsource => ?_⟩
  rcases List.mem_append.mp hf with hf | hf
  · exact hmore f hf hsource
  · exact he f (List.mem_singleton.mp hf).symm hsource

theorem Pruning.stable (hcopies : ∀ e ∈ entries, Copy backup (root ++ e.path)) :
    Stable data backup (Pruning data backup s₀ root entries pre) where
  read h hw := ⟨hw.copies, hw.sources, (Copied.stable hcopies).read h hw.copied,
    hw.log_append fun f hf => by cases hf⟩
  put hp hw := by
    refine ⟨fun q c hq hc => ?_, fun f hf => ?_, (Copied.stable hcopies).put hp hw.copied, hw.log⟩
    · exact (read_put_ne (hp.ne_copy hq)).trans (hw.copies q c hq hc)
    · rw [read_put_ne (ne_of_source hp.1 hf)]
      exact hw.sources f hf
  unlinked hp hw := by
    refine ⟨fun q c hq hc => ?_, fun f hf => ?_, (Copied.stable hcopies).unlinked hp hw.copied,
      hw.log_append fun f hf => ?_⟩
    · exact (read_remove_ne (hp.ne_copy hq)).trans (hw.copies q c hq hc)
    · rw [read_remove_ne (ne_of_source hp.1 hf)]
      exact hw.sources f hf
    · cases hf
      exact fun hsource => absurd hsource hp.1
  replaced hp hq hnone hw := by
    refine ⟨fun q' c hq' hc => ?_, fun f hf => ?_,
      (Copied.stable hcopies).replaced hp hq hnone hw.copied,
      hw.log_append fun f hf => by cases hf⟩
    · exact read_replaced hp hnone hq' (hw.copies q' c hq' hc)
    · rw [read_put_ne (ne_of_source hq hf), read_remove_ne (ne_of_source hp.1 hf)]
      exact hw.sources f hf

/-- A file of an entry can be removed. -/
theorem Pruning.prune (hapart : Apart data backup)
    (hcopies : ∀ e ∈ entries, Copy backup (root ++ e.path)) {entry : Entry}
    (hentry : entry ∈ entries) {log : List (Event Path UInt8)}
    (hw : Pruning data backup s₀ root entries pre (s, log)) :
    Pruning data backup s₀ root entries pre
      (s.remove (data ++ entry.path), log ++ [.unlinked (data ++ entry.path)]) := by
  have hne : ∀ {q}, Copy backup q → q ≠ data ++ entry.path := fun hq heq =>
    hapart.not_copy (List.prefix_append data entry.path) (heq ▸ hq)
  refine ⟨fun q c hq hc => ?_, fun f hf => ?_, ?_, hw.log_append fun f hf _ => ?_⟩
  · exact (read_remove_ne (hne hq)).trans (hw.copies q c hq hc)
  · by_cases hfile : f = data ++ entry.path
    · exact .inr ⟨entry, hentry, hfile⟩
    · rw [read_remove_ne hfile]
      exact hw.sources f hf
  · exact hw.copied.of_read (fun e he c hc => (read_remove_ne (hne (hcopies e he))).trans hc)
      (List.prefix_append _ _)
  · cases hf
    exact ⟨entry, hentry, rfl⟩

/-! ## Safety -/

variable (data backup)

/-- The bytes are in a copy, which was read. -/
def Saved (w : World) (f : Path) (c : Bytes) : Prop :=
  ∃ period rel, f = data ++ rel ∧ Rotated rel ∧
    w.1.read (backup ++ [period] ++ rel) = some c ∧ .read (backup ++ [period] ++ rel) c ∈ w.2

/-- Before `f` was removed, the copies of 48 files, of which it is one, were read with the bytes
of their sources, and the manifest was put in its place. -/
def Complete (s₀ : Store Path UInt8) (f : Path) (pre : List (Event Path UInt8)) : Prop :=
  ∃ (period : String) (rels : List Path), rels.Nodup ∧ rels.length = 48 ∧ (∃ rel ∈ rels, f = data ++ rel) ∧
    (∀ rel ∈ rels, ∃ c, s₀.read (data ++ rel) = some c ∧
      .read (backup ++ [period] ++ rel) c ∈ pre) ∧
    .replaced (temporary (backup ++ [period] ++ ["rotation-manifest.json"]))
      (backup ++ [period] ++ ["rotation-manifest.json"]) ∈ pre

/-- What holds wherever a call that started from `s₀` stops. -/
structure Safe (s₀ : Store Path UInt8) (w : World) : Prop where
  kept : ∀ f c, data <+: f → s₀.read f = some c → w.1.read f = some c ∨ Saved data backup w f c
  ordered : ∀ pre f post, w.2 = pre ++ .unlinked f :: post → data <+: f →
    Complete data backup s₀ f pre
  copies : ∀ q c, Copy backup q → s₀.read q = some c → w.1.read q = some c

variable {data backup}

theorem Calm.safe (h : Calm data backup s₀ w) : Safe data backup s₀ w where
  kept f c hf hc := .inl ((h.sources f hf).trans hc)
  ordered pre f post heq hf := by
    refine absurd hf (h.log f ?_)
    rw [heq]
    exact List.mem_append_right _ List.mem_cons_self
  copies := h.copies

/-- What is not in the first part of a list is after it. -/
theorem prefix_of_split {as bs xs ys : List α} {a : α}
    (h : as ++ bs = xs ++ a :: ys) (ha : a ∉ as) : as <+: xs ∧ a ∈ bs := by
  rcases List.append_eq_append_iff.mp h with ⟨zs, rfl, hbs⟩ | ⟨zs, hxs, hys⟩
  · refine ⟨List.prefix_append as zs, ?_⟩
    rw [hbs]
    exact List.mem_append_right _ List.mem_cons_self
  · cases zs with
    | nil =>
      rw [List.append_nil] at hxs
      rw [List.nil_append] at hys
      exact ⟨hxs ▸ List.prefix_refl _, hys ▸ List.mem_cons_self⟩
    | cons z zs =>
      cases hys
      rw [hxs] at ha
      exact absurd (List.mem_append_right _ List.mem_cons_self) ha

variable {period : String}

theorem Pruning.safe (hrotated : ∀ e ∈ entries, Rotated e.path)
    (hnodup : (entries.map (·.path)).Nodup) (hlength : entries.length = 48)
    (hquiet : ∀ f, .unlinked f ∈ pre → ¬ data <+: f)
    (hread : ∀ e ∈ entries, ∃ c, s₀.read (data ++ e.path) = some c ∧
      .read (backup ++ [period] ++ e.path) c ∈ pre)
    (hmanifest : .replaced (temporary (backup ++ [period] ++ ["rotation-manifest.json"]))
      (backup ++ [period] ++ ["rotation-manifest.json"]) ∈ pre)
    (h : Pruning data backup s₀ (backup ++ [period]) entries pre w) :
    Safe data backup s₀ w where
  kept f c hf hc := by
    rcases h.sources f hf with heq | ⟨e, he, rfl⟩
    · exact .inl (heq.trans hc)
    · obtain ⟨c', hsource, hcopy, hmem⟩ := h.copied e he
      cases hc.symm.trans hsource
      exact .inr ⟨period, e.path, rfl, hrotated e he, hcopy, hmem⟩
  ordered before f post heq hf := by
    obtain ⟨more, hlog, hmore⟩ := h.log
    obtain ⟨hpre, hmem⟩ := prefix_of_split (hlog.symm.trans heq) fun hin => hquiet f hin hf
    obtain ⟨e, he, rfl⟩ := hmore f hmem hf
    refine ⟨period, entries.map (·.path), hnodup, by rw [List.length_map, hlength],
      ⟨e.path, List.mem_map_of_mem he, rfl⟩, fun rel hrel => ?_, hpre.subset hmanifest⟩
    obtain ⟨e', he', rfl⟩ := List.mem_map.mp hrel
    obtain ⟨c, hsource, hmem'⟩ := hread e' he'
    exact ⟨c, hsource, hpre.subset hmem'⟩
  copies := h.copies

theorem wp_addMissing (hJ : Stable data backup J) (hI : ∀ w, J w → I w) (root : Path) (total : Nat)
    (entry : Entry) (hw : J w) :
    wp traced I (addMissing data root total entry) (fun _ => J) (fun _ => J) w := by
  obtain ⟨s, log⟩ := w
  refine (wp_bind _).mpr (wp_isFile (hI _ hw) ?_ hw)
  split
  · exact hw
  · exact (wp_bind _).mpr (wp_mono (fun _ => id) (fun _ _ => id) (fun _ _ => id)
      (wp_fileSize hJ hI _ hw))

/-- The source is pruned, and the evidence written. -/
theorem wp_prune (hapart : Apart data backup)
    (hcopies : ∀ e ∈ entries, Copy backup (backup ++ [period] ++ e.path))
    (hI : ∀ w, Pruning data backup s₀ (backup ++ [period]) entries pre w → I w) (value : PyJson)
    (hw : Pruning data backup s₀ (backup ++ [period]) entries pre w) :
    wp traced I (foldEach (fun _ entry => op (.unlink (data ++ entry.path) false)) () entries >>=
        fun _ => writeJsonAtomic F (backup ++ [period] ++ ["prune-evidence.json"]) value >>=
          fun _ => Prog.ret value)
      (fun _ => Pruning data backup s₀ (backup ++ [period]) entries pre)
      (fun _ => Pruning data backup s₀ (backup ++ [period]) entries pre) w := by
  refine (wp_bind _).mpr (wp_mono (fun _ => id) ?_ (fun _ _ => id) (wp_foldEach
    (J := fun _ _ => Pruning data backup s₀ (backup ++ [period]) entries pre) ?_ hw))
  · rintro _ w hw
    refine (wp_bind _).mpr (wp_mono (fun _ => id) (fun _ _ h => h.1) (fun _ _ => id)
      (wp_writeJsonAtomic F (Pruning.stable hcopies) hI ?_ ?_ value hw))
    · rw [List.append_assoc]
      exact scratch_temporary hapart (List.cons_ne_nil _ _)
    · exact scratch_report hapart period (by decide)
  · rintro done entry rest _ ⟨s, log⟩ hl hw
    have hentry : entry ∈ entries := hl ▸ List.mem_append_right done List.mem_cons_self
    exact wp_unlink (hI _ hw) (hw.prune hapart hcopies hentry) hw

/-- A rotation of listed files keeps them safe. -/
theorem wp_copyAndPrune (hsha : Function.Injective F.sha256) (hapart : Apart data backup)
    (period : String) (pruneSource : Bool) (totalBytes : Nat)
    (hfiles : ∀ f ∈ files, Source data f) (hnodup : files.Nodup) (hlength : files.length = 48)
    (hlisted : Listed F data s₀ files entries) (hw : Calm data backup s₀ w) :
    wp traced (Safe data backup s₀) (copyAndPrune F data backup period pruneSource entries totalBytes)
      (fun _ => Safe data backup s₀) (fun _ => Safe data backup s₀) w := by
  have hI : ∀ w, Calm data backup s₀ w → Safe data backup s₀ w := fun w h => h.safe
  have hrotated : ∀ e ∈ entries, Rotated e.path := by
    intro e he
    obtain ⟨rel, heq, hrel⟩ := hfiles _ (hlisted.1 ▸ List.mem_map_of_mem he)
    exact List.append_cancel_left heq ▸ hrel
  have hcopies : ∀ e ∈ entries, Copy backup (backup ++ [period] ++ e.path) :=
    fun e he => copy_of_rotated period (hrotated e he)
  have hpaths : (entries.map (·.path)).Nodup := by
    rw [← hlisted.1] at hnodup
    apply List.Nodup.of_map (f := fun rel => data ++ rel)
    rw [List.map_map]
    exact hnodup
  have hcount : entries.length = 48 := by
    rw [← hlength, ← hlisted.1, List.length_map]
  refine (wp_bind _).mpr (wp_mono (fun _ => id) ?_ (fun _ => hI) (wp_foldEach
    (J := fun _ _ => Calm data backup s₀) ?_ hw))
  swap
  · rintro done entry rest total w - hw
    exact wp_addMissing Calm.stable hI _ total entry hw
  rintro missing ⟨s, log⟩ hw
  refine (wp_bind _).mpr (wp_ask (hI _ hw) (fun free => ?_) (hI _ hw))
  refine (wp_bind _).mpr (wp_check.mpr ⟨fun _ => ?_, fun _ => hI _ hw⟩)
  refine (wp_bind _).mpr (wp_mono (fun _ => id) ?_ (fun _ => hI) (wp_foldEach
    (J := fun _ _ => Calm data backup s₀) ?_ hw))
  swap
  · rintro done entry rest _ w hl hw
    have hentry : entry ∈ entries := hl ▸ List.mem_append_right done List.mem_cons_self
    refine wp_copyVerified F Calm.stable hI _ ?_ ?_ (hcopies entry hentry) _ hw
    · rw [List.append_assoc]
      exact scratch_temporary hapart (by simp)
    · rw [List.append_assoc]
      exact hapart.not_source _
  rintro _ w hw
  refine (wp_bind _).mpr (wp_mono (fun _ => id) ?_ (fun _ => hI)
    (wp_verifyCopies F Calm.stable hI _ entries hw))
  rintro qualified ⟨s', log'⟩ ⟨hw', hs, -, hverified⟩
  refine (wp_bind _).mpr (wp_check.mpr ⟨fun hqualified => ?_, fun _ => hI _ hw'⟩)
  refine (wp_bind _).mpr (wp_ask (hI _ hw') (fun now => ?_) (hI _ hw'))
  -- the copies that were read have the bytes of the sources
  have hcopied : Copied data s₀ (backup ++ [period]) entries (s', log') := by
    intro e he
    obtain ⟨c, hsource, hdigest⟩ := hlisted.2 e he
    obtain ⟨c', hcopy, hdigest', hmem⟩ := hverified hqualified e he
    cases hsha (hdigest'.trans hdigest.symm)
    exact ⟨c, hsource, (congrArg (Store.read · _) hs).trans hcopy, hmem⟩
  have hstable : Stable data backup fun w => Calm data backup s₀ w ∧
      Copied data s₀ (backup ++ [period]) entries w := Calm.stable.and (Copied.stable hcopies)
  refine (wp_bind _).mpr (wp_mono (fun _ => id) ?_ (fun _ w h => hI w h.1)
    (wp_writeJsonAtomic F hstable (fun w h => hI w h.1) ?_ ?_ _ ⟨hw', hcopied⟩))
  · rintro _ w ⟨⟨hcalm, hcopied⟩, hmanifest⟩
    have hread : ∀ e ∈ entries, ∃ c, s₀.read (data ++ e.path) = some c ∧
        .read (backup ++ [period] ++ e.path) c ∈ w.2 := by
      intro e he
      obtain ⟨c, hsource, -, hmem⟩ := hcopied e he
      exact ⟨c, hsource, hmem⟩
    have hsafe : ∀ w', Pruning data backup s₀ (backup ++ [period]) entries w.2 w' →
        Safe data backup s₀ w' :=
      fun w' h => h.safe hrotated hpaths hcount hcalm.log hread hmanifest
    split
    · have hpruning : Pruning data backup s₀ (backup ++ [period]) entries w.2 w :=
        ⟨hcalm.copies, fun f hf => .inl (hcalm.sources f hf), hcopied, [],
          (List.append_nil _).symm, fun f hf => absurd hf List.not_mem_nil⟩
      exact wp_mono (fun _ => id) (fun _ => hsafe) (fun _ => hsafe)
        (wp_prune F hapart hcopies hsafe _ hpruning)
    · exact hcalm.safe
  · rw [List.append_assoc]
    exact scratch_temporary hapart (List.cons_ne_nil _ _)
  · exact scratch_report hapart period (by decide)

/-- A call keeps the files safe, wherever it stops. -/
theorem wp_rotateBinanceArchiveMonth (hsha : Function.Injective F.sha256) (data backup : Path)
    (period : String) (execute pruneSource : Bool) (s₀ : Store Path UInt8) :
    wp traced (Safe data backup s₀)
      (rotateBinanceArchiveMonth F data backup period execute pruneSource)
      (fun _ => Safe data backup s₀) (fun _ => Safe data backup s₀) (s₀, []) := by
  have hI : ∀ w, Calm data backup s₀ w → Safe data backup s₀ w := fun w h => h.safe
  have hstart : Calm data backup s₀ (s₀, []) := Calm.start
  refine (wp_bind _).mpr (wp_check.mpr ⟨fun houtside => ?_, fun _ => hI _ hstart⟩)
  have hapart : Apart data backup := by
    simpa [Apart, ← List.isPrefixOf_iff_prefix] using houtside
  refine (wp_bind _).mpr (wp_mono (fun _ => id) ?_ (fun _ => hI)
    (wp_discoverPeriodFiles F Calm.stable hI period hstart))
  rintro found w ⟨hw, hfound⟩
  refine (wp_bind _).mpr (wp_check.mpr ⟨fun _ => ?_, fun _ => hI _ hw⟩)
  refine (wp_bind _).mpr (wp_check.mpr ⟨fun hcount => ?_, fun _ => hI _ hw⟩)
  rw [decide_eq_true_eq] at hcount
  have hfiles : ∀ f ∈ sorted (fun a b => decide (a ≤ b)) found.files.dedup, Source data f :=
    fun f hf => hfound f (List.mem_dedup.mp (mem_sorted.mp hf))
  have hprefix : ∀ f ∈ sorted (fun a b => decide (a ≤ b)) found.files.dedup, data <+: f := by
    intro f hf
    obtain ⟨rel, rfl, -⟩ := hfiles f hf
    exact List.prefix_append data rel
  have hnodup : (sorted (fun a b => decide (a ≤ b)) found.files.dedup).Nodup :=
    (List.perm_insertionSort _ _).nodup_iff.mpr (List.nodup_dedup _)
  refine (wp_bind _).mpr (wp_mono (fun _ => id) ?_ (fun _ => hI)
    (wp_entries F hI hprefix hw))
  rintro entries w ⟨hw, hlisted⟩
  refine (wp_bind _).mpr (wp_mono (fun _ => id) ?_ (fun _ => hI)
    (wp_foldEach (J := fun _ _ => Calm data backup s₀) ?_ hw))
  · rintro totalBytes w hw
    split
    · exact wp_copyAndPrune F hsha hapart period pruneSource totalBytes hfiles hnodup hcount
        hlisted hw
    · exact hI _ hw
  · rintro done file rest total w - hw
    exact (wp_bind _).mpr (wp_mono (fun _ => id) (fun _ _ => id) (fun _ _ => id)
      (wp_fileSize Calm.stable hI file hw))

/-! ## Calls -/

/-- A call of any period, with or without pruning, that stops anywhere. -/
def Called (F : Formats) (data backup : Path) (w w' : World) : Prop :=
  ∃ period execute pruneSource p',
    Steps traced (rotateBinanceArchiveMonth F data backup period execute pruneSource) w p' w'

theorem Saved.mono {new : List (Event Path UInt8)}
    (log : List (Event Path UInt8)) (h : Saved data backup (s, new) f c) :
    Saved data backup (s, log ++ new) f c := by
  obtain ⟨period, rel, hf, hrel, hcopy, hread⟩ := h
  exact ⟨period, rel, hf, hrel, hcopy, List.mem_append_right _ hread⟩

/-- What one call does, from any record. -/
theorem safe_of_steps (hsha : Function.Injective F.sha256)
    {execute pruneSource : Bool} {p' : FileProg PyJson} {w w' : World}
    (h : Steps traced (rotateBinanceArchiveMonth F data backup period execute pruneSource) w p' w') :
    ∃ new, w'.2 = w.2 ++ new ∧ Safe data backup w.1 (w'.1, new) := by
  obtain ⟨new, hnew, hsteps⟩ := steps_log h
  refine ⟨new, hnew, ?_⟩
  have hcrash := wp_crash (hsteps []) (wp_rotateBinanceArchiveMonth F hsha data backup period
    execute pruneSource w.1)
  exact hcrash

/-- What calls keep of the files there were at the start. -/
theorem kept_of_called (hsha : Function.Injective F.sha256)
    (h : Relation.ReflTransGen (Called F data backup) (s₀, []) w) :
    (∀ f c, data <+: f → s₀.read f = some c →
      w.1.read f = some c ∨ Saved data backup w f c) ∧
    ∀ q c, Copy backup q → s₀.read q = some c → w.1.read q = some c := by
  induction h with
  | refl => exact ⟨fun f c _ hc => .inl hc, fun q c _ hc => hc⟩
  | @tail w w' _ hcall ih =>
    obtain ⟨period, execute, pruneSource, p', hsteps⟩ := hcall
    obtain ⟨new, hnew, hsafe⟩ := safe_of_steps F hsha hsteps
    refine ⟨fun f c hf hc => ?_, fun q c hq hc => hsafe.copies q c hq (ih.2 q c hq hc)⟩
    rcases ih.1 f c hf hc with hsource | ⟨period', rel, rfl, hrel, hcopy, hread⟩
    · refine (hsafe.kept f c hf hsource).imp_right fun hsaved => ?_
      have hmono := hsaved.mono w.2
      rw [← hnew] at hmono
      exact hmono
    · refine .inr ⟨period', rel, rfl, hrel, ?_, ?_⟩
      · exact hsafe.copies _ c (copy_of_rotated period' hrel) hcopy
      · rw [hnew]
        exact List.mem_append_left _ hread

/-- The character of a byte. -/
def byteChar (b : UInt8) : Char := ⟨b.toUInt32, .inl (by
  have := b.toNat_lt
  rw [UInt8.toNat_toUInt32]
  omega)⟩

/-- A digest that keeps the bytes apart, and no manifest. -/
def sampleFormats : Formats where
  loads _ := .ok []
  dump _ := []
  sha256 bytes := String.ofList (bytes.map byteChar)
  str _ := ""

theorem sampleFormats_injective : Function.Injective sampleFormats.sha256 := by
  intro a b h
  have hchars := String.ofList_injective h
  refine List.map_injective_iff.mpr (fun x y hxy => ?_) hchars
  have hval : x.toUInt32 = y.toUInt32 := congrArg Char.val hxy
  have hnat := congrArg UInt32.toNat hval
  rw [UInt8.toNat_toUInt32, UInt8.toNat_toUInt32] at hnat
  exact UInt8.toNat_inj.mp hnat

/-- An archive in the source, and another one in the backup of the month. -/
def sampleStore : Store Path UInt8 where
  rows := [(["data", "external", "binance-public-data", "a.zip"], [1, 2]),
    (["backup", "2026-07", "external", "binance-public-data", "a.zip"], [3])]
  nodup := by decide

/-- The call that executes and prunes the month, until it is done. -/
def sampleCall : FileProg PyJson × World :=
  runOps (handleTraced .osError fun | .free => 2 ^ 40 | .now => "" | .settle => ()) 4
    (rotateBinanceArchiveMonth sampleFormats ["data"] ["backup"] "2026-07" true true)
    (sampleStore, [])

end Greenfield.Data.Rotation
