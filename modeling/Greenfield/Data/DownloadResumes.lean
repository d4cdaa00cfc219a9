import Greenfield.Data.ArchiveDownload

/-!
# Downloads that are done again

A call leaves nothing under the name of an archive but bytes with the published checksum, and where
it returns after a download the manifest is in place (`wp_program`). A call that finds the archive
returns without a look at the manifest, so it has to be there (`download_resumes_iff`).
-/

namespace Greenfield.Data.Download

open Effects Files Py

open Rotation (Path Bytes Formats mapName name temporary)

/-! ## Paths -/

section Paths

variable {target : Path} {f g : String → String}

variable (target f g) in
theorem mapName_ne (h : f (name target) ≠ g (name target)) : mapName f target ≠ mapName g target := by
  intro heq
  have hlast := List.append_cancel_left heq
  exact h (List.singleton_inj.mp hlast)

theorem mapName_id (h : target ≠ []) : mapName (fun text => text) target = target := by
  unfold mapName name
  rw [List.getLastD_eq_getLast?, List.getLast?_eq_some_getLast h]
  exact List.dropLast_append_getLast h

theorem append_ne (text suffix : String) (h : suffix ≠ "") : text ++ suffix ≠ text := by
  intro heq
  have hlist := congrArg String.toList heq
  rw [String.toList_append] at hlist
  exact h (String.toList_eq_nil_iff.mp (List.append_right_eq_self.mp hlist))

theorem mapName_append_ne (h : target ≠ []) {suffix : String} (hsuffix : suffix ≠ "") :
    mapName (· ++ suffix) target ≠ target := by
  have hne := mapName_ne target (· ++ suffix) (fun text => text)
    (append_ne _ suffix hsuffix)
  rwa [mapName_id h] at hne

theorem temporary_ne (h : target ≠ []) : temporary target ≠ target :=
  mapName_append_ne h (by decide)

theorem manifestPath_ne (h : target ≠ []) : manifestPath target ≠ target :=
  mapName_append_ne h (by decide)

theorem manifestTemp_ne (h : target ≠ []) : mapName (· ++ ".tmp") (manifestPath target) ≠ target := by
  have heq : mapName (· ++ ".tmp") (manifestPath target) =
      mapName (fun text => text ++ ".manifest.json" ++ ".tmp") target := by
    simp [manifestPath, mapName, name]
  rw [heq]
  have hne := mapName_ne target (fun text => text ++ ".manifest.json" ++ ".tmp")
    (fun text => text) (by
      rw [String.append_assoc]
      exact append_ne _ _ (by decide))
  rwa [mapName_id h] at hne

theorem targetPath_ne_nil (job : BinanceArchiveJob) (dataDir : Path) : job.targetPath dataDir ≠ [] := by
  simp [BinanceArchiveJob.targetPath]

end Paths

/-! ## A new archive -/

/-- The metadata of an archive with this checksum are in place. -/
def HasManifest (F : Formats) (s : Store Path UInt8) (target : Path) (expected : String) : Prop :=
  ∃ m : ArchiveMetadata, m.contentSha256 = expected ∧
    s.read (manifestPath target) = some (F.dump m.json)

/-- What is there under the name of the archive has the checksum. -/
def Checked (F : Formats) (target : Path) (expected : String) (s : Store Path UInt8) : Prop :=
  ∀ content, s.read target = some content → F.sha256 content = expected

/-- The archive is there. -/
def Installed (F : Formats) (target : Path) (expected : String) (s : Store Path UInt8) : Prop :=
  ∃ content, s.read target = some content ∧ F.sha256 content = expected

section New

variable {F : Formats} {answers : (o : Query) → Answer o} {target p : Path} {expected : String}
  {s : Store Path UInt8} {content : Bytes}

theorem Checked.put (h : Checked F target expected s) (hp : p ≠ target) (content : Bytes) :
    Checked F target expected (s.put p content) := by
  intro c hc
  rw [Store.read_put, if_neg (Ne.symm hp)] at hc
  exact h c hc

theorem Checked.remove (h : Checked F target expected s) (p : Path) :
    Checked F target expected (s.remove p) := by
  intro c hc
  rw [Store.read_remove] at hc
  split at hc
  · cases hc
  · exact h c hc

/-- An append that fails. -/
theorem Checked.cut (h : Checked F target expected s) (hp : p ≠ target) (part : ℕ) (data : Bytes) :
    Checked F target expected (Files.cut (ω := Query) part (.append p data) s) := by
  simp only [Files.cut]
  split
  · exact h.put hp _
  · exact h

/-- A part is renamed into place only with the checksum. -/
theorem wp_fetch (ht : target ≠ []) (h : Checked F target expected s) :
    wp (Failing PyError.osError answers) (Checked F target expected) (fetch F target expected)
      (fun _ => Installed F target expected) (fun _ => Checked F target expected) s := by
  have hne := temporary_ne ht
  refine wp_failing h (fun _ => h) ?_
  rintro payload _ ⟨⟩
  refine wp_failing h (fun _ => h) ?_
  rintro _ _ ⟨⟩
  refine wp_failing (h.put hne []) ((h.put hne []).cut hne · _) fun _ s₁ happend => ?_
  obtain ⟨c, -, rfl⟩ := handle_append_ok happend
  have h₁ := (h.put hne []).put hne (c ++ answers .payload)
  refine wp_failing h₁ (fun _ => h₁) ?_
  rintro _ _ ⟨⟩
  refine wp_failing h₁ (fun _ => h₁) fun content s₂ hanswer => ?_
  obtain ⟨hread, rfl⟩ := handle_read_ok hanswer
  refine (wp_bind _).mpr (wp_check.mpr ⟨fun hsha => ?_, fun _ => h₁⟩)
  refine wp_failing_op h₁ (fun _ => h₁) fun _ s₃ hreplace => ?_
  obtain ⟨c', hread', rfl⟩ := handle_replace_ok hreplace
  rw [hread] at hread'
  cases hread'
  exact ⟨content, by rw [Store.read_put, if_pos rfl], of_decide_eq_true hsha⟩

theorem Installed.checked (h : Installed F target expected s) : Checked F target expected s := by
  obtain ⟨content, hread, hsha⟩ := h
  intro c hc
  rw [hread] at hc
  exact Option.some.inj hc ▸ hsha

theorem Installed.put (h : Installed F target expected s) (hp : p ≠ target) (content : Bytes) :
    Installed F target expected (s.put p content) := by
  obtain ⟨c, hread, hsha⟩ := h
  exact ⟨c, by rwa [Store.read_put, if_neg (Ne.symm hp)], hsha⟩

theorem Installed.remove (h : Installed F target expected s) (hp : p ≠ target) :
    Installed F target expected (s.remove p) := by
  obtain ⟨c, hread, hsha⟩ := h
  exact ⟨c, by rwa [Store.read_remove, if_neg (Ne.symm hp)], hsha⟩

/-- The manifest is renamed into place as a whole. -/
theorem wp_writeJsonAtomic (ht : target ≠ []) {value : PyJson} (h : Installed F target expected s) :
    wp (Failing PyError.osError answers) (Checked F target expected)
      (writeJsonAtomic F (manifestPath target) value)
      (fun _ s => Installed F target expected s ∧ s.read (manifestPath target) = some (F.dump value))
      (fun _ => Checked F target expected) s := by
  have hne := manifestTemp_ne ht
  refine wp_failing h.checked (fun _ => h.checked) ?_
  rintro _ _ ⟨⟩
  refine wp_failing h.checked (fun _ => h.checked) ?_
  rintro _ _ ⟨⟩
  have h₁ := h.put hne []
  refine wp_failing h₁.checked (h₁.checked.cut hne · _) fun _ s₁ happend => ?_
  obtain ⟨c, hempty, rfl⟩ := handle_append_ok happend
  rw [Store.read_put, if_pos rfl] at hempty
  cases hempty
  have h₂ := h₁.put hne ([] ++ F.dump value)
  refine wp_failing h₂.checked (fun _ => h₂.checked) ?_
  rintro _ _ ⟨⟩
  refine wp_failing_op h₂.checked (fun _ => h₂.checked) fun _ s₃ hreplace => ?_
  obtain ⟨c', hread, rfl⟩ := handle_replace_ok hreplace
  rw [Store.read_put, if_pos rfl] at hread
  cases hread
  exact ⟨(h₂.remove hne).put (manifestPath_ne ht) _, by rw [Store.read_put, if_pos rfl]; rfl⟩

variable (F answers expected) in
/-- **A new archive** is in place with its manifest if the call returns, and where it stops or raises
what is there has the checksum. -/
theorem wp_downloadNew (ht : target ≠ []) (job : BinanceArchiveJob) (required : ℤ)
    (h : s.read target = none) :
    wp (Failing PyError.osError answers) (Checked F target expected)
      (downloadNew F job target expected required)
      (fun _ s => Installed F target expected s ∧ HasManifest F s target expected)
      (fun _ => Checked F target expected) s := by
  have hchecked : Checked F target expected s := fun c hc => by
    rw [h] at hc
    cases hc
  refine wp_failing hchecked (fun _ => hchecked) ?_
  rintro _ _ ⟨⟩
  refine (wp_bind _).mpr (wp_check.mpr ⟨fun _ => ?_, fun _ => hchecked⟩)
  refine (wp_bind _).mpr (wp_attempt.mpr (wp_mono (fun _ => id) ?_ ?_ (wp_fetch ht hchecked)))
  · rintro _ s₁ hinstalled
    refine wp_failing hinstalled.checked (fun _ => hinstalled.checked) fun _ s₂ hunlink => ?_
    cases hunlink
    have h₂ := hinstalled.remove (temporary_ne ht)
    rw [Prog.lift_ok_bind]
    refine wp_failing h₂.checked (fun _ => h₂.checked) fun content s₃ hread => ?_
    obtain ⟨-, rfl⟩ := handle_read_ok hread
    refine wp_failing h₂.checked (fun _ => h₂.checked) ?_
    rintro now _ ⟨⟩
    refine (wp_bind _).mpr (wp_mono (fun _ => id) ?_ (fun _ _ => id) (wp_writeJsonAtomic ht h₂))
    rintro _ s₄ ⟨hinstalled₄, hmanifest⟩
    exact ⟨hinstalled₄, _, rfl, hmanifest⟩
  · rintro e s₁ hchecked₁
    refine wp_failing hchecked₁ (fun _ => hchecked₁) fun _ s₂ hunlink => ?_
    cases hunlink
    exact hchecked₁.remove _

end New

/-! ## Calls -/

/-- What a call that returns has left: the archive with the published checksum, and its manifest. No
call leaves another file under the name of the archive. -/
structure Resumes (F : Formats) (s : Store Path UInt8) (call : Call) : Prop where
  returned : ∀ r, call.answer F s = some (.ok r) → ∃ expected, call.published = .ok expected ∧
    Installed F call.target expected (call.step F s) ∧
    HasManifest F (call.step F s) call.target expected
  checked : ∀ content, (call.step F s).read call.target = some content →
    s.read call.target = some content ∨ call.published = .ok (F.sha256 content)

/-- A call that finds the archive with the published checksum, and of which nothing fails until it
returns, finds the manifest as well. -/
def FindsManifest (F : Formats) (s : Store Path UInt8) (call : Call) : Prop :=
  call.probe.available = true → call.probe.sizeBytes ≠ none → call.stop = none →
    (∀ k < 4, call.faults k = none) → ∀ content, s.read call.target = some content →
      call.published = .ok (F.sha256 content) → HasManifest F s call.target (F.sha256 content)

section Step

variable {F : Formats} {s : Store Path UInt8} {call : Call}

/-- What is under the name of the archive was there or has the published checksum. -/
def Sound (F : Formats) (s : Store Path UInt8) (call : Call) (s' : Store Path UInt8) : Prop :=
  ∀ content, s'.read call.target = some content →
    s.read call.target = some content ∨ call.published = .ok (F.sha256 content)

theorem program_cases (F : Formats) (call : Call) :
    (∃ sizeBytes, call.probe.available = true ∧ call.probe.sizeBytes = some sizeBytes) ∨
      ¬ (call.probe.available = true ∧ call.probe.sizeBytes ≠ none) ∧
        ∃ e, call.program F = Prog.raise e := by
  unfold Call.program downloadBinanceArchive
  cases call.probe.available with
  | false => exact .inr ⟨nofun, _, rfl⟩
  | true =>
    cases call.probe.sizeBytes with
    | none => exact .inr ⟨fun h => h.2 rfl, _, rfl⟩
    | some sizeBytes => exact .inl ⟨sizeBytes, rfl, rfl⟩

/-- **A call**, whichever of its operations fail. -/
theorem wp_program (F : Formats) (s : Store Path UInt8) (call : Call) :
    wp (Failing PyError.osError call.answers) (Sound F s call) (call.program F)
      (fun _ s' => Sound F s call s' ∧ (s.read call.target = none → ∃ expected,
        call.published = .ok expected ∧ Installed F call.target expected s' ∧
          HasManifest F s' call.target expected))
      (fun _ => Sound F s call) s := by
  have hsound : Sound F s call s := fun _ h => .inl h
  rcases program_cases F call with ⟨sizeBytes, havailable, hsize⟩ | ⟨-, e, hraise⟩
  · unfold Call.program downloadBinanceArchive
    rw [havailable, hsize]
    dsimp only
    refine wp_failing hsound (fun _ => hsound) ?_
    rintro _ _ ⟨⟩
    refine wp_failing hsound (fun _ => hsound) ?_
    rintro _ _ ⟨⟩
    refine (wp_bind _).mpr (wp_lift.mpr ⟨fun expected hpublished => ?_, fun _ _ => hsound⟩)
    refine wp_failing hsound (fun _ => hsound) ?_
    rintro _ _ ⟨⟩
    show wp _ _ (if (s.read call.target).isSome = true then _ else _) _ _ _
    cases hread : s.read call.target with
    | some content =>
      refine wp_failing hsound (fun _ => hsound) fun _ s₁ hanswer => ?_
      obtain ⟨-, rfl⟩ := handle_read_ok hanswer
      refine (wp_bind _).mpr (wp_check.mpr ⟨fun _ => ⟨hsound, nofun⟩, fun _ => hsound⟩)
    | none =>
      have hnew := wp_downloadNew F call.answers expected
        (targetPath_ne_nil call.probe.job call.dataDir) call.probe.job
        (sizeBytes + call.minimumFreeBytes) hread
      have hchecked : ∀ s', Checked F call.target expected s' → Sound F s call s' :=
        fun s' h content hc => .inr (hpublished.trans (congrArg Except.ok (h content hc).symm))
      refine wp_mono hchecked ?_ (fun _ => hchecked) hnew
      rintro r s' ⟨hinstalled, hmanifest⟩
      exact ⟨hchecked s' hinstalled.checked, fun _ => ⟨expected, hpublished, hinstalled, hmanifest⟩⟩
  · rw [hraise]
    exact hsound

theorem handle_existing {content : Bytes} (hread : s.read call.target = some content) :
    handle PyError.osError call.answers (.isFile call.target) s = (.ok true, s) ∧
      handle PyError.osError call.answers (.read call.target) s = (.ok content, s) := by
  constructor <;> simp [handle, hread]

/-- A call that finds the archive. -/
theorem run_existing {content : Bytes} (hread : s.read call.target = some content)
    (havailable : call.probe.available = true) (hsize : call.probe.sizeBytes ≠ none) :
    ((call.program F).run (faulty PyError.osError (fun _ => call.answers) call.faults) (0, s)).2.2 = s ∧
      ((∃ r, ((call.program F).run (faulty PyError.osError (fun _ => call.answers) call.faults)
        (0, s)).1 = .ok r) ↔ (∀ k < 4, call.faults k = none) ∧
          call.published = .ok (F.sha256 content)) := by
  obtain ⟨sizeBytes, hsize⟩ := Option.ne_none_iff_exists'.mp hsize
  have hfails : ∀ k < 4, call.faults k ≠ none →
      ¬ ((∀ k < 4, call.faults k = none) ∧ call.published = .ok (F.sha256 content)) :=
    fun k hk hne hall => hne (hall.1 k hk)
  obtain ⟨hexists, hcontent⟩ := handle_existing hread
  unfold Call.program downloadBinanceArchive
  rw [havailable, hsize, show call.probe.job.targetPath call.dataDir = call.target from rfl]
  dsimp only
  cases h0 : call.faults 0 with
  | some part =>
    rw [run_faulty_some h0]
    exact ⟨rfl, iff_of_false nofun (hfails 0 (by omega) (by simp [h0]))⟩
  | none =>
  rw [run_faulty_none h0 rfl]
  cases h1 : call.faults 1 with
  | some part =>
    rw [run_faulty_some h1]
    exact ⟨rfl, iff_of_false nofun (hfails 1 (by omega) (by simp [h1]))⟩
  | none =>
  rw [run_faulty_none h1 rfl]
  cases hpublished : call.published with
  | error e =>
    rw [show (call.answers .checksum >>= (parseChecksum · call.probe.job.filename)) = .error e from
      hpublished]
    exact ⟨rfl, iff_of_false nofun nofun⟩
  | ok expected =>
  rw [hpublished] at hfails
  rw [show (call.answers .checksum >>= (parseChecksum · call.probe.job.filename)) = .ok expected from
    hpublished, Prog.lift_ok_bind]
  cases h2 : call.faults 2 with
  | some part =>
    rw [run_faulty_some h2]
    exact ⟨rfl, iff_of_false nofun (hfails 2 (by omega) (by simp [h2]))⟩
  | none =>
  rw [run_faulty_none h2 hexists, if_pos rfl]
  cases h3 : call.faults 3 with
  | some part =>
    rw [run_faulty_some h3]
    exact ⟨rfl, iff_of_false nofun (hfails 3 (by omega) (by simp [h3]))⟩
  | none =>
  rw [run_faulty_none h3 hcontent]
  have hall : ∀ k < 4, call.faults k = none := by
    intro k hk
    rcases k with _ | _ | _ | _ | k
    · exact h0
    · exact h1
    · exact h2
    · exact h3
    · omega
  by_cases hsha : F.sha256 content = expected
  · rw [decide_eq_true hsha, Prog.check_true_bind]
    exact ⟨rfl, iff_of_true ⟨_, rfl⟩ ⟨hall, congrArg Except.ok hsha.symm⟩⟩
  · rw [decide_eq_false hsha]
    exact ⟨rfl, iff_of_false nofun fun h => hsha (Except.ok.inj h.2).symm⟩

/-- **What a call has to find.** -/
theorem resumes_step (F : Formats) (s : Store Path UInt8) (call : Call) :
    Resumes F s call ↔ FindsManifest F s call := by
  have hwp := wp_program F s call
  have hsound : Sound F s call (call.step F s) := by
    unfold Call.step
    cases hstop : call.stop with
    | some n =>
      exact wp_stopped_faulty (wp_mono (fun _ => id) (fun _ _ h => h.1) (fun _ _ => id) hwp) 0 n
    | none =>
      have hrun := wp_run_faulty call.faults hwp 0
      dsimp only
      rcases h : (call.program F).run _ (0, s) with ⟨r | r, w⟩
      · exact hrun.2 _ _ h
      · exact (hrun.1 _ _ h).1
  constructor
  · rintro ⟨hreturned, -⟩ havailable hsize hstop hfaults content hread hpublished
    obtain ⟨hsame, hreturns⟩ := run_existing (F := F) hread havailable hsize
    obtain ⟨r, hr⟩ := hreturns.mpr ⟨hfaults, hpublished⟩
    have hstep : call.step F s = s := by
      unfold Call.step
      rw [hstop]
      exact hsame
    have hanswer : call.answer F s = some (.ok r) := by
      unfold Call.answer
      rw [hstop]
      exact congrArg some hr
    obtain ⟨expected, hexpected, -, hmanifest⟩ := hreturned r hanswer
    rw [hpublished] at hexpected
    cases hexpected
    rwa [hstep] at hmanifest
  · intro hfinds
    refine ⟨fun r hanswer => ?_, hsound⟩
    unfold Call.answer at hanswer
    cases hstop : call.stop with
    | some n =>
      rw [hstop] at hanswer
      cases hanswer
    | none =>
    rw [hstop] at hanswer
    have hanswer := Option.some.inj hanswer
    have hstep : call.step F s = ((call.program F).run
        (faulty PyError.osError (fun _ => call.answers) call.faults) (0, s)).2.2 := by
      unfold Call.step
      rw [hstop]
    cases hread : s.read call.target with
    | none =>
      have hrun := (wp_run_faulty call.faults hwp 0).1 r _ (Prod.ext hanswer rfl)
      rw [hstep]
      exact hrun.2 hread
    | some content =>
      rcases program_cases F call with ⟨sizeBytes, havailable, hsize⟩ | ⟨-, e, hraise⟩
      · have hsize' : call.probe.sizeBytes ≠ none := by simp [hsize]
        obtain ⟨hsame, hreturns⟩ := run_existing (F := F) hread havailable hsize'
        obtain ⟨hfaults, hpublished⟩ := hreturns.mp ⟨r, hanswer⟩
        rw [hstep, hsame]
        exact ⟨_, hpublished, ⟨content, hread, rfl⟩,
          hfinds havailable hsize' hstop hfaults content hread hpublished⟩
      · rw [hraise] at hanswer
        cases hanswer

end Step

section Sample

/-- SHA-256 of one byte. -/
def sampleSha256 : String := "4bf5122f344554c53bde2ebb8cd2b7e3d1600ad631c385a5d7cce23c7785459a"

def sampleFormats : Formats where
  loads _ := .error (.valueError "")
  dump _ := []
  sha256 bytes := if bytes = [1] then sampleSha256 else ""
  str _ := ""

def sampleProbe : BinanceArchiveProbe where
  job := { baseUrl := "https://example.test", market := "spot", dataset := "trades", symbol := "BTCUSDT"
           cadence := "monthly", period := "2026-07" }
  available := true
  sizeBytes := some 1

/-- A call of which the process stops after some operations. -/
def sampleCall (stop : Option ℕ) : Call where
  probe := sampleProbe
  dataDir := ["data"]
  minimumFreeBytes := 100
  answers
    | .checksum => .ok (sampleSha256 ++ "  BTCUSDT-trades-2026-07.zip\n")
    | .payload => [1]
    | .free => (1000 : ℤ)
    | .now => "2026-08-01T00:00:00+00:00"
    | .settle => ()
  faults _ := none
  stop

end Sample

end Greenfield.Data.Download
