import Greenfield.Lib.Files
import Mathlib.Logic.Function.Basic

/-!
# Parts with manifests

A part is renamed into place and then its manifest, which says what is in it. A writer that finds
one of the two files verifies both. `install` is what a write does to the files in place: it
changes only what is not there, so several writes keep what is in place and complete.
-/

namespace Parts

open Effects Files

variable {ν β μ ε : Type}

/-- The files of a part, and those that are to take their place. -/
inductive PartFile (ν : Type) where
  | part (n : ν)
  | manifest (n : ν)
  | partTemp (n : ν) (id : Nat)
  | manifestTemp (n : ν) (id : Nat)
  deriving DecidableEq

inductive Query (ν : Type) where
  /-- The unique part of the name of a temporary. -/
  | uuid (target : PartFile ν)
  /-- Settle a file on its disk. -/
  | settle (file : PartFile ν)
  /-- The time of a manifest. -/
  | now (n : ν)

abbrev Answer : Query ν → Type
  | .uuid _ => Nat
  | .settle _ => Unit
  | .now _ => String

/-- How manifests are written and what they promise. -/
structure Format (ν β μ ε : Type) where
  checksum : List β → String
  toJson : μ → List β
  fromJson : ν → List β → Except ε μ
  /-- The part that the manifest is about. -/
  partOf : μ → ν
  /-- The manifest without its time. -/
  undated : μ → μ
  verify : μ → List β → Except ε Unit
  missing : μ → ε
  incomplete : ν → ε
  osError : ε

/-- A part that is to be written. -/
structure PartWrite (ν β μ ε : Type) where
  name : ν
  content : Except ε (List β)
  /-- The manifest, of the checksum of the content and the time. -/
  manifest : String → String → μ
  /-- A manifest that is there says the same. -/
  same : μ → Bool
  collision : ε

abbrev FileProg (ν β ε α : Type) :=
  Prog (Op (PartFile ν) β (Query ν)) (Res (PartFile ν) β Answer) ε α

abbrev op (o : Op (PartFile ν) β (Query ν)) : FileProg ν β ε (Res (PartFile ν) β Answer o) :=
  Prog.perform o

/-! ## The write of a part -/

/-- Fill a temporary. -/
def writeTemp (temp : PartFile ν) (data : List β) : FileProg ν β ε Unit := do
  op (.truncate temp)
  op (.append temp data)
  op (.ask (.settle temp))

def atomicWriteText (n : ν) (text : List β) : FileProg ν β ε Unit := do
  let id ← op (.ask (.uuid (.manifest n)))
  let answer ← Prog.attempt do
    writeTemp (.manifestTemp n id) text
    op (.replace (.manifestTemp n id) (.manifest n))
  op (.unlink (.manifestTemp n id) true)
  Prog.lift answer

variable (F : Format ν β μ ε) (P : PartWrite ν β μ ε)

def verifyPart (manifest : μ) : FileProg ν β ε Unit := do
  let isFile ← op (.isFile (.part (F.partOf manifest)))
  Prog.check isFile (F.missing manifest)
  let content ← op (.read (.part (F.partOf manifest)))
  Prog.lift (F.verify manifest content)

def verifyExisting : FileProg ν β ε μ := do
  let isPart ← op (.isFile (.part P.name))
  Prog.check isPart (F.incomplete P.name)
  let isManifest ← op (.isFile (.manifest P.name))
  Prog.check isManifest (F.incomplete P.name)
  let text ← op (.read (.manifest P.name))
  let manifest ← Prog.lift (F.fromJson P.name text)
  Prog.check (P.same manifest) P.collision
  verifyPart F manifest
  Prog.ret manifest

/-- The part, of which the checksum is taken before it is renamed. -/
def createPart : FileProg ν β ε String := do
  let data ← Prog.lift P.content
  let id ← op (.ask (.uuid (.part P.name)))
  let answer ← Prog.attempt do
    writeTemp (.partTemp P.name id) data
    let content ← op (.read (.partTemp P.name id))
    op (.replace (.partTemp P.name id) (.part P.name))
    Prog.ret (F.checksum content)
  op (.unlink (.partTemp P.name id) true)
  Prog.lift answer

def createPair : FileProg ν β ε μ := do
  let contentSha ← createPart F P
  let createdAt ← op (.ask (.now P.name))
  atomicWriteText P.name (F.toJson (P.manifest contentSha createdAt))
  Prog.ret (P.manifest contentSha createdAt)

def writePart : FileProg ν β ε μ := do
  if ← op (.isFile (.part P.name)) then verifyExisting F P
  else if ← op (.isFile (.manifest P.name)) then verifyExisting F P
  else createPair F P

/-- One part after the other; a step can also raise, or have no part. -/
def writeStep (manifests : List μ) (step : Except ε (Option (PartWrite ν β μ ε))) :
    FileProg ν β ε (List μ) := do
  match ← Prog.lift step with
  | none => Prog.ret manifests
  | some P =>
    let manifest ← writePart F P
    Prog.ret (manifests ++ [manifest])

def writeSteps (steps : List (Except ε (Option (PartWrite ν β μ ε)))) : FileProg ν β ε (List μ) :=
  foldEach (writeStep F) [] steps

/-! ## What is in a lake -/

variable [DecidableEq ν]

abbrev Lake (ν β : Type) [DecidableEq ν] := Store (PartFile ν) β

/-- The content of a part and its manifest without its time. -/
abbrev View (ν β μ ε : Type) := ν → Option (List β) × Option (Except ε μ)

def view (s : Lake ν β) : View ν β μ ε := fun n =>
  (s.read (.part n), (s.read (.manifest n)).map fun text => (F.fromJson n text).map F.undated)

/-- What can be read through the manifests. -/
def readable (V : View ν β μ ε) (n : ν) : Option (Except ε (μ × Option (List β))) :=
  (V n).2.map fun m => m.map fun m => (m, (V (F.partOf m)).1)

/-- The part that the manifest is about is there as the manifest says. -/
def Complete (V : View ν β μ ε) (m : μ) : Prop :=
  ∃ content, (V (F.partOf m)).1 = some content ∧ F.verify m content = .ok ()

/-- What a rename makes of the part whose manifest is missing. -/
def track (h : Option ν) : Event (PartFile ν) β → Option ν
  | .replaced _ (.part n) => some n
  | .replaced _ _ => none
  | _ => h

/-- The part that was renamed last, when its manifest was not renamed yet. -/
def halfway (log : List (Event (PartFile ν) β)) : Option ν := log.foldl track none

omit [DecidableEq ν] in
theorem halfway_nil : halfway ([] : List (Event (PartFile ν) β)) = none := rfl

omit [DecidableEq ν] in
theorem halfway_append (log : List (Event (PartFile ν) β)) (event : Event (PartFile ν) β) :
    halfway (log ++ [event]) = track (halfway log) event := by
  unfold halfway
  rw [List.foldl_append]
  rfl

/-- What a format is to satisfy. -/
structure Format.Lawful : Prop where
  partOf_undated : ∀ m, F.partOf (F.undated m) = F.partOf m
  verify_undated : ∀ m, F.verify (F.undated m) = F.verify m
  missing_undated : ∀ m, F.missing (F.undated m) = F.missing m

/-- What a part that is to be written is to satisfy: its manifest is read back and fits. -/
structure PartWrite.Lawful : Prop where
  parsed : ∀ sha time, F.fromJson P.name (F.toJson (P.manifest sha time)) = .ok (P.manifest sha time)
  about : ∀ sha time, F.partOf (P.manifest sha time) = P.name
  undated : ∀ sha time time', F.undated (P.manifest sha time) = F.undated (P.manifest sha time')
  same_manifest : ∀ sha time, P.same (P.manifest sha time) = true
  same_undated : ∀ m, P.same (F.undated m) = P.same m
  verified : ∀ content, P.content = .ok content → ∀ time,
    F.verify (P.manifest (F.checksum content) time) content = .ok ()

/-! ### Views -/

section View

variable {F} {s : Lake ν β} {n : ν} {c : List β} {id : Nat}

@[simp] theorem view_put_partTemp : view F (s.put (.partTemp n id) c) = view F s := by
  funext n'
  simp [view]

@[simp] theorem view_put_manifestTemp : view F (s.put (.manifestTemp n id) c) = view F s := by
  funext n'
  simp [view]

@[simp] theorem view_remove_partTemp : view F (s.remove (.partTemp n id)) = view F s := by
  funext n'
  simp [view]

@[simp] theorem view_remove_manifestTemp : view F (s.remove (.manifestTemp n id)) = view F s := by
  funext n'
  simp [view]

theorem view_put_part :
    view F (s.put (.part n) c) = Function.update (view F s) n (some c, (view F s n).2) := by
  funext n'
  by_cases h : n' = n
  · subst h
    simp [view]
  · simp [view, h]

theorem view_put_manifest : view F (s.put (.manifest n) c) =
    Function.update (view F s) n ((view F s n).1, some ((F.fromJson n c).map F.undated)) := by
  funext n'
  by_cases h : n' = n
  · subst h
    simp [view]
  · simp [view, h]

end View

/-! ### The write of a part, as it changes views -/

/-- The two files of a part, its manifest without its time. -/
def PartWrite.entry (content : List β) : Option (List β) × Option (Except ε μ) :=
  (some content, some (.ok (F.undated (P.manifest (F.checksum content) ""))))

/-- A manifest that is there is checked, and the part that it is about. -/
def confirm (V : View ν β μ ε) (m : μ) : Except ε Unit :=
  if P.same m = true then
    match (V (F.partOf m)).1 with
    | some content => F.verify m content
    | none => .error (F.missing m)
  else .error P.collision

/-- What a write does to the files that are in place. -/
def install (V : View ν β μ ε) : Except ε (View ν β μ ε) :=
  match V P.name with
  | (none, none) => P.content.map fun content => Function.update V P.name (P.entry F content)
  | (some _, some (.ok m)) => (confirm F P V m).map fun _ => V
  | (some _, some (.error e)) => .error e
  | _ => .error (F.incomplete P.name)

def installStep (V : View ν β μ ε) :
    Except ε (Option (PartWrite ν β μ ε)) → Except ε (View ν β μ ε)
  | .error e => .error e
  | .ok none => .ok V
  | .ok (some P) => install F P V

/-- The part is in place, as the writer finds it. -/
def Installed (V : View ν β μ ε) (P : PartWrite ν β μ ε) : Prop :=
  ∃ m, (V P.name).1 ≠ none ∧ (V P.name).2 = some (.ok m) ∧ P.same m = true ∧ Complete F V m

variable {F P} {V V' : View ν β μ ε}

omit [DecidableEq ν] in
theorem confirm_undated (hF : F.Lawful) (hP : P.Lawful F) (m : μ) :
    confirm F P V (F.undated m) = confirm F P V m := by
  unfold confirm
  rw [hP.same_undated, hF.partOf_undated, hF.verify_undated, hF.missing_undated]

omit [DecidableEq ν] in
theorem confirm_eq_ok {m : μ} {u : Unit} :
    confirm F P V m = .ok u ↔ P.same m = true ∧ Complete F V m := by
  unfold confirm Complete
  split
  · next hsame =>
    cases (V (F.partOf m)).1 with
    | none => simp
    | some content => simp [hsame]
  · next hsame => simp [hsame]

theorem install_installed (h : Installed F V P) : install F P V = .ok V := by
  obtain ⟨m, hpart, hm, hsame, hcomplete⟩ := h
  obtain ⟨c, hc⟩ := Option.ne_none_iff_exists'.mp hpart
  have hslot : V P.name = (some c, some (.ok m)) := Prod.ext hc hm
  have hconfirm : confirm F P V m = .ok () := confirm_eq_ok.mpr ⟨hsame, hcomplete⟩
  unfold install
  rw [hslot]
  dsimp only
  rw [hconfirm]
  rfl

/-- A write is done before, or creates the two files. -/
theorem install_eq_ok (h : install F P V = .ok V') :
    (Installed F V P ∧ V' = V) ∨ V P.name = (none, none) ∧ ∃ content, P.content = .ok content ∧
      V' = Function.update V P.name (P.entry F content) := by
  unfold install at h
  split at h
  · next hslot =>
    cases hcontent : P.content with
    | error e =>
      rw [hcontent] at h
      cases h
    | ok content =>
      rw [hcontent] at h
      cases h
      exact .inr ⟨hslot, content, rfl, rfl⟩
  · next c m hslot =>
    cases hconfirm : confirm F P V m with
    | error e =>
      rw [hconfirm] at h
      cases h
    | ok u =>
      rw [hconfirm] at h
      cases h
      obtain ⟨hsame, hcomplete⟩ := confirm_eq_ok.mp hconfirm
      refine .inl ⟨⟨m, ?_, ?_, hsame, hcomplete⟩, rfl⟩
      · rw [hslot]
        exact Option.some_ne_none c
      · rw [hslot]
  · cases h
  · cases h

/-- A part that was created is in place. -/
theorem installed_created (hF : F.Lawful) (hP : P.Lawful F) {content : List β}
    (hcontent : P.content = .ok content) :
    Installed F (Function.update V P.name (P.entry F content)) P := by
  refine ⟨F.undated (P.manifest (F.checksum content) ""), ?_, ?_, ?_, content, ?_, ?_⟩
  · rw [Function.update_self]
    exact Option.some_ne_none _
  · rw [Function.update_self]
    rfl
  · rw [hP.same_undated]
    exact hP.same_manifest _ _
  · rw [hF.partOf_undated, hP.about, Function.update_self]
    rfl
  · rw [hF.verify_undated]
    exact hP.verified content hcontent _

/-- What is complete stays when files are created whose part is not there. -/
theorem Complete.update {m : μ} (h : Complete F V m) {n : ν} (hn : (V n).1 = none)
    (x : Option (List β) × Option (Except ε μ)) : Complete F (Function.update V n x) m := by
  obtain ⟨content, hcontent, hverify⟩ := h
  have hof : F.partOf m ≠ n := by
    rintro rfl
    rw [hn] at hcontent
    cases hcontent
  exact ⟨content, by rwa [Function.update_of_ne hof], hverify⟩

theorem Installed.update {Q : PartWrite ν β μ ε} (h : Installed F V Q) {n : ν}
    (hn : (V n).1 = none) (x : Option (List β) × Option (Except ε μ)) :
    Installed F (Function.update V n x) Q := by
  obtain ⟨m, hpart, hm, hsame, hcomplete⟩ := h
  have hname : Q.name ≠ n := by
    rintro rfl
    exact hpart hn
  refine ⟨m, ?_, ?_, hsame, hcomplete.update hn x⟩
  · rwa [Function.update_of_ne hname]
  · rwa [Function.update_of_ne hname]

/-! ### Several parts -/

abbrev Step (ν β μ ε : Type) := Except ε (Option (PartWrite ν β μ ε))

def installAll (F : Format ν β μ ε) (V : View ν β μ ε) (steps : List (Step ν β μ ε)) :
    Except ε (View ν β μ ε) :=
  steps.foldlM (installStep F) V

/-- The parts of the steps satisfy what they are to satisfy. -/
def LawfulSteps (F : Format ν β μ ε) (steps : List (Step ν β μ ε)) : Prop :=
  ∀ P, .ok (some P) ∈ steps → PartWrite.Lawful F P

/-- Every manifest was there before, or its part is complete. -/
def Sound (F : Format ν β μ ε) (V₀ V : View ν β μ ε) : Prop :=
  ∀ n m, (V n).2 = some (.ok m) → (V₀ n).2 = some (.ok m) ∨ Complete F V m

variable {steps done rest : List (Step ν β μ ε)} {step : Step ν β μ ε}

theorem installAll_cons : installAll F V (step :: steps) =
    match installStep F V step with
    | .ok V' => installAll F V' steps
    | .error e => .error e := by
  unfold installAll
  rw [List.foldlM_cons]
  cases installStep F V step <;> rfl

theorem installAll_append (h : installAll F V done = .ok V') :
    installAll F V (done ++ rest) = installAll F V' rest := by
  unfold installAll at h ⊢
  rw [List.foldlM_append, h]
  rfl

/-- The first step of several that go through. -/
theorem installAll_cons_eq_ok (h : installAll F V (step :: steps) = .ok V') :
    ∃ V₁, installStep F V step = .ok V₁ ∧ installAll F V₁ steps = .ok V' := by
  rw [installAll_cons] at h
  split at h
  · next V₁ hstep => exact ⟨V₁, hstep, h⟩
  · cases h

/-- What every installation keeps. -/
theorem installAll_invariant {J : View ν β μ ε → Prop} : ∀ {steps : List (Step ν β μ ε)}
    {V : View ν β μ ε}, (∀ P, .ok (some P) ∈ steps → ∀ V V', J V → install F P V = .ok V' → J V') →
    installAll F V steps = .ok V' → J V → J V'
  | [], _, _, h, hJ => by
    cases h
    exact hJ
  | step :: steps, V, hinstall, h, hJ => by
    obtain ⟨V₁, hstep, hrest⟩ := installAll_cons_eq_ok h
    refine installAll_invariant (fun P hP => hinstall P (List.mem_cons_of_mem _ hP)) hrest ?_
    cases step with
    | error e => cases hstep
    | ok o =>
      cases o with
      | none =>
        cases hstep
        exact hJ
      | some P => exact hinstall P List.mem_cons_self V V₁ hJ hstep

/-- A step leaves what is in place. -/
theorem installStep_keeps (h : installStep F V step = .ok V') :
    (∀ Q, Installed F V Q → Installed F V' Q) ∧ ∀ m, Complete F V m → Complete F V' m := by
  cases step with
  | error e => cases h
  | ok o =>
    cases o with
    | none =>
      cases h
      exact ⟨fun _ => id, fun _ => id⟩
    | some P =>
      rcases install_eq_ok h with ⟨-, rfl⟩ | ⟨hnone, content, -, rfl⟩
      · exact ⟨fun _ => id, fun _ => id⟩
      · have hpart : (V P.name).1 = none := by rw [hnone]
        exact ⟨fun Q hQ => hQ.update hpart _, fun m hm => hm.update hpart _⟩

theorem installAll_keeps (h : installAll F V steps = .ok V') (Q : PartWrite ν β μ ε)
    (hQ : Installed F V Q) : Installed F V' Q := by
  have hkeeps : ∀ P, .ok (some P) ∈ steps → ∀ V₀ V₁, Installed F V₀ Q → install F P V₀ = .ok V₁ →
      Installed F V₁ Q := by
    intro P _ V₀ V₁ hV₀ hinstall
    have hstep : installStep F V₀ (.ok (some P)) = .ok V₁ := hinstall
    exact (installStep_keeps hstep).1 Q hV₀
  exact installAll_invariant hkeeps h hQ

/-- Each part is in place in the end. -/
theorem installAll_installed (hF : F.Lawful) : ∀ {steps : List (Step ν β μ ε)} {V : View ν β μ ε},
    LawfulSteps F steps → installAll F V steps = .ok V' →
      ∀ step ∈ steps, ∃ o, step = .ok o ∧ ∀ P ∈ o, Installed F V' P
  | [], _, _, _, step, hstep => absurd hstep List.not_mem_nil
  | first :: steps, V, hlaw, h, step, hmem => by
    obtain ⟨V₁, hfirst, hrest⟩ := installAll_cons_eq_ok h
    rcases List.mem_cons.mp hmem with rfl | hmem
    · cases step with
      | error e => cases hfirst
      | ok o =>
        refine ⟨o, rfl, fun P hP => installAll_keeps hrest P ?_⟩
        cases hP
        rcases install_eq_ok hfirst with ⟨hin, rfl⟩ | ⟨-, content, hcontent, rfl⟩
        · exact hin
        · exact installed_created hF (hlaw P List.mem_cons_self) hcontent
    · exact installAll_installed hF (fun P hP => hlaw P (List.mem_cons_of_mem _ hP)) hrest step hmem

/-- What is in place is left as it is. -/
theorem installAll_idle : ∀ {steps : List (Step ν β μ ε)},
    (∀ step ∈ steps, ∃ o, step = .ok o ∧ ∀ P ∈ o, Installed F V P) → installAll F V steps = .ok V
  | [], _ => rfl
  | step :: steps, h => by
    obtain ⟨⟨o, rfl, hP⟩, hrest⟩ := List.forall_mem_cons.mp h
    have hstep : installStep F V (.ok o) = .ok V := by
      cases o with
      | none => rfl
      | some P => exact install_installed (hP P rfl)
    rw [installAll_cons, hstep]
    exact installAll_idle hrest

theorem installAll_sound (hF : F.Lawful) {V₀ : View ν β μ ε} :
    ∀ {steps : List (Step ν β μ ε)} {V : View ν β μ ε}, LawfulSteps F steps →
      installAll F V steps = .ok V' → Sound F V₀ V → Sound F V₀ V'
  | [], _, _, h, hsound => by
    cases h
    exact hsound
  | step :: steps, V, hlaw, h, hsound => by
    obtain ⟨V₁, hstep, hrest⟩ := installAll_cons_eq_ok h
    refine installAll_sound hF (fun P hP => hlaw P (List.mem_cons_of_mem _ hP)) hrest ?_
    intro n m hm
    have hkeeps := (installStep_keeps hstep).2
    cases step with
    | error e => cases hstep
    | ok o =>
      cases o with
      | none =>
        cases hstep
        exact hsound n m hm
      | some P =>
        rcases install_eq_ok hstep with ⟨-, rfl⟩ | ⟨hnone, content, hcontent, rfl⟩
        · exact hsound n m hm
        · by_cases hn : n = P.name
          · obtain ⟨m', -, hm', -, hcomplete⟩ := installed_created (V := V) hF
              (hlaw P List.mem_cons_self) hcontent
            rw [hn, hm'] at hm
            cases hm
            exact .inr hcomplete
          · rw [Function.update_of_ne hn] at hm
            exact (hsound n m hm).imp_right (hkeeps m)

end Parts
