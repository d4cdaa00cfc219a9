import Greenfield.Lib.Parts

/-!
# Writes that are stopped and done again

What a write of parts leaves wherever it is stopped: the parts before are in place, and at most one
part has no manifest yet. Done again, the write verifies what is in place and goes on, unless there
is such a part (`resumes_iff`).
-/

namespace Parts

open Effects Files

variable {ν β μ ε : Type} [DecidableEq ν] {F : Format ν β μ ε} {P : PartWrite ν β μ ε}
  {V V' : View ν β μ ε} {steps done rest : List (Step ν β μ ε)} {step : Step ν β μ ε}

/-! ## The write of a part, at every stop -/

section Stops

variable {answers : (q : Query ν) → Answer q} {s : Lake ν β} {log : List (Event (PartFile ν) β)}

abbrev answer (F : Format ν β μ ε) (answers : (q : Query ν) → Answer q) :
    (o : Op (PartFile ν) β (Query ν)) → Lake ν β × List (Event (PartFile ν) β) →
      Except ε (Res (PartFile ν) β Answer o) × Lake ν β × List (Event (PartFile ν) β) :=
  handleTraced F.osError answers

/-- Where the write of a part can be stopped: nothing is done, all is, or the part is renamed. -/
def AtStop (F : Format ν β μ ε) (P : PartWrite ν β μ ε) (V : View ν β μ ε)
    (w : Lake ν β × List (Event (PartFile ν) β)) : Prop :=
  (halfway w.2 = none ∧ (view F w.1 = V ∨ install F P V = .ok (view F w.1))) ∨
    halfway w.2 = some P.name ∧ V P.name = (none, none) ∧ ∃ content, P.content = .ok content ∧
      view F w.1 = Function.update V P.name (some content, none)

/-- The write of a part is done. -/
def Done (F : Format ν β μ ε) (P : PartWrite ν β μ ε) (V : View ν β μ ε)
    (w : Lake ν β × List (Event (PartFile ν) β)) : Prop :=
  halfway w.2 = none ∧ install F P V = .ok (view F w.1)

/-- It is done and returned `m`, the manifest that is in place. -/
def Returned (F : Format ν β μ ε) (P : PartWrite ν β μ ε) (V : View ν β μ ε) (m : μ)
    (w : Lake ν β × List (Event (PartFile ν) β)) : Prop :=
  Done F P V w ∧ (view F w.1 P.name).2 = some (.ok (F.undated m))

/-- The write of a part has raised. -/
def Raised (F : Format ν β μ ε) (P : PartWrite ν β μ ε) (V : View ν β μ ε) (e : ε)
    (w : Lake ν β × List (Event (PartFile ν) β)) : Prop :=
  halfway w.2 = none ∧ view F w.1 = V ∧ install F P V = .error e

theorem AtStop.before (hview : view F s = V) (hlog : halfway log = none) : AtStop F P V (s, log) :=
  .inl ⟨hlog, .inl hview⟩

/-- A part that is there is verified. -/
theorem wp_verifyPart {m : μ} {Q : Unit → Lake ν β × List (Event (PartFile ν) β) → Prop}
    {E : ε → Lake ν β × List (Event (PartFile ν) β) → Prop}
    {I : Lake ν β × List (Event (PartFile ν) β) → Prop} (hI : ∀ log, halfway log = none → I (s, log))
    (hlog : halfway log = none)
    (hnone : s.read (.part (F.partOf m)) = none → E (F.missing m) (s, log))
    (hsome : ∀ c log, s.read (.part (F.partOf m)) = some c → halfway log = none →
      (∀ u, F.verify m c = .ok u → Q () (s, log)) ∧ ∀ e, F.verify m c = .error e → E e (s, log)) :
    wp (Handled (answer F answers)) I (verifyPart F m) Q E (s, log) := by
  unfold verifyPart
  refine wp_answers handleTraced_isFile (hI _ hlog) ?_
  cases hread : s.read (.part (F.partOf m)) with
  | none => exact hnone hread
  | some c =>
    rw [Option.isSome_some, Prog.check_true_bind]
    refine wp_answers (handleTraced_read hread) (hI _ hlog) ?_
    have hlog' : halfway (log ++ [.read (.part (F.partOf m)) c]) = none := by
      rw [halfway_append, hlog]
      rfl
    refine wp_lift.mpr ?_
    cases hverify : F.verify m c with
    | ok u => exact answer_ok ((hsome c _ hread hlog').1 u hverify)
    | error e => exact answer_error ((hsome c _ hread hlog').2 e hverify)

omit [DecidableEq ν] in
/-- A read is no rename. -/
theorem halfway_read {p : PartFile ν} {c : List β} (hlog : halfway log = none) :
    halfway (log ++ [.read p c]) = none := by
  rw [halfway_append, hlog]
  rfl

/-- A pair of which one file is there at least is verified. -/
theorem wp_verifyExisting (hF : F.Lawful) (hP : P.Lawful F) (hview : view F s = V) (hlog : halfway log = none)
    (hthere : V P.name ≠ (none, none)) :
    wp (Handled (answer F answers)) (AtStop F P V) (verifyExisting F P) (Returned F P V)
      (Raised F P V) (s, log) := by
  have hI : ∀ log, halfway log = none → AtStop F P V (s, log) := fun _ => .before hview
  have hraised : ∀ {log e}, halfway log = none → install F P V = .error e →
      Raised F P V e (s, log) := fun hlog h => ⟨hlog, hview, h⟩
  have hpart : (V P.name).1 = s.read (.part P.name) := by
    rw [← hview]
    rfl
  have hmanifest : (V P.name).2 = (s.read (.manifest P.name)).map fun text =>
      (F.fromJson P.name text).map F.undated := by
    rw [← hview]
    rfl
  unfold verifyExisting
  refine wp_answers handleTraced_isFile (hI _ hlog) ?_
  cases hread : s.read (.part P.name) with
  | none =>
    rw [hread] at hpart
    refine hraised hlog ?_
    unfold install
    split
    · next hslot => exact absurd hslot hthere
    · next hslot =>
      rw [hslot] at hpart
      cases hpart
    · next hslot =>
      rw [hslot] at hpart
      cases hpart
    · rfl
  | some c =>
  rw [hread] at hpart
  rw [Option.isSome_some, Prog.check_true_bind]
  refine wp_answers handleTraced_isFile (hI _ hlog) ?_
  cases htext : s.read (.manifest P.name) with
  | none =>
    rw [htext] at hmanifest
    have hslot : V P.name = (some c, none) := Prod.ext hpart hmanifest
    refine hraised hlog ?_
    unfold install
    rw [hslot]
  | some text =>
  rw [htext] at hmanifest
  rw [Option.isSome_some, Prog.check_true_bind]
  refine wp_answers (handleTraced_read htext) (hI _ hlog) ?_
  have hlog := halfway_read (p := .manifest P.name) (c := text) hlog
  generalize log ++ [.read (.manifest P.name) text] = log at hlog
  cases hparsed : F.fromJson P.name text with
  | error e =>
    have hslot : V P.name = (some c, some (.error e)) := by
      refine Prod.ext hpart (hmanifest.trans ?_)
      rw [Option.map_some, hparsed]
      rfl
    refine hraised hlog ?_
    unfold install
    rw [hslot]
  | ok m =>
  have hslot : V P.name = (some c, some (.ok (F.undated m))) := by
    refine Prod.ext hpart (hmanifest.trans ?_)
    rw [Option.map_some, hparsed]
    rfl
  have hinstall : install F P V = (confirm F P V m).map fun _ => V := by
    unfold install
    rw [hslot]
    dsimp only
    rw [confirm_undated hF hP]
  rw [Prog.lift_ok_bind]
  cases hsame : P.same m with
  | false =>
    refine hraised hlog ?_
    rw [hinstall, confirm, if_neg (by rw [hsame]; exact Bool.false_ne_true)]
    rfl
  | true =>
  rw [Prog.check_true_bind]
  have hof : (V (F.partOf m)).1 = s.read (.part (F.partOf m)) := by
    rw [← hview]
    rfl
  rw [confirm, if_pos hsame, hof] at hinstall
  refine (wp_bind _).mpr (wp_verifyPart hI hlog (fun hnone => ?_) fun content log hcontent hlog => ?_)
  · refine hraised hlog ?_
    rw [hinstall, hnone]
    rfl
  · rw [hcontent] at hinstall
    refine ⟨fun u hverify => ?_, fun e hverify => ?_⟩
    · refine ⟨⟨hlog, ?_⟩, ?_⟩
      · rw [hinstall, hview]
        simp only [hverify]
        rfl
      · rw [hview, hslot]
    · refine hraised hlog ?_
      rw [hinstall]
      simp only [hverify]
      rfl

/-- A property of the files in place, and of the renames. -/
abbrev Seen (F : Format ν β μ ε) (J : View ν β μ ε → Option ν → Prop)
    (w : Lake ν β × List (Event (PartFile ν) β)) : Prop := J (view F w.1) (halfway w.2)

section Seen

variable {J K : View ν β μ ε → Option ν → Prop}
  {E : ε → Lake ν β × List (Event (PartFile ν) β) → Prop}

/-- A temporary is filled. -/
theorem wp_writeTemp {temp : PartFile ν} {data : List β}
    (htemp : ∀ c, view F (s.put temp c) = view F s) (hJ : J (view F s) (halfway log))
    {Q : Unit → Lake ν β × List (Event (PartFile ν) β) → Prop} (hQ : Q () (s.put temp data, log)) :
    wp (Handled (answer F answers)) (Seen F J) (writeTemp temp data) Q E (s, log) := by
  have hput : ∀ c, Seen F J (s.put temp c, log) := by
    intro c
    show J (view F (s.put temp c)) (halfway log)
    rw [htemp]
    exact hJ
  unfold writeTemp
  refine wp_answers handleTraced_truncate hJ ?_
  refine wp_answers (handleTraced_append (c := []) (by rw [Store.read_put, if_pos rfl])) (hput _) ?_
  rw [Store.put_put, List.nil_append]
  refine wp_perform.mpr ⟨hput _, fun r w hx => ?_⟩
  cases hx
  exact answer_ok hQ

/-- A rename of a temporary that was filled. -/
theorem handleTraced_rename {temp q : PartFile ν} {data : List β} :
    answer F answers (.replace temp q) (s.put temp data, log) =
      (.ok (), (s.remove temp).put q data, log ++ [.replaced temp q]) := by
  have hread : (s.put temp data).read temp = some data := by rw [Store.read_put, if_pos rfl]
  rw [answer, handleTraced_replace hread, Store.remove_put]

/-- A manifest is in place at once. -/
theorem wp_atomicWriteText {n : ν} {text : List β} (hJ : J (view F s) (halfway log))
    (hdone : ∀ V', V' = Function.update (view F s) n
      ((view F s n).1, some ((F.fromJson n text).map F.undated)) → J V' none ∧ K V' none) :
    wp (Handled (answer F answers)) (Seen F J) (atomicWriteText n text) (fun _ => Seen F K) E
      (s, log) := by
  unfold atomicWriteText
  refine wp_answers (handleTraced_ask _) hJ ?_
  generalize answers (.uuid (.manifest n)) = id
  have htemp : ∀ c, view F (s.put (.manifestTemp n id) c) = view F s :=
    fun _ => view_put_manifestTemp
  have hview : view F ((s.remove (.manifestTemp n id)).put (.manifest n) text) =
      Function.update (view F s) n
        ((view F s n).1, some ((F.fromJson n text).map F.undated)) := by
    rw [view_put_manifest, view_remove_manifestTemp]
  have hrenamed : halfway (log ++ [.replaced (.manifestTemp n id) (.manifest n)]) = none := by
    rw [halfway_append]
    rfl
  refine (wp_bind _).mpr (wp_attempt.mpr ((wp_bind _).mpr (wp_writeTemp htemp hJ ?_)))
  have hJ' : Seen F J (s.put (.manifestTemp n id) text, log) := by
    show J (view F _) (halfway log)
    rw [htemp]
    exact hJ
  refine wp_perform.mpr ⟨hJ', fun r w hx => ?_⟩
  obtain ⟨rfl, rfl⟩ := Prod.mk.inj (hx.symm.trans handleTraced_rename)
  refine answer_ok (wp_answers handleTraced_unlink ?_ ?_)
  · show J (view F _) (halfway _)
    rw [hview, hrenamed]
    exact (hdone _ rfl).1
  · show K (view F _) (halfway _)
    rw [view_remove_manifestTemp, hview, halfway_append, hrenamed]
    exact (hdone _ rfl).2

/-- A part is in place at once, and its manifest is missing. -/
theorem wp_createPart (hJ : J (view F s) (halfway log)) {content : List β}
    (hcontent : P.content = .ok content)
    (hdone : ∀ V', V' = Function.update (view F s) P.name (some content, (view F s P.name).2) →
      J V' (some P.name) ∧ K V' (some P.name)) :
    wp (Handled (answer F answers)) (Seen F J) (createPart F P)
      (fun sha w => sha = F.checksum content ∧ Seen F K w) E (s, log) := by
  unfold createPart
  rw [hcontent, Prog.lift_ok_bind]
  refine wp_answers (handleTraced_ask _) hJ ?_
  generalize answers (.uuid (.part P.name)) = id
  have htemp : ∀ c, view F (s.put (.partTemp P.name id) c) = view F s := fun _ => view_put_partTemp
  have hview : view F ((s.remove (.partTemp P.name id)).put (.part P.name) content) =
      Function.update (view F s) P.name (some content, (view F s P.name).2) := by
    rw [view_put_part, view_remove_partTemp]
  refine (wp_bind _).mpr (wp_attempt.mpr ((wp_bind _).mpr (wp_writeTemp htemp hJ ?_)))
  have hJ' : Seen F J (s.put (.partTemp P.name id) content, log) := by
    show J (view F _) (halfway log)
    rw [htemp]
    exact hJ
  have hread : (s.put (.partTemp P.name id) content).read (.partTemp P.name id) =
      some content := by rw [Store.read_put, if_pos rfl]
  refine wp_answers (handleTraced_read hread) hJ' ?_
  refine wp_answers handleTraced_rename ?_ ?_
  · show J (view F _) (halfway (log ++ [_]))
    rw [htemp, halfway_append]
    exact hJ
  · refine wp_answers handleTraced_unlink ?_ ⟨rfl, ?_⟩
    · show J (view F _) (halfway _)
      rw [hview, halfway_append]
      exact (hdone _ rfl).1
    · show K (view F _) (halfway _)
      rw [view_remove_partTemp, hview, halfway_append, halfway_append]
      exact (hdone _ rfl).2

end Seen

/-- A pair of files that are not there is created. -/
theorem wp_createPair (hP : P.Lawful F) (hview : view F s = V) (hlog : halfway log = none)
    (hnone : V P.name = (none, none)) :
    wp (Handled (answer F answers)) (AtStop F P V) (createPair F P) (Returned F P V)
      (Raised F P V) (s, log) := by
  have hinstall : install F P V =
      P.content.map fun content => Function.update V P.name (P.entry F content) := by
    unfold install
    rw [hnone]
  unfold createPair
  cases hcontent : P.content with
  | error e =>
    rw [hcontent] at hinstall
    unfold createPart
    rw [hcontent]
    exact ⟨hlog, hview, hinstall⟩
  | ok content =>
  rw [hcontent] at hinstall
  refine (wp_bind _).mpr (wp_mono (fun _ => id) ?_ (fun _ _ => id) (wp_createPart
    (J := fun W h => (h = none ∧ (W = V ∨ install F P V = .ok W)) ∨ h = some P.name ∧
      V P.name = (none, none) ∧ ∃ content, P.content = .ok content ∧
        W = Function.update V P.name (some content, none))
    (K := fun W h => h = some P.name ∧ W = Function.update V P.name (some content, none))
    (.inl ⟨hlog, .inl hview⟩) hcontent ?_))
  · rintro _ ⟨s, log⟩ ⟨rfl, hlog, hview⟩
    have hstop : AtStop F P V (s, log) := .inr ⟨hlog, hnone, content, hcontent, hview⟩
    refine wp_answers (handleTraced_ask _) hstop ?_
    refine (wp_bind _).mpr (wp_mono (fun _ => id) (fun _ w h => ⟨⟨h.1, h.2.1⟩, h.2.2⟩) (fun _ _ => id)
      (wp_atomicWriteText
        (J := fun W h => (h = none ∧ (W = V ∨ install F P V = .ok W)) ∨ h = some P.name ∧
          V P.name = (none, none) ∧ ∃ content, P.content = .ok content ∧
            W = Function.update V P.name (some content, none))
        (K := fun W h => h = none ∧ install F P V = .ok W ∧ (W P.name).2 =
          some (.ok (F.undated (P.manifest (F.checksum content) (answers (.now P.name)))))) hstop ?_))
    intro V' hV'
    have hV : install F P V = .ok V' := by
      rw [hinstall, hV', hview, hP.parsed, Function.update_self, Function.update_idem]
      simp only [PartWrite.entry, Except.map]
      rw [hP.undated]
    have hmanifest : (V' P.name).2 =
        some (.ok (F.undated (P.manifest (F.checksum content) (answers (.now P.name))))) := by
      rw [hV', hP.parsed, Function.update_self]
      rfl
    exact ⟨.inl ⟨rfl, .inr hV⟩, rfl, hV, hmanifest⟩
  · intro V' hV'
    rw [hview, hnone] at hV'
    exact ⟨.inr ⟨rfl, hnone, content, hcontent, hV'⟩, rfl, hV'⟩

/-- **The write of a part**, where it is stopped and in the end. -/
theorem wp_writePart (hF : F.Lawful) (hP : P.Lawful F) (hview : view F s = V)
    (hlog : halfway log = none) :
    wp (Handled (answer F answers)) (AtStop F P V) (writePart F P) (Returned F P V)
      (Raised F P V) (s, log) := by
  have hstop : AtStop F P V (s, log) := .before hview hlog
  have hslot : V P.name = view F s P.name := by rw [hview]
  unfold writePart
  refine wp_answers handleTraced_isFile hstop ?_
  cases hpart : s.read (.part P.name) with
  | some c =>
    refine wp_verifyExisting hF hP hview hlog ?_
    rw [hslot, view, hpart]
    exact fun h => Option.some_ne_none c (congrArg Prod.fst h)
  | none =>
  refine wp_answers handleTraced_isFile hstop ?_
  cases hmanifest : s.read (.manifest P.name) with
  | some text =>
    refine wp_verifyExisting hF hP hview hlog ?_
    rw [hslot, view, hmanifest]
    exact fun h => Option.some_ne_none _ (congrArg Prod.snd h)
  | none =>
    refine wp_createPair hP hview hlog ?_
    rw [hslot, view, hpart, hmanifest]
    rfl

end Stops

/-! ## Files that are in place -/

section InPlace

variable {answers : (q : Query ν) → Answer q} {s s₀ : Lake ν β}

/-- A part or a manifest, not one that is to take its place. -/
def PartFile.Settled : PartFile ν → Prop
  | .part _ | .manifest _ => True
  | _ => False

/-- What is in place in `s₀` is in place, as it was. -/
def InPlace (s₀ s : Lake ν β) : Prop :=
  ∀ file c, file.Settled → s₀.read file = some c → s.read file = some c

theorem InPlace.refl (s : Lake ν β) : InPlace s s := fun _ _ _ h => h

/-- Nothing is in place there. -/
def Vacant (s₀ : Lake ν β) (file : PartFile ν) : Prop := file.Settled → s₀.read file = none

/-- The operation only changes what is not in place. -/
def Spares (s₀ : Lake ν β) : Op (PartFile ν) β (Query ν) → Prop
  | .create p | .truncate p | .append p _ | .unlink p _ => Vacant s₀ p
  | .replace p q => Vacant s₀ p ∧ Vacant s₀ q
  | _ => True

variable {p : PartFile ν}

theorem InPlace.put {c : List β} (h : InPlace s₀ s) (hp : Vacant s₀ p) :
    InPlace s₀ (s.put p c) := by
  intro file c' hfile hread
  rw [Store.read_put]
  split
  · next heq =>
    rw [heq] at hfile hread
    rw [hp hfile] at hread
    cases hread
  · exact h file c' hfile hread

theorem InPlace.remove (h : InPlace s₀ s) (hp : Vacant s₀ p) :
    InPlace s₀ (s.remove p) := by
  intro file c' hfile hread
  rw [Store.read_remove]
  split
  · next heq =>
    rw [heq] at hfile hread
    rw [hp hfile] at hread
    cases hread
  · exact h file c' hfile hread

variable {o : Op (PartFile ν) β (Query ν)}

theorem Spares.handle {osError : ε} (ho : Spares s₀ o)
    (h : InPlace s₀ s) : InPlace s₀ (handle osError answers o s).2 := by
  cases o with
  | list => exact h
  | isFile p => exact h
  | read p =>
    simp only [Files.handle]
    split <;> exact h
  | create p =>
    simp only [Files.handle]
    split
    · exact h
    · exact h.put ho
  | truncate p => exact h.put ho
  | append p data =>
    simp only [Files.handle]
    split
    · exact h.put ho
    · exact h
  | replace p q =>
    simp only [Files.handle]
    split
    · exact (h.remove ho.1).put ho.2
    · exact h
  | unlink p missingOk =>
    simp only [Files.handle]
    split
    · exact h.remove ho
    · exact h
  | ask q => exact h

/-- The program leaves what is in place. -/
abbrev Leaves {α : Type} (F : Format ν β μ ε) (answers : (q : Query ν) → Answer q) (s₀ : Lake ν β)
    (p : FileProg ν β ε α) : Prop :=
  Keeps (Handled (answer F answers)) (fun w => InPlace s₀ w.1) p

theorem leaves_op (ho : Spares s₀ o) :
    Leaves F answers s₀ (op o) := by
  refine keeps_perform fun w r w' hx h => ?_
  have hw' : w' = (handleTraced F.osError answers o w).2 := (congrArg Prod.snd hx).symm
  rw [hw']
  exact ho.handle h

theorem leaves_isFile (p : PartFile ν) : Leaves F answers s₀ (op (.isFile p)) := leaves_op trivial

theorem leaves_read (p : PartFile ν) : Leaves F answers s₀ (op (.read p)) := leaves_op trivial

theorem leaves_ask (q : Query ν) : Leaves F answers s₀ (op (.ask q)) := leaves_op trivial

theorem leaves_unlink (hp : Vacant s₀ p) :
    Leaves F answers s₀ (op (.unlink p true)) := leaves_op hp

theorem leaves_replace {p q : PartFile ν} (hp : Vacant s₀ p) (hq : Vacant s₀ q) :
    Leaves F answers s₀ (op (.replace p q)) := leaves_op ⟨hp, hq⟩

theorem leaves_writeTemp {temp : PartFile ν} {data : List β} (h : Vacant s₀ temp) :
    Leaves F answers s₀ (writeTemp temp data) := by
  have htruncate : Leaves F answers s₀ (op (.truncate temp)) := leaves_op h
  have happend : Leaves F answers s₀ (op (.append temp data)) := leaves_op h
  exact htruncate.bind fun _ => happend.bind fun _ => leaves_ask _

variable {n : ν}

theorem vacant_partTemp {id : Nat} : Vacant s₀ (.partTemp n id) := nofun

theorem vacant_manifestTemp {id : Nat} : Vacant s₀ (.manifestTemp n id) := nofun

theorem leaves_atomicWriteText {text : List β} (h : Vacant s₀ (.manifest n)) :
    Leaves F answers s₀ (atomicWriteText n text) := by
  refine (leaves_ask _).bind fun id => ?_
  refine Keeps.bind (Keeps.attempt ?_) fun _ =>
    (leaves_unlink vacant_manifestTemp).bind fun _ => keeps_lift _
  exact (leaves_writeTemp vacant_manifestTemp).bind fun _ => leaves_replace vacant_manifestTemp h

theorem leaves_createPart (h : Vacant s₀ (.part P.name)) :
    Leaves F answers s₀ (createPart F P) := by
  refine (keeps_lift _).bind fun data => (leaves_ask _).bind fun id => ?_
  refine Keeps.bind (Keeps.attempt ?_) fun _ =>
    (leaves_unlink vacant_partTemp).bind fun _ => keeps_lift _
  exact (leaves_writeTemp vacant_partTemp).bind fun _ => (leaves_read _).bind fun _ =>
    (leaves_replace vacant_partTemp h).bind fun _ => keeps_ret _

theorem leaves_createPair (hpart : Vacant s₀ (.part P.name))
    (hmanifest : Vacant s₀ (.manifest P.name)) : Leaves F answers s₀ (createPair F P) :=
  (leaves_createPart hpart).bind fun _ => (leaves_ask _).bind fun _ =>
    (leaves_atomicWriteText hmanifest).bind fun _ => keeps_ret _

theorem leaves_verifyExisting : Leaves F answers s₀ (verifyExisting F P) := by
  have hverify (m : μ) : Leaves F answers s₀ (verifyPart F m) :=
    (leaves_isFile _).bind fun _ => (keeps_check _ _).bind fun _ => (leaves_read _).bind fun _ =>
      keeps_lift _
  exact (leaves_isFile _).bind fun _ => (keeps_check _ _).bind fun _ => (leaves_isFile _).bind fun _ =>
    (keeps_check _ _).bind fun _ => (leaves_read _).bind fun _ => (keeps_lift _).bind fun m =>
      (keeps_check _ _).bind fun _ => (hverify m).bind fun _ => keeps_ret m

/-- A file that is not there is not in place at the start either. -/
theorem InPlace.vacant {file : PartFile ν} (h : InPlace s₀ s) (hread : s.read file = none) :
    Vacant s₀ file := by
  intro hfile
  cases h₀ : s₀.read file with
  | none => rfl
  | some c =>
    rw [h file c hfile h₀] at hread
    cases hread

theorem leaves_writePart : Leaves F answers s₀ (writePart F P) := by
  rintro ⟨s, log⟩ h
  unfold writePart
  refine wp_answers handleTraced_isFile h ?_
  cases hpart : s.read (.part P.name) with
  | some c => exact leaves_verifyExisting _ h
  | none =>
    refine wp_answers handleTraced_isFile h ?_
    cases hmanifest : s.read (.manifest P.name) with
    | some text => exact leaves_verifyExisting _ h
    | none => exact leaves_createPair (h.vacant hpart) (h.vacant hmanifest) _ h

theorem leaves_writeSteps : Leaves F answers s₀ (writeSteps F steps) := by
  have hfold : ∀ (steps : List (Step ν β μ ε)) (manifests : List μ),
      Leaves F answers s₀ (foldEach (writeStep F) manifests steps) := by
    intro steps
    induction steps with
    | nil => exact fun manifests => keeps_ret manifests
    | cons step steps ih =>
      intro manifests
      refine Keeps.bind ?_ ih
      refine (keeps_lift step).bind fun o => ?_
      cases o with
      | none => exact keeps_ret manifests
      | some P => exact leaves_writePart.bind fun m => keeps_ret _
  exact hfold steps []

end InPlace

/-! ## The write of several parts -/

section Several

variable {answers answers' : (q : Query ν) → Answer q} {s : Lake ν β}
  {log : List (Event (PartFile ν) β)} {V₀ : View ν β μ ε}

/-- Where the write of several parts can be stopped. -/
def AllAtStop (F : Format ν β μ ε) (steps : List (Step ν β μ ε)) (V₀ : View ν β μ ε)
    (w : Lake ν β × List (Event (PartFile ν) β)) : Prop :=
  ∃ done rest V, steps = done ++ rest ∧ installAll F V₀ done = .ok V ∧
    ((halfway w.2 = none ∧ view F w.1 = V) ∨ ∃ P later, rest = .ok (some P) :: later ∧
      halfway w.2 = some P.name ∧ V P.name = (none, none) ∧ ∃ content,
        view F w.1 = Function.update V P.name (some content, none))

theorem installAll_snoc (h : installAll F V₀ done = .ok V) :
    installAll F V₀ (done ++ [step]) = installStep F V step := by
  rw [installAll_append h, installAll_cons]
  cases installStep F V step <;> rfl

variable (answers s) in
theorem wp_writeSteps (hF : F.Lawful) (hlaw : LawfulSteps F steps) (hview : view F s = V₀)
    (hlog : halfway log = none) :
    wp (Handled (answer F answers)) (AllAtStop F steps V₀) (writeSteps F steps)
      (fun _ w => halfway w.2 = none ∧ installAll F V₀ steps = .ok (view F w.1))
      (fun e w => AllAtStop F steps V₀ w ∧ installAll F V₀ steps = .error e) (s, log) := by
  refine wp_foldEach (J := fun done _ (w : Lake ν β × List (Event (PartFile ν) β)) =>
    halfway w.2 = none ∧ installAll F V₀ done = .ok (view F w.1)) ?_ ⟨hlog, congrArg Except.ok hview.symm⟩
  rintro done step rest manifests ⟨s, log⟩ hsteps ⟨hlog, hdone⟩
  have hstop : AllAtStop F steps V₀ (s, log) :=
    ⟨done, step :: rest, _, hsteps, hdone, .inl ⟨hlog, rfl⟩⟩
  have hraises : ∀ e, installStep F (view F s) step = .error e → installAll F V₀ steps = .error e := by
    intro e he
    rw [hsteps, installAll_append hdone, installAll_cons, he]
  cases step with
  | error e => exact ⟨hstop, hraises e rfl⟩
  | ok o =>
  cases o with
  | none => exact ⟨hlog, installAll_snoc hdone⟩
  | some P =>
    have hP : P.Lawful F := by
      apply hlaw
      rw [hsteps]
      exact List.mem_append_right _ List.mem_cons_self
    have hpart : writeStep F manifests (.ok (some P)) =
        (writePart F P >>= fun manifest => Prog.ret (manifests ++ [manifest])) := rfl
    rw [hpart]
    refine (wp_bind _).mpr (wp_mono ?_ ?_ ?_ (wp_writePart hF hP rfl hlog))
    · rintro w (⟨hlog', hbefore | hafter⟩ | ⟨hlog', hnone, content, -, hhalf⟩)
      · exact ⟨done, _, _, hsteps, hdone, .inl ⟨hlog', hbefore⟩⟩
      · have hstep : installStep F (view F s) (.ok (some P)) = .ok (view F w.1) := hafter
        refine ⟨done ++ [.ok (some P)], rest, _, ?_, (installAll_snoc hdone).trans hstep,
          .inl ⟨hlog', rfl⟩⟩
        rw [hsteps, List.append_assoc]
        rfl
      · exact ⟨done, _, _, hsteps, hdone, .inr ⟨P, rest, rfl, hlog', hnone, content, hhalf⟩⟩
    · rintro _ w ⟨⟨hlog', hinstall⟩, -⟩
      have hstep : installStep F (view F s) (.ok (some P)) = .ok (view F w.1) := hinstall
      exact ⟨hlog', (installAll_snoc hdone).trans hstep⟩
    · rintro e w ⟨hlog', hbefore, hinstall⟩
      exact ⟨⟨done, _, _, hsteps, hdone, .inl ⟨hlog', hbefore⟩⟩, hraises e hinstall⟩

variable {w : Lake ν β × List (Event (PartFile ν) β)}

/-- The write of one part returns its manifest. -/
theorem run_writeStep (hF : F.Lawful) (hP : P.Lawful F) {manifests : List μ}
    (hrun : (writeSteps F [.ok (some P)]).run (answer F answers) (s, []) = (.ok manifests, w)) :
    ∃ m, manifests = [m] ∧ install F P (view F s) = .ok (view F w.1) ∧
      (view F w.1 P.name).2 = some (.ok (F.undated m)) := by
  have hwp : wp (Handled (answer F answers)) (AtStop F P (view F s)) (writeSteps F [.ok (some P)])
      (fun manifests w => ∃ m, manifests = [m] ∧ Returned F P (view F s) m w)
      (Raised F P (view F s)) (s, []) := by
    have hone : writeSteps F [.ok (some P)] =
        ((writePart F P >>= fun manifest => Prog.ret ([] ++ [manifest])) >>= Prog.ret) := rfl
    rw [hone]
    refine (wp_bind _).mpr ((wp_bind _).mpr (wp_mono (fun _ => id) ?_ (fun _ _ => id)
      (wp_writePart hF hP rfl halfway_nil)))
    exact fun m w hreturned => ⟨m, rfl, hreturned⟩
  obtain ⟨m, rfl, ⟨-, hinstall⟩, hmanifest⟩ := (wp_run hwp).1 manifests w hrun
  exact ⟨m, rfl, hinstall, hmanifest⟩

variable (answers s) in
/-- The write goes through as the files in place let it. -/
theorem run_writeSteps (hF : F.Lawful) (hlaw : LawfulSteps F steps) (hlog : halfway log = none) :
    (∀ manifests w, (writeSteps F steps).run (answer F answers) (s, log) = (.ok manifests, w) →
      installAll F (view F s) steps = .ok (view F w.1)) ∧
    ∀ e w, (writeSteps F steps).run (answer F answers) (s, log) = (.error e, w) →
      installAll F (view F s) steps = .error e := by
  obtain ⟨hok, herr⟩ := wp_run (wp_writeSteps answers _ hF hlaw rfl hlog)
  exact ⟨fun manifests w hrun => (hok manifests w hrun).2, fun e w hrun => (herr e w hrun).2⟩

/-- The write, stopped after `n` operations. -/
def stoppedAt (F : Format ν β μ ε) (answers : (q : Query ν) → Answer q) (steps : List (Step ν β μ ε))
    (s : Lake ν β) (n : Nat) : Lake ν β × List (Event (PartFile ν) β) :=
  stopped (answer F answers) n (writeSteps F steps) (s, [])

/-- **Parts are immutable**: a write, wherever it is stopped, leaves the files in place. -/
theorem stoppedAt_inPlace (F : Format ν β μ ε) (answers : (q : Query ν) → Answer q)
    (steps : List (Step ν β μ ε)) (s : Lake ν β) (n : Nat) :
    InPlace s (stoppedAt F answers steps s n).1 :=
  wp_stopped (leaves_writeSteps _ (InPlace.refl s)) n

/-- The whole write is one that is stopped after its last operation. -/
theorem run_eq_stoppedAt (F : Format ν β μ ε) (answers : (q : Query ν) → Answer q)
    (steps : List (Step ν β μ ε)) (s : Lake ν β) : ∃ n,
    ((writeSteps F steps).run (answer F answers) (s, [])).2 = stoppedAt F answers steps s n :=
  ⟨_, (stopped_of_count_le (le_refl _)).symm⟩

variable (answers s) in
theorem stoppedAt_atStop (hF : F.Lawful) (hlaw : LawfulSteps F steps) (n : Nat) :
    AllAtStop F steps (view F s) (stoppedAt F answers steps s n) := by
  refine wp_stopped (wp_mono (fun _ => id) ?_ (fun _ _ h => h.1)
    (wp_writeSteps answers s hF hlaw rfl halfway_nil)) n
  rintro _ w ⟨hlog, hall⟩
  exact ⟨steps, [], _, (List.append_nil _).symm, hall, .inl ⟨hlog, rfl⟩⟩

/-- What every installation keeps is kept up to every stop, if a part without a manifest does not
matter. -/
theorem AllAtStop.keeps {J : View ν β μ ε → Prop}
    (hinstall : ∀ P, .ok (some P) ∈ steps → ∀ V V', J V → install F P V = .ok V' → J V')
    (hpart : ∀ V n content, V n = (none, none) → J V → J (Function.update V n (some content, none)))
    (h : AllAtStop F steps V₀ w) (hJ : J V₀) : J (view F w.1) := by
  obtain ⟨done, rest, V, rfl, hdone, hcases⟩ := h
  have hall : J V := by
    refine installAll_invariant (fun P hP => hinstall P (List.mem_append_left rest hP)) hdone hJ
  rcases hcases with ⟨-, hview⟩ | ⟨P, later, -, -, hnone, content, hview⟩
  · exact hview ▸ hall
  · rw [hview]
    exact hpart V P.name content hnone hall

/-- The whole write returns, and leaves `s'`. -/
def Completes (F : Format ν β μ ε) (answers : (q : Query ν) → Answer q)
    (steps : List (Step ν β μ ε)) (s s' : Lake ν β) : Prop :=
  ∃ manifests log, (writeSteps F steps).run (answer F answers) (s, []) = (.ok manifests, s', log)

/-- **A write that is stopped resumes**: done again it returns, with what is readable after a
write that was not stopped, and a manifest is only there when its part is complete. -/
structure Resumes (F : Format ν β μ ε) (answers answers' : (q : Query ν) → Answer q)
    (steps : List (Step ν β μ ε)) (s : Lake ν β) (n : Nat) : Prop where
  again : ∃ whole resumed, Completes F answers steps s whole ∧
    Completes F answers' steps (stoppedAt F answers steps s n).1 resumed ∧
    readable F (view F resumed) = readable F (view F whole) ∧ Sound F (view F s) (view F resumed)
  sound : Sound F (view F s) (view F (stoppedAt F answers steps s n).1)

variable (answers s) in
/-- A write returns if and only if the files in place let it. -/
theorem completes_iff (hF : F.Lawful) (hlaw : LawfulSteps F steps) :
    (∀ s', Completes F answers steps s s' → installAll F (view F s) steps = .ok (view F s')) ∧
      ∀ V, installAll F (view F s) steps = .ok V → ∃ s', Completes F answers steps s s' ∧
        view F s' = V := by
  obtain ⟨hok, herr⟩ := run_writeSteps answers s hF hlaw halfway_nil
  constructor
  · rintro s' ⟨manifests, log, hrun⟩
    exact hok manifests _ hrun
  · intro V hV
    rcases hrun : (writeSteps F steps).run (answer F answers) (s, []) with ⟨e | manifests, s', log⟩
    · rw [herr e _ hrun] at hV
      cases hV
    · have hview := hok manifests _ hrun
      rw [hV] at hview
      exact ⟨s', ⟨manifests, log, hrun⟩, (Except.ok.inj hview).symm⟩

/-- **Exactly when a write resumes**: it returns by itself, and it was not stopped between the
rename of a part and the rename of its manifest. -/
theorem resumes_iff (hF : F.Lawful) (hlaw : LawfulSteps F steps) (n : Nat) :
    Resumes F answers answers' steps s n ↔
      (∃ s', Completes F answers steps s s') ∧ halfway (stoppedAt F answers steps s n).2 = none := by
  obtain ⟨done, rest, V, rfl, hdone, hcases⟩ := stoppedAt_atStop answers s hF hlaw n
  have hlaw₁ : LawfulSteps F done := fun P hP => hlaw P (List.mem_append_left _ hP)
  have hsound : Sound F (view F s) V := installAll_sound hF hlaw₁ hdone fun n m hm => .inl hm
  have hinstalled := installAll_installed hF hlaw₁ hdone
  rcases hcases with ⟨hlog, hview⟩ | ⟨P, later, rfl, hlog, hnone, content, hview⟩
  · -- what was done is verified, and the rest is as in the whole write
    have hsame : installAll F (view F (stoppedAt F answers (done ++ rest) s n).1) (done ++ rest) =
        installAll F (view F s) (done ++ rest) := by
      rw [hview, installAll_append (installAll_idle hinstalled), installAll_append hdone]
    constructor
    · rintro ⟨⟨whole, -, hwhole, -⟩, -⟩
      exact ⟨⟨whole, hwhole⟩, hlog⟩
    · rintro ⟨⟨whole, hwhole⟩, -⟩
      have hall := (completes_iff answers s hF hlaw).1 whole hwhole
      obtain ⟨resumed, hresumed, hviews⟩ := (completes_iff answers' _ hF hlaw).2 _
        (hsame.trans hall)
      refine ⟨⟨whole, resumed, hwhole, hresumed, by rw [hviews], ?_⟩, by rwa [hview]⟩
      rw [hviews]
      exact installAll_sound hF hlaw hall fun n m hm => .inl hm
  · -- the part is taken for an incomplete one
    constructor
    · rintro ⟨⟨-, resumed, -, hresumed, -⟩, -⟩
      have hall := (completes_iff answers' _ hF hlaw).1 resumed hresumed
      have hpart : (V P.name).1 = none := by rw [hnone]
      have hidle : installAll F (Function.update V P.name (some content, none)) done =
          .ok (Function.update V P.name (some content, none)) := by
        refine installAll_idle fun step hstep => ?_
        obtain ⟨o, ho, hQ⟩ := hinstalled step hstep
        exact ⟨o, ho, fun Q hmem => (hQ Q hmem).update hpart _⟩
      rw [hview, installAll_append hidle, installAll_cons] at hall
      simp [installStep, install] at hall
    · rintro ⟨-, hnot⟩
      rw [hlog] at hnot
      cases hnot

end Several

end Parts
