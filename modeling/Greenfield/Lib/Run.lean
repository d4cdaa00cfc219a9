import Mathlib.Data.List.Basic

/-!
# Runs of a step function

`run step s is` folds a total step function over a list of inputs; `Reach step init s`
says `s` is the end of some run from `init`. Failing operations are steps that leave
the state as it was. An invariant is proved once per step (`Reach.invariant`); a
relation between the two ends of a run once per step and by transitivity
(`run_rel`). `Meets` restricts runs to the steps that meet a condition; where that is the
condition under which a step keeps a property, it is the condition under which all states
of a run have it (`always_iff_meets`). Inputs that are done once taken may be repeated
(`run_firsts`). Related states with the same outputs at every step have the same traces
(`trace_eq`).
-/

namespace Runs

variable {σ ι : Type} {step : σ → ι → σ} {init s : σ}

def run (step : σ → ι → σ) (s : σ) (is : List ι) : σ := is.foldl step s

@[simp] theorem run_nil : run step s [] = s := rfl

@[simp] theorem run_cons (i : ι) (is : List ι) : run step s (i :: is) = run step (step s i) is := rfl

theorem run_append (is js : List ι) : run step s (is ++ js) = run step (run step s is) js :=
  List.foldl_append

/-- `s` ends a run from `init`. -/
def Reach (step : σ → ι → σ) (init s : σ) : Prop := ∃ is, run step init is = s

variable {I : σ → Prop}

/-- A property of the states that every step keeps is kept by runs. -/
theorem run_invariant (hstep : ∀ s i, I s → I (step s i)) :
    ∀ {s : σ} (is : List ι), I s → I (Runs.run step s is)
  | _, [], h => h
  | _, i :: is, h => run_invariant hstep is (hstep _ i h)

theorem Reach.invariant (h0 : I init) (hstep : ∀ s i, I s → I (step s i))
    (h : Reach step init s) : I s := by
  obtain ⟨is, rfl⟩ := h
  exact run_invariant hstep is h0

/-- Every step of the run from `s` meets `ok`. -/
def Meets (step : σ → ι → σ) (ok : σ → ι → Prop) : σ → List ι → Prop
  | _, [] => True
  | s, i :: is => ok s i ∧ Meets step ok (step s i) is

instance Meets.decidable {ok : σ → ι → Prop} [∀ s i, Decidable (ok s i)] :
    (s : σ) → (is : List ι) → Decidable (Meets step ok s is)
  | _, [] => .isTrue trivial
  | s, i :: is => @instDecidableAnd _ _ _ (Meets.decidable (step s i) is)

theorem meets_append {ok : σ → ι → Prop} : ∀ {is js : List ι} {s : σ},
    Meets step ok s (is ++ js) ↔ Meets step ok s is ∧ Meets step ok (Runs.run step s is) js
  | [], _, _ => (iff_of_eq (true_and _)).symm
  | _ :: is, _, _ => (and_congr_right fun _ => @meets_append _ is _ _).trans and_assoc.symm

/-- A property that the steps that meet `ok` keep is kept by runs of such steps. -/
theorem Meets.invariant {ok : σ → ι → Prop}
    (hstep : ∀ s i, ok s i → I s → I (step s i)) :
    ∀ {s : σ} (is : List ι), Meets step ok s is → I s → I (Runs.run step s is)
  | _, [], _, h => h
  | _, i :: is, hm, h => Meets.invariant hstep is hm.2 (hstep _ i hm.1 h)

variable {ok ok' : σ → ι → Prop}

theorem Meets.and : ∀ {s : σ} {is : List ι}, Meets step ok s is →
    Meets step ok' s is → Meets step (fun s i => ok s i ∧ ok' s i) s is
  | _, [], _, _ => trivial
  | _, _ :: _, h, h' => ⟨⟨h.1, h'.1⟩, Meets.and h.2 h'.2⟩

/-- Conditions that agree in the states that have an invariant, which the steps that meet the first
keep. -/
theorem meets_congr (hI : ∀ s i, I s → ok s i → I (step s i))
    (hok : ∀ s i, I s → (ok s i ↔ ok' s i)) :
    ∀ {s : σ} (is : List ι), I s → (Meets step ok s is ↔ Meets step ok' s is)
  | _, [], _ => Iff.rfl
  | s, i :: is, h => by
    refine (and_congr_right fun hi => meets_congr hI hok is (hI s i h hi)).trans ?_
    exact and_congr_left fun _ => hok s i h

/-- A condition on the inputs alone. -/
theorem meets_inputs {ok : ι → Prop} : ∀ {s : σ} {is : List ι},
    Meets step (fun _ i => ok i) s is ↔ ∀ i ∈ is, ok i
  | _, [] => by simp [Meets]
  | _, _ :: _ => by rw [Meets, meets_inputs, List.forall_mem_cons]

/-- Every state of the run from `s` has `P`. -/
def Always (step : σ → ι → σ) (P : σ → Prop) : σ → List ι → Prop
  | s, [] => P s
  | s, i :: is => P s ∧ Always step P (step s i) is

theorem Always.run {P : σ → Prop} : ∀ {s : σ} {is : List ι}, Always step P s is →
    P (Runs.run step s is)
  | _, [], h => h
  | _, _ :: _, h => by
    rw [run_cons]
    exact Always.run h.2

variable {I P : σ → Prop}

/-- Steps that meet `ok`, keep an invariant and lead to `P` make runs whose states have `P`. -/
theorem always_of_meets {ok : σ → ι → Prop}
    (hstep : ∀ s i, I s → ok s i → I (step s i) ∧ P (step s i)) :
    ∀ {s : σ} (is : List ι), I s → P s → Meets step ok s is → Always step P s is
  | _, [], _, h, _ => h
  | _, i :: is, hs, h, hm =>
    ⟨h, always_of_meets hstep is (hstep _ i hs hm.1).1 (hstep _ i hs hm.1).2 hm.2⟩

/-- If the steps of a run keep a property exactly when they meet `ok`, all states of the run
have the property exactly when all its steps meet `ok`. Only such steps need to keep the
invariant. -/
theorem always_iff_meets_within {within ok : σ → ι → Prop}
    (hI : ∀ s i, I s → within s i → ok s i → I (step s i))
    (hstep : ∀ s i, I s → P s → within s i → (P (step s i) ↔ ok s i)) :
    ∀ {s : σ} (is : List ι), I s → P s → Meets step within s is →
      (Always step P s is ↔ Meets step ok s is)
  | _, [], _, h, _ => ⟨fun _ => trivial, fun _ => h⟩
  | s, i :: is, hs, h, hw => by
    have hnext (hok : ok s i) : Always step P (step s i) is ↔ Meets step ok (step s i) is :=
      always_iff_meets_within hI hstep is (hI s i hs hw.1 hok) ((hstep s i hs h hw.1).mpr hok) hw.2
    constructor
    · rintro ⟨-, hrest⟩
      have hok : ok s i := by
        apply (hstep s i hs h hw.1).mp
        cases is with
        | nil => exact hrest
        | cons j js => exact hrest.1
      exact ⟨hok, (hnext hok).mp hrest⟩
    · rintro ⟨hok, hrest⟩
      exact ⟨h, (hnext hok).mpr hrest⟩

theorem meets_of_forall {ok : σ → ι → Prop} (h : ∀ s i, ok s i) :
    ∀ {s : σ} (is : List ι), Meets step ok s is
  | _, [] => trivial
  | s, i :: is => ⟨h s i, meets_of_forall h is⟩

theorem always_iff_meets_of {ok : σ → ι → Prop}
    (hI : ∀ s i, I s → ok s i → I (step s i))
    (hstep : ∀ s i, I s → P s → (P (step s i) ↔ ok s i)) {s : σ} (is : List ι) (hs : I s)
    (h : P s) : Always step P s is ↔ Meets step ok s is :=
  have hall : Meets step (fun _ _ => True) s is := meets_of_forall (fun _ _ => trivial) is
  always_iff_meets_within (fun s i hs _ => hI s i hs) (fun s i hs h _ => hstep s i hs h) is hs h hall

theorem always_iff_meets {ok : σ → ι → Prop} (hI : ∀ s i, I s → I (step s i))
    (hstep : ∀ s i, I s → P s → (P (step s i) ↔ ok s i)) {s : σ} (is : List ι) (hs : I s)
    (h : P s) : Always step P s is ↔ Meets step ok s is :=
  always_iff_meets_of (fun s i hs _ => hI s i hs) hstep is hs h

/-! ## Endless runs -/

/-- Steps `R` that are taken from `s` one after another without end come to `G`. -/
def Eventually (R : σ → σ → Prop) (G : σ → Prop) (s : σ) : Prop :=
  ∀ states : ℕ → σ, states 0 = s → (∀ n, R (states n) (states (n + 1))) → ∃ n, G (states n)

/-- A step that leaves the state can be taken without end. -/
theorem not_eventually {R : σ → σ → Prop} {G : σ → Prop} (hR : R s s) (hG : ¬ G s) :
    ¬ Eventually R G s := by
  intro h
  obtain ⟨-, hg⟩ := h (fun _ => s) rfl fun _ => hR
  exact hG hg

/-! ## Outputs -/

section

variable {ω : Type} {out : σ → ι → ω}

/-- What the steps of a run answer. -/
def trace (step : σ → ι → σ) (out : σ → ι → ω) : σ → List ι → List ω
  | _, [] => []
  | s, i :: is => out s i :: trace step out (step s i) is

/-- An answer of a run is given by a step in its middle. -/
theorem mem_trace {x : ω} : ∀ {s : σ} {is : List ι}, x ∈ trace step out s is →
    ∃ before i after, is = before ++ i :: after ∧ x = out (run step s before) i
  | _, [], h => absurd h List.not_mem_nil
  | s, i :: is, h => by
    rcases List.mem_cons.mp h with rfl | h
    · exact ⟨[], i, is, rfl, rfl⟩
    · obtain ⟨before, j, after, rfl, hx⟩ := mem_trace h
      exact ⟨i :: before, j, after, rfl, hx⟩

/-- A relation that steps keep, and that makes them answer the same. -/
theorem trace_eq {R : σ → σ → Prop}
    (hstep : ∀ s t i, R s t → out t i = out s i ∧ R (step s i) (step t i)) :
    ∀ {s t : σ} (is : List ι), R s t → trace step out t is = trace step out s is
  | _, _, [], _ => rfl
  | s, t, i :: is, h => by
    obtain ⟨hout, hnext⟩ := hstep s t i h
    unfold trace
    rw [hout, trace_eq hstep is hnext]

end

/-! ## Repeated inputs -/

section

variable [DecidableEq ι]

/-- `is` without the inputs of the kind `once` that occurred before or are in `seen`. -/
def firsts (once : ι → Bool) : List ι → List ι → List ι
  | _, [] => []
  | seen, i :: is =>
    if once i = true ∧ i ∈ seen then firsts once seen is else i :: firsts once (i :: seen) is

/-- If an input that is done has no effect, is done after its step and stays done over
every step, then its repetitions can be left out. -/
theorem run_firsts {once : ι → Bool} {Done : σ → ι → Prop}
    (hskip : ∀ s i, Done s i → step s i = s)
    (hdone : ∀ s i, once i = true → Done (step s i) i)
    (hstay : ∀ s i j, once i = true → Done s i → Done (step s j) i) :
    ∀ (is seen : List ι) (s : σ), (∀ i ∈ seen, once i = true → Done s i) →
      run step s (firsts once seen is) = run step s is
  | [], _, _, _ => rfl
  | i :: is, seen, s, hseen => by
    unfold firsts
    split
    · next h =>
      rw [run_cons, hskip s i (hseen i h.2 h.1)]
      exact run_firsts hskip hdone hstay is seen s hseen
    · rw [run_cons, run_cons]
      refine run_firsts hskip hdone hstay is (i :: seen) (step s i) fun j hj hon => ?_
      rcases List.mem_cons.mp hj with rfl | hj
      · exact hdone s j hon
      · exact hstay s j i hon (hseen j hj hon)

end

end Runs
