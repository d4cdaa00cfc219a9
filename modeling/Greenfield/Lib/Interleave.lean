import Mathlib.Data.List.Basic

/-!
# Interleaved streams

Inputs belong to streams by a key. Two lists with the same streams are interleavings of each
other. If inputs of different streams commute in a step function that may fail, then the
interleavings of some streams fail together, or end in the same state (`run_interleaving`).
-/

namespace Interleave

variable {σ ι κ : Type} {step : σ → ι → Option σ} {key : ι → κ}

/-- The inputs of a stream, in their order. -/
def stream [DecidableEq κ] (key : ι → κ) (k : κ) (is : List ι) : List ι := is.filter fun i => key i = k

/-- Both lists have the same inputs of every stream, in the same order. -/
def Interleaving [DecidableEq κ] (key : ι → κ) (is js : List ι) : Prop :=
  ∀ k, stream key k is = stream key k js

/-- The step function, over a list of inputs, until it fails. -/
def run (step : σ → ι → Option σ) : σ → List ι → Option σ
  | s, [] => some s
  | s, i :: is => (step s i).bind fun s' => run step s' is

/-- Inputs of different streams commute. -/
def Commutes (step : σ → ι → Option σ) (key : ι → κ) : Prop :=
  ∀ s i j, key i ≠ key j → (step s i).bind (step · j) = (step s j).bind (step · i)

/-- An input may be taken before inputs of other streams. -/
theorem run_front (hcomm : Commutes step key) {i : ι} : ∀ {pre post : List ι} {s : σ},
    (∀ j ∈ pre, key j ≠ key i) → run step s (pre ++ i :: post) = run step s (i :: (pre ++ post))
  | [], _, _, _ => rfl
  | j :: pre, post, s, h => by
    have hpre : ∀ s', run step s' (pre ++ i :: post) = run step s' (i :: (pre ++ post)) := fun s' =>
      run_front hcomm fun k hk => h k (List.mem_cons_of_mem _ hk)
    calc run step s (j :: pre ++ i :: post)
        = (step s j).bind fun s' => run step s' (i :: (pre ++ post)) := by
          rw [List.cons_append, run]
          exact congrArg _ (funext hpre)
      _ = ((step s j).bind (step · i)).bind fun s' => run step s' (pre ++ post) := by
          rw [Option.bind_assoc]
          rfl
      _ = ((step s i).bind (step · j)).bind fun s' => run step s' (pre ++ post) := by
          rw [hcomm s j i (h j List.mem_cons_self)]
      _ = run step s (i :: (j :: pre ++ post)) := by
          rw [Option.bind_assoc]
          rfl

theorem Interleaving.nil [DecidableEq κ] {js : List ι} (h : Interleaving key [] js) : js = [] := by
  cases js with
  | nil => rfl
  | cons j js =>
    have hj := h (key j)
    rw [stream, stream, List.filter_cons_of_pos (by simp)] at hj
    cases hj

/-- The other list has the first input after inputs of other streams. -/
theorem Interleaving.cons [DecidableEq κ] {i : ι} {is js : List ι} (h : Interleaving key (i :: is) js) :
    ∃ pre post, js = pre ++ i :: post ∧ (∀ j ∈ pre, key j ≠ key i) ∧
      Interleaving key is (pre ++ post) := by
  have hown := h (key i)
  rw [stream, List.filter_cons_of_pos (by simp)] at hown
  obtain ⟨pre, post, rfl, hpre, -, hpost⟩ := List.filter_eq_cons_iff.mp hown.symm
  have hother : ∀ j ∈ pre, key j ≠ key i := fun j hj => by simpa using hpre j hj
  refine ⟨pre, post, rfl, hother, fun k => ?_⟩
  have hk := h k
  unfold stream at hk ⊢
  rw [List.filter_append] at hk ⊢
  by_cases hkey : key i = k
  · subst hkey
    have hnil : pre.filter (fun j => key j = key i) = [] :=
      List.filter_eq_nil_iff.mpr fun j hj => by simpa using hother j hj
    rw [hnil, List.nil_append, hpost]
  · rw [List.filter_cons_of_neg (by simpa using hkey),
      List.filter_cons_of_neg (by simpa using hkey)] at hk
    exact hk

/-- Two inputs of different streams, in both orders. -/
theorem Interleaving.swap [DecidableEq κ] {i j : ι} (h : key i ≠ key j) :
    Interleaving key [i, j] [j, i] := by
  intro k
  unfold stream
  by_cases hi : key i = k
  · have hj : key j ≠ k := fun hj => h (hi.trans hj.symm)
    simp [hi, hj]
  · by_cases hj : key j = k <;> simp [hi, hj]

/-- **Interleavings** fail together, or end in the same state. -/
theorem run_interleaving [DecidableEq κ] (hcomm : Commutes step key) :
    ∀ {is js : List ι} {s : σ}, Interleaving key is js → run step s is = run step s js
  | [], _, _, h => by rw [h.nil]
  | i :: is, _, s, h => by
    obtain ⟨pre, post, rfl, hother, hrest⟩ := h.cons
    rw [run_front hcomm hother, run, run]
    exact congrArg _ (funext fun s' => run_interleaving hcomm hrest)

/-- Inputs commute if neither changes whether the other fails, and both orders end alike. -/
theorem commutes_of_total {next : σ → ι → σ} {ok : σ → ι → Bool}
    (hok : ∀ s i j, key i ≠ key j → ok (next s i) j = ok s j)
    (hnext : ∀ s i j, key i ≠ key j → next (next s i) j = next (next s j) i) :
    Commutes (fun s i => if ok s i then some (next s i) else none) key := by
  intro s i j hkey
  have hi := hok s j i (Ne.symm hkey)
  have hj := hok s i j hkey
  cases hoki : ok s i <;> cases hokj : ok s j <;>
    simp [hoki, hokj, hi, hj, hnext s i j hkey]

end Interleave
