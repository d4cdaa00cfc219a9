import Greenfield.Ml.TournamentSplits

/-!
# Purged k-fold

`purged_kfold_split` of `src/ml/splits.py`. A label is purged when it meets the time range of the
fold, prolonged by the embargo (`purged_kfold`). The labels of the fold themselves may end later:
a training row that starts after the embargo may be inside one of them (`long_label_leaks`).
-/

namespace Greenfield.Ml

open Py

/-- An integer from a number, toward zero. -/
def truncate (q : ℚ) : ℤ := if 0 ≤ q then ⌊q⌋ else ⌈q⌉

/-- `total_span * embargo_fraction`, in nanoseconds. -/
def embargoDelta (timestamps : List ℤ) (embargoFraction : ℚ) : ℤ :=
  truncate ((timestamps.getLastD 0 - timestamps.headD 0 : ℤ) * embargoFraction)

/-- `train_mask`: rows with a label that is not purged, outside the test rows. -/
def trainMask (timestamps : List ℤ) (labelEndTimes : List (Option ℤ))
    (testStartTime embargoEndTime : ℤ) (testStartIdx testEndIdx i : ℕ) : Bool :=
  labelEndTimes[i]?.join.any (fun labelEnd =>
    !(timestamps[i]?.any (· ≤ embargoEndTime) && testStartTime ≤ labelEnd)) &&
    !(testStartIdx ≤ i && i < testEndIdx)

/-- The training and the test rows of the fold from `testStartIdx` to `testEndIdx`. -/
def purgedFold (timestamps : List ℤ) (labelEndTimes : List (Option ℤ)) (embargoDelta : ℤ)
    (testStartIdx testEndIdx : ℕ) : Except MlError (List ℕ × List ℕ) := do
  let testStartTime ← timeAt timestamps testStartIdx
  -- `iloc[-1]` is the last row
  let testEndTime ← timeAt timestamps ((if testEndIdx = 0 then timestamps.length else testEndIdx) - 1)
  let embargoEndTime := testEndTime + embargoDelta
  return ((List.range timestamps.length).filter
      (trainMask timestamps labelEndTimes testStartTime embargoEndTime testStartIdx testEndIdx),
    List.range' testStartIdx (testEndIdx - testStartIdx))

def purgedKfoldSplit (timestamps : List ℤ) (labelEndTimes : List (Option ℤ)) (nSplits : ℤ)
    (embargoFraction : ℚ) : Except MlError (List (List ℕ × List ℕ)) :=
  if timestamps.length ≠ labelEndTimes.length then
    .error (.valueError "timestamps and label_end_times must be the same length")
  else if nSplits < 2 then .error (.valueError "n_splits must be >= 2")
  else if timestamps = [] then .error (.indexError "single positional indexer is out-of-bounds")
  else
    let bound := linspace timestamps.length (nSplits.toNat + 1)
    (List.range nSplits.toNat).mapM fun i =>
      purgedFold timestamps labelEndTimes (embargoDelta timestamps embargoFraction) (bound i)
        (bound (i + 1))

/-! ## What is purged -/

/-- Row `i` has a label from `start` to `stop`. -/
def Labeled (timestamps : List ℤ) (labelEndTimes : List (Option ℤ)) (i : ℕ) (start stop : ℤ) :
    Prop :=
  timestamps[i]? = some start ∧ labelEndTimes[i]? = some (some stop)

/-- Two intervals have a point in common. -/
def Meets (start stop start' stop' : ℤ) : Prop := start ≤ stop' ∧ start' ≤ stop

/-- What a fold keeps apart. -/
structure Purged (timestamps : List ℤ) (labelEndTimes : List (Option ℤ)) (embargo : ℤ)
    (train test : List ℕ) : Prop where
  disjoint : train.Disjoint test
  labeled : ∀ i ∈ train, ∃ start stop, Labeled timestamps labelEndTimes i start stop
  /-- No label in training meets the time range of the fold with the embargo. -/
  range : ∀ i ∈ train, ∀ start stop, Labeled timestamps labelEndTimes i start stop →
    ∀ first last, test.head?.bind (timestamps[·]?) = some first →
      test.getLast?.bind (timestamps[·]?) = some last → ¬ Meets start stop first (last + embargo)
  /-- No label in training starts in the embargo. -/
  embargoed : ∀ i ∈ train, ∀ start stop, Labeled timestamps labelEndTimes i start stop →
    start ≤ stop → ∀ last, test.getLast?.bind (timestamps[·]?) = some last →
      ¬ (last < start ∧ start ≤ last + embargo)
  /-- A label in training meets one of the fold only if it starts after the embargo. -/
  apart : ∀ i ∈ train, ∀ j ∈ test, ∀ start stop start' stop',
    Labeled timestamps labelEndTimes i start stop → Labeled timestamps labelEndTimes j start' stop' →
      Meets start stop start' stop' → ∀ last, test.getLast?.bind (timestamps[·]?) = some last →
        last + embargo < start

variable {ts : List ℤ} {ends : List (Option ℤ)} {s e : ℕ} {embargo : ℤ}

variable {i : ℕ}

theorem timeAt_eq_ok (h : i < ts.length) : timeAt ts i = .ok ts[i] := by
  simp [timeAt, h]

theorem trainMask_labeled {first last : ℤ} (hi : i < ts.length)
    (h : trainMask ts ends first last s e i = true) : ∃ start stop, Labeled ts ends i start stop := by
  simp only [trainMask, Bool.and_eq_true, Option.any_eq_true] at h
  obtain ⟨⟨stop, hstop, -⟩, -⟩ := h
  exact ⟨ts[i], stop, List.getElem?_eq_getElem hi, Option.join_eq_some_iff.mp hstop⟩

/-- What is left for training is neither purged nor tested. -/
theorem trainMask_apart {first last start stop : ℤ} (hlabel : Labeled ts ends i start stop)
    (h : trainMask ts ends first last s e i = true) :
    ¬ Meets start stop first last ∧ ¬ (s ≤ i ∧ i < e) := by
  simp only [trainMask, hlabel.1, hlabel.2, Option.join_some, Option.any_some, Bool.and_eq_true,
    Bool.not_eq_true', Bool.and_eq_false_iff, decide_eq_false_iff_not] at h
  exact ⟨fun hmeets => h.1.elim (· hmeets.1) (· hmeets.2), fun hin => h.2.elim (· hin.1) (· hin.2)⟩

variable (ends embargo) in
/-- A fold of some rows. -/
theorem purgedFold_purged (hsorted : ts.Pairwise (· ≤ ·)) (hs : s < ts.length) (hse : s ≤ e)
    (he : e ≤ ts.length) :
    ∃ train, purgedFold ts ends embargo s e = .ok (train, List.range' s (e - s)) ∧
      Purged ts ends embargo train (List.range' s (e - s)) := by
  have hlast : (if e = 0 then ts.length else e) - 1 < ts.length := by
    split <;> omega
  refine ⟨_, by rw [purgedFold, timeAt_eq_ok hs, timeAt_eq_ok hlast]; rfl, ?_⟩
  set first := ts[s] with hfirst
  set last := ts[(if e = 0 then ts.length else e) - 1] with hlast'
  have hle : ∀ {i j : ℕ} (hi : i < ts.length) (hj : j < ts.length), i ≤ j → ts[i] ≤ ts[j] := by
    intro i j hi hj hij
    rcases hij.eq_or_lt with rfl | hlt
    · exact le_rfl
    · exact List.pairwise_iff_getElem.mp hsorted i j hi hj hlt
  -- the time of a test row is from the first to the last of them
  have htimes : ∀ j ∈ List.range' s (e - s), ∀ start, ts[j]? = some start →
      first ≤ start ∧ start ≤ last := by
    intro j hj start hstart
    obtain ⟨hlow, hhigh⟩ := List.mem_range'_1.mp hj
    obtain ⟨hj, rfl⟩ := List.getElem?_eq_some_iff.mp hstart
    refine ⟨hle hs hj hlow, hle hj hlast ?_⟩
    split <;> omega
  have hhead : ∀ x, (List.range' s (e - s)).head?.bind (ts[·]?) = some x → x = first := by
    intro x hx
    rw [List.head?_range'] at hx
    split at hx
    · cases hx
    · rw [Option.bind_some, List.getElem?_eq_getElem hs] at hx
      exact (Option.some.inj hx).symm
  have hlast_eq : ∀ x, (List.range' s (e - s)).getLast?.bind (ts[·]?) = some x →
      x = last ∧ first ≤ last := by
    intro x hx
    rw [List.getLast?_range'] at hx
    split at hx
    · cases hx
    · next hn =>
      rw [Option.bind_some, show s + (e - s) - 1 = (if e = 0 then ts.length else e) - 1 by
        split <;> omega, List.getElem?_eq_getElem hlast] at hx
      refine ⟨(Option.some.inj hx).symm, hle hs hlast ?_⟩
      split <;> omega
  refine ⟨?_, ?_, ?_, ?_, ?_⟩
  · intro i hi hj
    obtain ⟨start, stop, hlabel⟩ := trainMask_labeled (List.mem_range.mp (List.mem_of_mem_filter hi))
      (List.of_mem_filter hi)
    have hj := List.mem_range'_1.mp hj
    exact (trainMask_apart hlabel (List.of_mem_filter hi)).2 ⟨hj.1, by omega⟩
  · intro i hi
    exact trainMask_labeled (List.mem_range.mp (List.mem_of_mem_filter hi)) (List.of_mem_filter hi)
  · intro i hi start stop hlabel x y hx hy
    rw [hhead x hx, (hlast_eq y hy).1]
    exact (trainMask_apart hlabel (List.of_mem_filter hi)).1
  · intro i hi start stop hlabel hforward x hx hin
    obtain ⟨rfl, hbounds⟩ := hlast_eq x hx
    refine (trainMask_apart hlabel (List.of_mem_filter hi)).1 ⟨hin.2, ?_⟩
    omega
  · intro i hi j hj start stop start' stop' hlabel hlabel' hmeets x hx
    obtain ⟨rfl, -⟩ := hlast_eq x hx
    by_contra hbefore
    refine (trainMask_apart hlabel (List.of_mem_filter hi)).1 ⟨not_lt.mp hbefore, ?_⟩
    exact (htimes j hj start' hlabel'.1).1.trans hmeets.2

/-- The blocks between bounds that go up are what is from the first bound to the last. -/
theorem flatten_blocks {bound : ℕ → ℕ} (hmono : Monotone bound) (k : ℕ) :
    ((List.range k).map fun i => List.range' (bound i) (bound (i + 1) - bound i)).flatten =
      List.range' (bound 0) (bound k - bound 0) := by
  induction k with
  | zero => simp
  | succ k ih =>
    rw [List.range_succ, List.map_append, List.flatten_append, ih, List.map_singleton,
      List.flatten_singleton]
    have hfirst := hmono (Nat.zero_le k)
    have hnext : bound k ≤ bound (k + 1) := hmono (Nat.le_succ k)
    have hstart : bound k = bound 0 + (bound k - bound 0) := by omega
    rw [show bound (k + 1) - bound 0 = bound k - bound 0 + (bound (k + 1) - bound k) by omega,
      ← List.range'_append_1, ← hstart]

end Greenfield.Ml
