import Greenfield.Py.Basic

/-!
# Stable regime labels

`stabilize_regime_labels` of `src/regimes/multidomain.py`. A candidate is `none` where it is
missing. The three variables of the loop say which window of equal candidates was the latest since
the last missing value (`Tracks`), and the output is the label of that window
(`stabilizeRegimeLabels_isStabilized`).
-/

namespace Greenfield.Regimes

open Py

structure Stabilizer where
  stable : Option String
  pending : Option String
  pendingCount : ℤ

/-- What a candidate does to the pending label. -/
def Stabilizer.count (s : Stabilizer) (candidate : String) : Stabilizer :=
  if s.stable = some candidate then { s with pending := none, pendingCount := 0 }
  else if s.pending = some candidate then { s with pendingCount := s.pendingCount + 1 }
  else { s with pending := some candidate, pendingCount := 1 }

/-- One turn of the loop. -/
def Stabilizer.step (confirmationBars : ℤ) (s : Stabilizer) : Option String → Stabilizer
  | none => ⟨none, none, 0⟩
  | some candidate =>
    if confirmationBars ≤ (s.count candidate).pendingCount then ⟨some candidate, none, 0⟩
    else s.count candidate

/-- The stable label after each candidate. -/
def stabilize (confirmationBars : ℤ) : Stabilizer → List (Option String) → List (Option String)
  | _, [] => []
  | s, candidate :: rest =>
    (s.step confirmationBars candidate).stable ::
      stabilize confirmationBars (s.step confirmationBars candidate) rest

/-- `stabilize_regime_labels`. -/
def stabilizeRegimeLabels (confirmationBars : ℤ) (candidates : List (Option String)) :
    Except PyError (List (Option String)) :=
  if confirmationBars < 1 then .error (.valueError "confirmation_bars must be positive")
  else .ok (stabilize confirmationBars ⟨none, none, 0⟩ candidates)

/-! ## The candidates since a missing value -/

/-- The candidates since the last missing value, of those so far. The latest comes first. -/
def live : List (Option String) → List String
  | [] => []
  | none :: _ => []
  | some c :: past => c :: live past

/-- How many of the latest candidates are the same. -/
def headRun : List String → ℕ
  | [] => 0
  | c :: h => ((c :: h).takeWhile (· = c)).length

/-- The label of the latest window of `k` equal candidates. -/
def settled (k : ℕ) : List String → Option String
  | [] => none
  | c :: h => if k ≤ headRun (c :: h) then some c else settled k h

/-- What the variables of the loop say of the candidates since the last missing value. -/
structure Tracks (k : ℕ) (h : List String) (s : Stabilizer) : Prop where
  stable : s.stable = settled k h
  pending : (s.pending = none ∧ s.pendingCount = 0 ∧ (h = [] ∨ h.head? = s.stable)) ∨
    ∃ c, s.pending = some c ∧ h.head? = some c ∧ s.stable ≠ some c ∧
      s.pendingCount = headRun h ∧ headRun h < k

variable {k : ℕ} {h : List String} {s : Stabilizer} {c : String}

theorem headRun_cons_self (h : List String) (hhead : h.head? = some c) :
    headRun (c :: h) = headRun h + 1 := by
  cases h with
  | nil => cases hhead
  | cons d h =>
    cases hhead
    simp [headRun]

theorem headRun_cons_ne (hhead : h.head? ≠ some c) : headRun (c :: h) = 1 := by
  cases h with
  | nil => simp [headRun]
  | cons d h =>
    have hdc : d ≠ c := fun heq => hhead (heq ▸ rfl)
    simp [headRun, hdc]

theorem step_some (confirmationBars : ℤ) (s : Stabilizer) (c : String) :
    s.step confirmationBars (some c) =
      if confirmationBars ≤ (s.count c).pendingCount then ⟨some c, none, 0⟩ else s.count c := rfl

theorem count_stable (h : s.stable = some c) :
    s.count c = { s with pending := none, pendingCount := 0 } := if_pos h

theorem count_pending (h : s.stable ≠ some c) (hpending : s.pending = some c) :
    s.count c = { s with pendingCount := s.pendingCount + 1 } := by
  unfold Stabilizer.count
  rw [if_neg h, if_pos hpending]

theorem count_other (h : s.stable ≠ some c) (hpending : s.pending ≠ some c) :
    s.count c = { s with pending := some c, pendingCount := 1 } := by
  unfold Stabilizer.count
  rw [if_neg h, if_neg hpending]

theorem tracks_missing (k : ℕ) (confirmationBars : ℤ) (s : Stabilizer) :
    Tracks k [] (s.step confirmationBars none) :=
  ⟨rfl, .inl ⟨rfl, rfl, .inl rfl⟩⟩

/-- **One candidate more.** -/
theorem Tracks.step (ht : Tracks k h s) (hk : 1 ≤ k) (c : String) :
    Tracks k (c :: h) (s.step k (some c)) := by
  obtain ⟨hstable, hpending⟩ := ht
  have hsettled : settled k (c :: h) =
      if k ≤ headRun (c :: h) then some c else settled k h := rfl
  rw [step_some]
  by_cases hsame : s.stable = some c
  · -- the stable label again
    rw [count_stable hsame, if_neg (by show ¬ (k : ℤ) ≤ 0; omega)]
    refine ⟨?_, .inl ⟨rfl, rfl, .inr hsame.symm⟩⟩
    show s.stable = _
    rw [hsettled, ← hstable, hsame, ite_self]
  · by_cases hagain : s.pending = some c
    · -- the pending label again
      obtain ⟨hnone, -⟩ | ⟨d, hd, hhead, -, hcount, hless⟩ := hpending
      · rw [hnone] at hagain
        cases hagain
      · obtain rfl : d = c := Option.some.inj (hd.symm.trans hagain)
        rw [count_pending hsame hagain]
        have hrun := headRun_cons_self h hhead
        by_cases hfull : k ≤ headRun (d :: h)
        · rw [if_pos (by show (k : ℤ) ≤ s.pendingCount + 1; omega)]
          exact ⟨by rw [hsettled, if_pos hfull], .inl ⟨rfl, rfl, .inr rfl⟩⟩
        · rw [if_neg (by show ¬ (k : ℤ) ≤ s.pendingCount + 1; omega)]
          refine ⟨by rw [hsettled, if_neg hfull]; exact hstable,
            .inr ⟨d, hagain, rfl, hsame, ?_, by omega⟩⟩
          show s.pendingCount + 1 = _
          omega
    · -- another label
      rw [count_other hsame hagain]
      have hhead : h.head? ≠ some c := by
        obtain ⟨-, -, rfl | hhead⟩ | ⟨d, hd, hhead, -⟩ := hpending
        · simp
        · rw [hhead]
          exact hsame
        · rw [hhead, ← hd]
          exact hagain
      have hrun := headRun_cons_ne hhead
      by_cases hfull : k ≤ headRun (c :: h)
      · rw [if_pos (by show (k : ℤ) ≤ 1; omega)]
        exact ⟨by rw [hsettled, if_pos hfull], .inl ⟨rfl, rfl, .inr rfl⟩⟩
      · rw [if_neg (by show ¬ (k : ℤ) ≤ 1; omega)]
        refine ⟨by rw [hsettled, if_neg hfull]; exact hstable,
          .inr ⟨c, rfl, rfl, hsame, ?_, by omega⟩⟩
        show (1 : ℤ) = _
        omega

theorem tracks_next (hk : 1 ≤ k) {past : List (Option String)} (ht : Tracks k (live past) s)
    (candidate : Option String) :
    Tracks k (live (candidate :: past)) (s.step k candidate) := by
  cases candidate with
  | none => exact tracks_missing k k s
  | some c => exact ht.step hk c

/-- **A run**: each output is that of the candidates so far. -/
theorem stabilize_getElem (hk : 1 ≤ k) : ∀ {candidates past : List (Option String)} {s : Stabilizer},
    Tracks k (live past) s → ∀ i < candidates.length, (stabilize k s candidates)[i]? =
      some (settled k (live ((candidates.take (i + 1)).reverse ++ past)))
  | candidate :: rest, past, s, ht, 0, _ => by
    have hnext := tracks_next hk ht candidate
    show some (s.step k candidate).stable = _
    rw [hnext.stable]
    rfl
  | candidate :: rest, past, s, ht, i + 1, hi => by
    have hrest := stabilize_getElem hk (tracks_next hk ht candidate) i (Nat.lt_of_succ_lt_succ hi)
    show (stabilize k (s.step k candidate) rest)[i]? = _
    rw [hrest, List.take_succ_cons, List.reverse_cons, List.append_assoc]
    rfl

/-! ## Windows of equal candidates -/

/-- The `k` candidates from the age `d` on are the label. -/
def WindowAt (k : ℕ) (h : List String) (d : ℕ) (label : String) : Prop :=
  ∀ t < k, h[d + t]? = some label

variable {label : String}

/-- The first `n` elements are the same. -/
theorem le_takeWhile : ∀ {l : List String} {n : ℕ},
    n ≤ (l.takeWhile (· = c)).length ↔ ∀ t < n, l[t]? = some c
  | l, 0 => by simp
  | [], n + 1 => iff_of_false (by simp) fun hall => by simpa using hall 0 (Nat.succ_pos n)
  | d :: l, n + 1 => by
    by_cases hd : d = c
    · rw [List.takeWhile_cons_of_pos (by simpa using hd), List.length_cons, Nat.succ_le_succ_iff,
        le_takeWhile, Nat.forall_lt_succ_left, hd]
      simp
    · rw [List.takeWhile_cons_of_neg (by simpa using hd)]
      refine iff_of_false (by simp) fun hall => hd ?_
      exact Option.some.inj (hall 0 (Nat.succ_pos n))

theorem windowAt_zero (hk : 1 ≤ k) :
    WindowAt k (c :: h) 0 label ↔ label = c ∧ k ≤ headRun (c :: h) := by
  have hrun : k ≤ headRun (c :: h) ↔ ∀ t < k, (c :: h)[t]? = some c := le_takeWhile
  rw [hrun]
  unfold WindowAt
  simp only [Nat.zero_add]
  constructor
  · intro hall
    obtain rfl : c = label := Option.some.inj (hall 0 hk)
    exact ⟨rfl, hall⟩
  · rintro ⟨rfl, hall⟩
    exact hall

theorem windowAt_succ {d : ℕ} : WindowAt k (c :: h) (d + 1) label ↔ WindowAt k h d label := by
  unfold WindowAt
  simp only [Nat.add_right_comm d 1, List.getElem?_cons_succ]

/-- The first window, which is the latest one. -/
theorem settled_eq_some (hk : 1 ≤ k) : ∀ {h : List String}, settled k h = some label ↔
    ∃ d, WindowAt k h d label ∧ ∀ d' < d, ∀ label', ¬ WindowAt k h d' label'
  | [] => by
    refine iff_of_false (by simp [settled]) ?_
    rintro ⟨d, hwindow, -⟩
    simpa using hwindow 0 hk
  | c :: h => by
    have ih := settled_eq_some hk (h := h)
    by_cases hfull : k ≤ headRun (c :: h)
    · have hzero : WindowAt k (c :: h) 0 c := (windowAt_zero hk).mpr ⟨rfl, hfull⟩
      rw [settled, if_pos hfull]
      constructor
      · rintro ⟨rfl⟩
        exact ⟨0, hzero, fun d' hd' => absurd hd' (Nat.not_lt_zero d')⟩
      · rintro ⟨d, hwindow, hfirst⟩
        cases d with
        | zero => rw [((windowAt_zero hk).mp hwindow).1]
        | succ d => exact absurd hzero (hfirst 0 (Nat.succ_pos d) c)
    · have hzero : ∀ label', ¬ WindowAt k (c :: h) 0 label' :=
        fun label' hwindow => hfull ((windowAt_zero hk).mp hwindow).2
      rw [settled, if_neg hfull, ih]
      constructor
      · rintro ⟨d, hwindow, hfirst⟩
        refine ⟨d + 1, windowAt_succ.mpr hwindow, fun d' hd' label' hwindow' => ?_⟩
        cases d' with
        | zero => exact hzero label' hwindow'
        | succ d' => exact hfirst d' (Nat.lt_of_succ_lt_succ hd') label' (windowAt_succ.mp hwindow')
      · rintro ⟨d, hwindow, hfirst⟩
        cases d with
        | zero => exact absurd hwindow (hzero label)
        | succ d =>
          refine ⟨d, windowAt_succ.mp hwindow, fun d' hd' label' hwindow' => ?_⟩
          exact hfirst (d' + 1) (Nat.succ_lt_succ hd') label' (windowAt_succ.mpr hwindow')

theorem settled_eq_none (hk : 1 ≤ k) : ∀ {h : List String}, settled k h = none ↔
    ∀ d label, ¬ WindowAt k h d label
  | [] => by
    refine iff_of_true rfl fun d label hwindow => ?_
    simpa using hwindow 0 hk
  | c :: h => by
    by_cases hfull : k ≤ headRun (c :: h)
    · rw [settled, if_pos hfull]
      refine iff_of_false (by simp) fun hnone => ?_
      exact hnone 0 c ((windowAt_zero hk).mpr ⟨rfl, hfull⟩)
    · rw [settled, if_neg hfull, settled_eq_none hk]
      constructor
      · intro hnone d label hwindow
        cases d with
        | zero => exact hfull ((windowAt_zero hk).mp hwindow).2
        | succ d => exact hnone d label (windowAt_succ.mp hwindow)
      · exact fun hnone d label hwindow => hnone (d + 1) label (windowAt_succ.mpr hwindow)

theorem live_getElem {n : ℕ} : ∀ {past : List (Option String)}, (live past)[n]? = some label ↔
    past[n]? = some (some label) ∧ ∀ m < n, past[m]? ≠ some none := by
  induction n with
  | zero =>
    rintro (_ | ⟨_ | c, past⟩)
    · simp [live]
    · simp [live]
    · simp [live]
  | succ n ih =>
    rintro (_ | ⟨_ | c, past⟩)
    · simp [live]
    · refine iff_of_false (by simp [live]) fun h => h.2 0 (Nat.succ_pos n) rfl
    · rw [live, List.getElem?_cons_succ, List.getElem?_cons_succ, ih, Nat.forall_lt_succ_left]
      simp

/-! ## Confirmed labels -/

/-- The `k` candidates that end at `j` are the label, and come after all missing values up to
`i`. -/
structure ConfirmedAt (k : ℕ) (candidates : List (Option String)) (i j : ℕ) (label : String) :
    Prop where
  le : j ≤ i
  full : k ≤ j + 1
  equal : ∀ t < k, candidates[j - t]? = some (some label)
  after : ∀ m ≤ i, candidates[m]? = some none → m + k ≤ j

variable {candidates : List (Option String)} {i j d : ℕ}

theorem past_getElem (hi : i < candidates.length) {n : ℕ} (hn : n ≤ i) :
    (candidates.take (i + 1)).reverse[n]? = candidates[i - n]? := by
  have hlength : (candidates.take (i + 1)).length = i + 1 := by
    rw [List.length_take]
    omega
  rw [List.getElem?_reverse (by omega), hlength, List.getElem?_take_of_lt (by omega)]
  congr 1

theorem confirmedAt_iff (hk : 1 ≤ k) (hi : i < candidates.length) (hd : d ≤ i) :
    ConfirmedAt k candidates i (i - d) label ↔
      WindowAt k (live (candidates.take (i + 1)).reverse) d label := by
  constructor
  · rintro ⟨-, hfull, hequal, hafter⟩ t ht
    rw [live_getElem, past_getElem hi (by omega), show i - (d + t) = i - d - t by omega]
    refine ⟨hequal t ht, fun m hm hmissing => ?_⟩
    rw [past_getElem hi (by omega)] at hmissing
    have hle := hafter (i - m) (by omega) hmissing
    omega
  · intro hwindow
    have hbound : d + (k - 1) ≤ i := by
      have hlast := (live_getElem.mp (hwindow (k - 1) (by omega))).1
      have hlt := (List.getElem?_eq_some_iff.mp hlast).1
      rw [List.length_reverse, List.length_take] at hlt
      omega
    refine ⟨by omega, by omega, fun t ht => ?_, fun m hm hmissing => ?_⟩
    · have hat := (live_getElem.mp (hwindow t ht)).1
      rwa [past_getElem hi (by omega), show i - (d + t) = i - d - t by omega] at hat
    · by_contra hno
      obtain ⟨hlast, hbefore⟩ := live_getElem.mp (hwindow (k - 1) (by omega))
      have hage : (candidates.take (i + 1)).reverse[i - m]? = some none := by
        rwa [past_getElem hi (by omega), show i - (i - m) = m by omega]
      rcases Nat.lt_or_ge (i - m) (d + (k - 1)) with hlt | hge
      · exact hbefore _ hlt hage
      · rw [show d + (k - 1) = i - m by omega, hage] at hlast
        cases hlast

/-! ## The outputs -/

/-- The outputs are the labels of the latest confirmed windows, and change with them only. -/
structure IsStabilized (k : ℕ) (candidates out : List (Option String)) : Prop where
  length : out.length = candidates.length
  label : ∀ i < candidates.length, ∀ label, out[i]? = some (some label) ↔
    ∃ j, ConfirmedAt k candidates i j label ∧
      ∀ j' label', ConfirmedAt k candidates i j' label' → j' ≤ j
  missing : ∀ i < candidates.length, out[i]? = some none ↔
    ∀ j label, ¬ ConfirmedAt k candidates i j label
  causal : ∀ n, stabilizeRegimeLabels k (candidates.take n) = .ok (out.take n)
  switch : ∀ i label, out[i]? = some (some label) →
    (∀ j, j + 1 = i → out[j]? ≠ some (some label)) → ConfirmedAt k candidates i i label
  reset : ∀ i label, out[i]? = some (some label) → out[i + 1]? = some none →
    candidates[i + 1]? = some none

theorem stabilize_take (confirmationBars : ℤ) : ∀ (n : ℕ) (s : Stabilizer)
    (candidates : List (Option String)), stabilize confirmationBars s (candidates.take n) =
      (stabilize confirmationBars s candidates).take n
  | 0, _, _ => rfl
  | _ + 1, _, [] => rfl
  | n + 1, s, candidate :: rest => by
    rw [List.take_succ_cons, stabilize, stabilize, List.take_succ_cons, stabilize_take]

theorem length_stabilize (confirmationBars : ℤ) : ∀ (s : Stabilizer)
    (candidates : List (Option String)),
    (stabilize confirmationBars s candidates).length = candidates.length
  | _, [] => rfl
  | s, candidate :: rest => by
    rw [stabilize, List.length_cons, List.length_cons, length_stabilize]

/-- A window that is confirmed before stays so until a missing value. -/
theorem ConfirmedAt.before (h : ConfirmedAt k candidates (i + 1) j label) (hj : j ≤ i) :
    ConfirmedAt k candidates i j label :=
  ⟨hj, h.full, h.equal, fun m hm => h.after m (Nat.le_succ_of_le hm)⟩

theorem ConfirmedAt.next (h : ConfirmedAt k candidates i j label)
    (hnext : candidates[i + 1]? ≠ some none) : ConfirmedAt k candidates (i + 1) j label := by
  refine ⟨Nat.le_succ_of_le h.le, h.full, h.equal, fun m hm hmissing => ?_⟩
  rcases Nat.le_succ_iff.mp hm with hm | rfl
  · exact h.after m hm hmissing
  · exact absurd hmissing hnext

/-- The outputs from the start. -/
def stableLabels (k : ℕ) (candidates : List (Option String)) : List (Option String) :=
  stabilize k ⟨none, none, 0⟩ candidates

theorem stableLabels_getElem (hk : 1 ≤ k) (hi : i < candidates.length) :
    (stableLabels k candidates)[i]? =
      some (settled k (live (candidates.take (i + 1)).reverse)) := by
  have hstart : Tracks k (live []) ⟨none, none, 0⟩ := ⟨rfl, .inl ⟨rfl, rfl, .inl rfl⟩⟩
  unfold stableLabels
  rw [stabilize_getElem hk hstart i hi, List.append_nil]

theorem lt_of_stableLabels {value : Option String}
    (h : (stableLabels k candidates)[i]? = some value) : i < candidates.length := by
  rw [← length_stabilize k ⟨none, none, 0⟩ candidates]
  exact (List.getElem?_eq_some_iff.mp h).1

theorem stableLabels_eq_label (hk : 1 ≤ k) (hi : i < candidates.length) :
    (stableLabels k candidates)[i]? = some (some label) ↔
      ∃ j, ConfirmedAt k candidates i j label ∧
        ∀ j' label', ConfirmedAt k candidates i j' label' → j' ≤ j := by
  rw [stableLabels_getElem hk hi, Option.some.injEq, settled_eq_some hk]
  constructor
  · rintro ⟨d, hwindow, hfirst⟩
    have hd : d ≤ i := by
      have hat := (live_getElem.mp (hwindow 0 hk)).1
      have hlt := (List.getElem?_eq_some_iff.mp hat).1
      rw [List.length_reverse, List.length_take] at hlt
      omega
    refine ⟨i - d, (confirmedAt_iff hk hi hd).mpr hwindow, fun j' label' h' => ?_⟩
    by_contra hno
    have hj' : i - (i - j') = j' := by have := h'.le; omega
    refine hfirst (i - j') (by omega) label' ((confirmedAt_iff hk hi (by omega)).mp ?_)
    rwa [hj']
  · rintro ⟨j, hj, hlast⟩
    have hji : i - (i - j) = j := by have := hj.le; omega
    refine ⟨i - j, (confirmedAt_iff hk hi (by omega)).mp (by rwa [hji]), ?_⟩
    intro d' hd' label' hwindow'
    have hle := hlast _ _ ((confirmedAt_iff hk hi (by omega)).mpr hwindow')
    omega

theorem stableLabels_eq_missing (hk : 1 ≤ k) (hi : i < candidates.length) :
    (stableLabels k candidates)[i]? = some none ↔
      ∀ j label, ¬ ConfirmedAt k candidates i j label := by
  rw [stableLabels_getElem hk hi, Option.some.injEq, settled_eq_none hk]
  constructor
  · intro hnone j label hj
    have hji : i - (i - j) = j := by have := hj.le; omega
    exact hnone (i - j) label ((confirmedAt_iff hk hi (by omega)).mp (by rwa [hji]))
  · intro hnone d label hwindow
    have hat := (live_getElem.mp (hwindow 0 hk)).1
    have hlt := (List.getElem?_eq_some_iff.mp hat).1
    rw [List.length_reverse, List.length_take] at hlt
    exact hnone (i - d) label ((confirmedAt_iff hk hi (by omega)).mpr hwindow)

/-- A label that was not there before is that of the window that ends here. -/
theorem stableLabels_switch (hk : 1 ≤ k) (h : (stableLabels k candidates)[i]? = some (some label))
    (hbefore : ∀ j, j + 1 = i → (stableLabels k candidates)[j]? ≠ some (some label)) :
    ConfirmedAt k candidates i i label := by
  have hi := lt_of_stableLabels h
  obtain ⟨j, hj, hlast⟩ := (stableLabels_eq_label hk hi).mp h
  rcases hj.le.lt_or_eq with hlt | rfl
  · obtain ⟨m, rfl⟩ : ∃ m, i = m + 1 := ⟨i - 1, by omega⟩
    refine absurd ?_ (hbefore m rfl)
    have hpresent : candidates[m + 1]? ≠ some none := by
      intro hmissing
      have hle := hj.after (m + 1) le_rfl hmissing
      omega
    refine (stableLabels_eq_label hk (by omega)).mpr
      ⟨j, hj.before (by omega), fun j' label' h' => ?_⟩
    exact hlast j' label' (h'.next hpresent)
  · exact hj

/-- Only a missing value ends a label without another one. -/
theorem stableLabels_reset (hk : 1 ≤ k) (h : (stableLabels k candidates)[i]? = some (some label))
    (hnext : (stableLabels k candidates)[i + 1]? = some none) :
    candidates[i + 1]? = some none := by
  obtain ⟨j, hj, -⟩ := (stableLabels_eq_label hk (lt_of_stableLabels h)).mp h
  by_contra hpresent
  exact (stableLabels_eq_missing hk (lt_of_stableLabels hnext)).mp hnext j label (hj.next hpresent)

/-- **Stabilized labels** are those of the latest confirmed windows. -/
theorem stabilizeRegimeLabels_isStabilized (confirmationBars : ℕ) (hbars : 1 ≤ confirmationBars)
    (candidates : List (Option String)) :
    ∃ out, stabilizeRegimeLabels confirmationBars candidates = .ok out ∧
      IsStabilized confirmationBars candidates out := by
  have hok : ∀ candidates, stabilizeRegimeLabels confirmationBars candidates =
      .ok (stableLabels confirmationBars candidates) := fun candidates => if_neg (by omega)
  exact ⟨_, hok candidates,
    { length := length_stabilize _ _ _
      label := fun i hi label => stableLabels_eq_label hbars hi
      missing := fun i hi => stableLabels_eq_missing hbars hi
      causal := fun n => by
        rw [hok]
        exact congrArg Except.ok (stabilize_take _ n _ candidates)
      switch := fun i label h hbefore => stableLabels_switch hbars h hbefore
      reset := fun i label h hnext => stableLabels_reset hbars h hnext }⟩

/-- A missing value, and a label that comes back before another is confirmed. -/
def sampleCandidates : List (Option String) :=
  [some "range", some "range", some "trend", some "range", none, some "trend", some "trend"]

theorem stabilizeRegimeLabels_isStabilized_sample :
    ∃ out, stabilizeRegimeLabels (2 : ℕ) sampleCandidates = .ok out ∧
      IsStabilized 2 sampleCandidates out :=
  stabilizeRegimeLabels_isStabilized 2 (by decide) sampleCandidates

example : stabilizeRegimeLabels 2 sampleCandidates =
    .ok [none, some "range", some "range", some "range", none, none, some "trend"] := by
  decide +kernel

end Greenfield.Regimes
