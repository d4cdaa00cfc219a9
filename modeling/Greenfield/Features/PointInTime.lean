import Greenfield.Lib.AsOf
import Greenfield.Py.Basic
import Mathlib.Data.List.Nodup
import Mathlib.Data.List.Forall2

/-!
# The point-in-time join

`point_in_time_asof` of `src/features/point_in_time.py`. Of the rows in the order of their arrival
it keeps those that advance the latest event, and joins each decision with the last of these. That
is the latest event of the rows that are available by then (`point_in_time_latest`), whatever the
order of the rows and whatever comes later.
-/

namespace Greenfield.Features

open AsOf Py

-- the order of the integers that computes, whatever is imported
local instance pointIntLinearOrder : LinearOrder ℤ := Int.instLinearOrder

/-- A row of the source, after `pd.to_datetime(..., errors="coerce")`; `none` is `NaT`. -/
structure SourceRow (ν : Type) where
  timestamp : Option ℤ
  maxSourceTimestamp : Option ℤ
  value : ν

/-- The columns of the source that are read. -/
structure SourceFrame (ν : Type) where
  /-- `"max_source_timestamp" in source.columns`. -/
  hasLineage : Bool
  rows : List (SourceRow ν)

inductive PointInTimeJoinError where
  | decisionsInvalid
  | sourceInvalid
  | timestampsNotUnique
  deriving DecidableEq

/-- What `raise` says. -/
def PointInTimeJoinError.message : PointInTimeJoinError → String
  | decisionsInvalid => "decision timestamps must be valid"
  | sourceInvalid => "source timestamps and lineage must be valid"
  | timestampsNotUnique => "source event timestamps must be unique"

/-- A row of `right` that has both its times. -/
structure Arrival (ν : Type) where
  timestamp : ℤ
  maxSourceTimestamp : ℤ
  value : ν
  deriving DecidableEq

namespace Arrival

variable {ν : Type}

/-- `right[["timestamp", "max_source_timestamp"]].max(axis=1)`. -/
def availableAt (r : Arrival ν) : ℤ := max r.timestamp r.maxSourceTimestamp

/-- The order of `sort_values(["available_at", "timestamp"])`. -/
def le (a b : Arrival ν) : Bool :=
  a.availableAt < b.availableAt ∨ a.availableAt = b.availableAt ∧ a.timestamp ≤ b.timestamp

end Arrival

variable {ν : Type}

/-- A row with its times, if it has both. Without lineage it is available at its time. -/
def SourceRow.arrival (hasLineage : Bool) (r : SourceRow ν) : Option (Arrival ν) :=
  match r.timestamp, if hasLineage then r.maxSourceTimestamp else r.timestamp with
  | some timestamp, some maxSourceTimestamp => some ⟨timestamp, maxSourceTimestamp, r.value⟩
  | _, _ => none

/-- The rows of a source that can be read. -/
def SourceFrame.arrivals (source : SourceFrame ν) : Option (List (Arrival ν)) :=
  source.rows.mapM (SourceRow.arrival source.hasLineage)

/-- The loop that builds `state_rows`. -/
def stateRows : Option ℤ → List (Arrival ν) → List (ℤ × ν)
  | _, [] => []
  | latestEvent, r :: rest =>
    if latestEvent.all (· < r.timestamp) then
      (r.availableAt, r.value) :: stateRows (some r.timestamp) rest
    else stateRows latestEvent rest

/-- `pd.merge_asof(left, states, direction="backward")`, and the join where there are no states. -/
def mergeAsof (left : List (ℤ × ℕ)) (states : List (ℤ × ν)) : List (ℕ × Option ν) :=
  left.map fun (decisionAt, position) =>
    (position, (backward Prod.fst states decisionAt).map Prod.snd)

/-- `point_in_time_asof`. -/
def pointInTimeAsof (timestamps : List (Option ℤ)) (source : SourceFrame ν) :
    Except PointInTimeJoinError (List (Option ν)) :=
  match timestamps.mapM id with
  | none => .error .decisionsInvalid
  | some decisions =>
    match source.arrivals with
    | none => .error .sourceInvalid
    | some right =>
      if ¬ (right.map Arrival.timestamp).Nodup then .error .timestampsNotUnique
      else
        let states := sorted (fun a b => a.1 ≤ b.1) (stateRows none (sorted Arrival.le right))
        let left := sorted (fun a b => a.1 ≤ b.1) decisions.zipIdx
        let ordered := sorted (fun a b => a.1 ≤ b.1) (mergeAsof left states)
        .ok (ordered.map Prod.snd)

/-! ## States -/

/-- The states up to a time are those of the arrivals up to it. -/
theorem stateRows_upTo {d : ℤ} : ∀ {arrivals : List (Arrival ν)} (latestEvent : Option ℤ),
    arrivals.Pairwise (fun a b => a.availableAt ≤ b.availableAt) →
    upTo Prod.fst (stateRows latestEvent arrivals) d =
      stateRows latestEvent (upTo Arrival.availableAt arrivals d)
  | [], _, _ => rfl
  | r :: rest, latestEvent, hsorted => by
    obtain ⟨hr, hrest⟩ := List.pairwise_cons.mp hsorted
    by_cases hd : r.availableAt ≤ d
    · have hkeep : upTo Arrival.availableAt (r :: rest) d =
          r :: upTo Arrival.availableAt rest d := List.filter_cons_of_pos (by simpa using hd)
      rw [hkeep]
      unfold stateRows
      split
      · rw [← stateRows_upTo _ hrest]
        exact List.filter_cons_of_pos (by simpa using hd)
      · exact stateRows_upTo _ hrest
    · -- nothing from here on is available
      have hnone : upTo Arrival.availableAt (r :: rest) d = [] := by
        refine List.filter_eq_nil_iff.mpr fun q hq => ?_
        rcases List.mem_cons.mp hq with rfl | hq
        · simpa using hd
        · simpa using lt_of_lt_of_le (not_le.mp hd) (hr q hq)
      have hlate : upTo Arrival.availableAt rest d = [] := by
        rw [upTo, List.filter_cons_of_neg (by simpa using hd)] at hnone
        exact hnone
      rw [hnone]
      unfold stateRows
      split
      · rw [upTo, List.filter_cons_of_neg (by simpa using hd)]
        exact (stateRows_upTo _ hrest).trans (by rw [hlate]; rfl)
      · exact (stateRows_upTo _ hrest).trans (by rw [hlate]; rfl)

/-- The last state is that of the latest event, unless none advances. -/
theorem stateRows_last : ∀ (arrivals : List (Arrival ν)) (latestEvent : Option ℤ),
    (stateRows latestEvent arrivals = [] ∧
      ∀ q ∈ arrivals, ∃ l, latestEvent = some l ∧ q.timestamp ≤ l) ∨
    ∃ r, (stateRows latestEvent arrivals).getLast? = some (r.availableAt, r.value) ∧
      Latest Arrival.timestamp arrivals r ∧ ∀ l, latestEvent = some l → l < r.timestamp
  | [], _ => .inl ⟨rfl, fun q hq => absurd hq List.not_mem_nil⟩
  | r :: rest, latestEvent => by
    unfold stateRows
    split
    · next hadvances =>
      right
      have hr : ∀ l, latestEvent = some l → l < r.timestamp := by
        rintro l rfl
        simpa using hadvances
      rcases stateRows_last rest (some r.timestamp) with ⟨hnil, hall⟩ | ⟨q, hlast, hq, hlater⟩
      · refine ⟨r, by rw [hnil]; rfl, ⟨List.mem_cons_self, fun q hq => ?_⟩, hr⟩
        rcases List.mem_cons.mp hq with rfl | hq
        · exact le_refl _
        · obtain ⟨l, hl, hle⟩ := hall q hq
          exact Option.some.inj hl ▸ hle
      · refine ⟨q, ?_, ⟨List.mem_cons_of_mem r hq.seen, fun p hp => ?_⟩, fun l hl =>
          (hr l hl).trans (hlater _ rfl)⟩
        · rw [List.getLast?_cons, hlast]
          rfl
        · rcases List.mem_cons.mp hp with rfl | hp
          · exact (hlater _ rfl).le
          · exact hq.greatest p hp
    · next hnot =>
      have hr : ∃ l, latestEvent = some l ∧ r.timestamp ≤ l := by
        cases latestEvent with
        | none => exact absurd rfl hnot
        | some l => exact ⟨l, rfl, by simpa using hnot⟩
      rcases stateRows_last rest latestEvent with ⟨hnil, hall⟩ | ⟨q, hlast, hq, hlater⟩
      · refine .inl ⟨hnil, fun q hq => ?_⟩
        rcases List.mem_cons.mp hq with rfl | hq
        · exact hr
        · exact hall q hq
      · obtain ⟨l, hl, hle⟩ := hr
        refine .inr ⟨q, hlast, ⟨List.mem_cons_of_mem r hq.seen, fun p hp => ?_⟩, hlater⟩
        rcases List.mem_cons.mp hp with rfl | hp
        · exact hle.trans (hlater l hl).le
        · exact hq.greatest p hp

/-- States are some of the arrivals. -/
theorem stateRows_sublist : ∀ (arrivals : List (Arrival ν)) (latestEvent : Option ℤ),
    (stateRows latestEvent arrivals).Sublist (arrivals.map fun r => (r.availableAt, r.value))
  | [], _ => .slnil
  | r :: rest, latestEvent => by
    unfold stateRows
    split
    · exact (stateRows_sublist rest _).cons_cons _
    · exact (stateRows_sublist rest _).cons _

/-! ## Answers -/

/-- The answer at a time: the value of the latest event of the rows that are available. -/
inductive AnswersAt (right : List (Arrival ν)) (d : ℤ) : Option ν → Prop where
  | latest (r : Arrival ν) (h : Latest Arrival.timestamp (upTo Arrival.availableAt right d) r) :
      AnswersAt right d (some r.value)
  | missing (h : ∀ r ∈ right, d < r.availableAt) : AnswersAt right d none

/-- Rows that are available only later have no part in the answer. -/
theorem AnswersAt.congr {right right' : List (Arrival ν)} {d : ℤ} {answer answer' : Option ν}
    (hunique : (right.map Arrival.timestamp).Nodup) (h : AnswersAt right d answer)
    (h' : AnswersAt right' d answer')
    (hsame : ∀ r : Arrival ν, r.availableAt ≤ d → (r ∈ right ↔ r ∈ right')) : answer = answer' := by
  have hvisible : ∀ r, r ∈ upTo Arrival.availableAt right' d ↔
      r ∈ upTo Arrival.availableAt right d := by
    intro r
    rw [mem_upTo, mem_upTo]
    exact and_congr_left fun hr => (hsame r hr).symm
  have hnone : ∀ {rows : List (Arrival ν)} {r}, (∀ q ∈ rows, d < q.availableAt) →
      r ∉ upTo Arrival.availableAt rows d :=
    fun hlate hr => absurd (mem_upTo.mp hr).2 (not_le.mpr (hlate _ (mem_upTo.mp hr).1))
  cases h with
  | latest r hr =>
    cases h' with
    | latest r' hr' =>
      have hinj : ∀ a ∈ upTo Arrival.availableAt right d,
          ∀ b ∈ upTo Arrival.availableAt right d, a.timestamp = b.timestamp → a = b :=
        fun a ha b hb => List.inj_on_of_nodup_map hunique (mem_upTo.mp ha).1 (mem_upTo.mp hb).1
      rw [hr.unique hinj (hr'.congr hvisible)]
    | missing hlate => exact absurd ((hvisible r).mpr hr.seen) (hnone hlate)
  | missing hlate =>
    cases h' with
    | latest r' hr' => exact absurd ((hvisible r').mp hr'.seen) (hnone hlate)
    | missing _ => rfl

/-- The states of the rows, in the order of their arrival. -/
def statesOf (right : List (Arrival ν)) : List (ℤ × ν) := stateRows none (sorted Arrival.le right)

theorem pairwise_arrivals (right : List (Arrival ν)) :
    (sorted Arrival.le right).Pairwise fun a b => a.availableAt ≤ b.availableAt := by
  have hsorted := pairwise_sorted (Arrival.le (ν := ν))
    (fun a b => by simp only [Arrival.le, decide_eq_true_eq]; omega)
    (fun a b c => by simp only [Arrival.le, decide_eq_true_eq]; omega) right
  refine hsorted.imp fun h => ?_
  simp only [Arrival.le, decide_eq_true_eq] at h
  omega

/-- The states come in order, so sorting them again changes nothing. -/
theorem sorted_statesOf (right : List (Arrival ν)) :
    sorted (fun a b => a.1 ≤ b.1) (statesOf right) = statesOf right := by
  refine sorted_eq_self ?_
  have hmap : ((sorted Arrival.le right).map fun r => (r.availableAt, r.value)).Pairwise
      fun a b => a.1 ≤ b.1 := List.pairwise_map.mpr (pairwise_arrivals right)
  exact (hmap.sublist (stateRows_sublist _ none)).imp fun h => by simpa using h

/-- **The last state** up to a time is the answer. -/
theorem answersAt_states (right : List (Arrival ν)) (d : ℤ) :
    AnswersAt right d ((backward Prod.fst (statesOf right) d).map Prod.snd) := by
  unfold backward statesOf
  rw [stateRows_upTo none (pairwise_arrivals right)]
  have hvisible : ∀ r, r ∈ upTo Arrival.availableAt (sorted Arrival.le right) d ↔
      r ∈ upTo Arrival.availableAt right d := by
    intro r
    rw [mem_upTo, mem_upTo, mem_sorted]
  rcases stateRows_last (upTo Arrival.availableAt (sorted Arrival.le right) d) none with
    ⟨hnil, hall⟩ | ⟨r, hlast, hr, -⟩
  · rw [hnil]
    refine .missing fun r hr => ?_
    by_contra hd
    obtain ⟨l, hl, -⟩ := hall r ((hvisible r).mpr (mem_upTo.mpr ⟨hr, not_lt.mp hd⟩))
    cases hl
  · rw [hlast]
    exact .latest r (hr.congr hvisible)

/-! ## The order of the decisions -/

/-- The answers come in the order in which the decisions were given. -/
theorem ordered_eq (decisions : List ℤ) (states : List (ℤ × ν)) :
    (sorted (fun a b => a.1 ≤ b.1)
      (mergeAsof (sorted (fun a b => a.1 ≤ b.1) decisions.zipIdx) states)).map Prod.snd =
      decisions.map fun d => (backward Prod.fst states d).map Prod.snd := by
  have hperm : (mergeAsof (sorted (fun a b => a.1 ≤ b.1) decisions.zipIdx) states).Perm
      (mergeAsof decisions.zipIdx states) := (List.perm_insertionSort _ _).map _
  have hpositions : (mergeAsof decisions.zipIdx states).map Prod.fst =
      List.range decisions.length := by
    rw [mergeAsof, List.map_map, List.range_eq_range']
    exact List.zipIdx_map_snd 0 decisions
  have hsorted : (mergeAsof decisions.zipIdx states).Pairwise fun a b => a.1 < b.1 := by
    rw [← List.pairwise_map (f := Prod.fst), hpositions]
    exact List.pairwise_lt_range
  rw [sorted_eq_of_perm (fun a b => by simpa using Nat.le_total a.1 b.1)
    (fun a b c hab hbc => by simp only [decide_eq_true_eq] at *; omega) hperm
    (hsorted.imp fun h => by simpa using h.le) ?_]
  · rw [mergeAsof, List.map_map]
    show decisions.zipIdx.map ((fun d => (backward Prod.fst states d).map Prod.snd) ∘ Prod.fst) = _
    rw [← List.map_map, List.zipIdx_map_fst]
  · intro a ha b hb hab hba
    have hnodup : ((mergeAsof decisions.zipIdx states).map Prod.fst).Nodup := by
      rw [hpositions]
      exact List.nodup_range
    simp only [decide_eq_true_eq] at hab hba
    exact List.inj_on_of_nodup_map hnodup ha hb (Nat.le_antisymm hab hba)

/-- What is answered for a source that can be read. -/
theorem pointInTimeAsof_eq {timestamps : List (Option ℤ)} {decisions : List ℤ}
    {source : SourceFrame ν} {right : List (Arrival ν)} (hdecisions : timestamps.mapM id = some decisions)
    (hright : source.arrivals = some right) (hunique : (right.map Arrival.timestamp).Nodup) :
    pointInTimeAsof timestamps source =
      .ok (decisions.map fun d => (backward Prod.fst (statesOf right) d).map Prod.snd) := by
  unfold pointInTimeAsof
  simp only [hdecisions, hright, not_not.mpr hunique, if_false]
  rw [← ordered_eq, ← sorted_statesOf]
  rfl

/-- **The point-in-time join.** Each decision is answered with the latest event of the rows that
are available by then, and with nothing where there is none; and no source with the same rows up
to then, in any order, answers it otherwise. -/
theorem point_in_time_latest {timestamps : List (Option ℤ)} {decisions : List ℤ}
    {source : SourceFrame ν} {right : List (Arrival ν)}
    (hdecisions : timestamps.mapM id = some decisions) (hright : source.arrivals = some right)
    (hunique : (right.map Arrival.timestamp).Nodup) :
    ∃ out : List (Option ν), pointInTimeAsof timestamps source = .ok out ∧
      List.Forall₂ (AnswersAt right) decisions out ∧
      ∀ (source' : SourceFrame ν) right', source'.arrivals = some right' →
        (right'.map Arrival.timestamp).Nodup →
        ∃ out' : List (Option ν), pointInTimeAsof timestamps source' = .ok out' ∧
          ∀ (i : ℕ) (d : ℤ), decisions[i]? = some d →
            (∀ r : Arrival ν, r.availableAt ≤ d → (r ∈ right ↔ r ∈ right')) → out'[i]? = out[i]? := by
  refine ⟨_, pointInTimeAsof_eq hdecisions hright hunique, ?_, ?_⟩
  · rw [List.forall₂_map_right_iff, List.forall₂_same]
    exact fun d _ => answersAt_states right d
  · intro source' right' hright' hunique'
    refine ⟨_, pointInTimeAsof_eq hdecisions hright' hunique', fun i d hd hsame => ?_⟩
    rw [List.getElem?_map, List.getElem?_map, hd, Option.map_some, Option.map_some,
      (answersAt_states right d).congr hunique (answersAt_states right' d) hsame]

/-- Two events, the earlier of which arrives last, and decisions out of order. -/
def lateSource : SourceFrame ℕ :=
  ⟨true, [⟨some 5, some 9, 50⟩, ⟨some 6, some 2, 60⟩, ⟨some 1, some 3, 10⟩]⟩

theorem point_in_time_latest_late : ∃ out,
    pointInTimeAsof [some 9, some 4, some 2] lateSource = .ok out ∧
      List.Forall₂ (AnswersAt [⟨5, 9, 50⟩, ⟨6, 2, 60⟩, ⟨1, 3, 10⟩]) [9, 4, 2] out := by
  have hdecisions : [some 9, some 4, some 2].mapM id = some [(9 : ℤ), 4, 2] := rfl
  have hright : lateSource.arrivals = some [⟨5, 9, 50⟩, ⟨6, 2, 60⟩, ⟨1, 3, 10⟩] := rfl
  obtain ⟨out, hout, hanswers, -⟩ := point_in_time_latest hdecisions hright (by decide)
  exact ⟨out, hout, hanswers⟩

example : pointInTimeAsof [some 9, some 4, some 2] lateSource = .ok [some 60, some 10, none] := by
  decide

end Greenfield.Features
