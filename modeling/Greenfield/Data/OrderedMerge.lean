import Greenfield.Py.Basic
import Mathlib.Data.Prod.Lex

/-!
# Ordered merge

`src/data/ordered_merge.py`. An iterator is the rows it still gives and the error it raises
after them. Keys that are tuples are compared in the lexicographic order, and the sequence
keys of a connection field by field, in the product order.

A merge draws its rows from the sources in an order that the checks do not influence
(`mergeTurns_checks`): sorted sources with true bounds give a sorted permutation of their
rows, and the check of the connections only decides where the output ends.
-/

namespace Greenfield.Data

open Py

/-- What an iterator still gives: its rows, and then the error it raises, if it raises one. -/
structure RowIterator (ε ρ : Type) where
  rows : List ρ
  raised : Option ε := none
  deriving DecidableEq

def RowIterator.cons {ε ρ : Type} (row : ρ) (it : RowIterator ε ρ) : RowIterator ε ρ :=
  { it with rows := row :: it.rows }

structure MergeSource (β ε ρ : Type) where
  lowerBound : β
  /-- The iterator that `open()` returns. -/
  opens : RowIterator ε ρ

inductive OrderedMergeError (γ σ τ : Type) where
  /-- "connection {conn!r} row duplicated: key={key}, tie_break={tie_break}" -/
  | duplicated (conn : γ) (key : σ) (tieBreak : Option τ)
  /-- "connection {conn!r} row order regressed: previous={previous_key}, observed={key}" -/
  | regressed (conn : γ) (previous observed : σ)
  deriving DecidableEq

/-- The keyword arguments of `merge_rows_by_connection`. -/
structure MergeKeys (ρ γ β κ σ τ : Type) where
  connectionId : ρ → γ
  orderKey : ρ → β ×ₗ κ
  connectionSequenceKey : ρ → σ
  connectionTieBreakKey : Option (ρ → τ)

variable {ρ γ β κ σ τ ε : Type}

/-- The rows of all sources. -/
def sourceRows (sources : List (MergeSource β ε ρ)) : List ρ := sources.flatMap (·.opens.rows)

theorem sourceRows_cons (source : MergeSource β ε ρ) (sources : List (MergeSource β ε ρ)) :
    sourceRows (source :: sources) = source.opens.rows ++ sourceRows sources := List.flatMap_cons

namespace MergeKeys

variable (K : MergeKeys ρ γ β κ σ τ)

/-- The first component of the order key. -/
def bound (row : ρ) : β := (ofLex (K.orderKey row)).1

def tieBreak (row : ρ) : Option τ := K.connectionTieBreakKey.map (· row)

/-- What `last_sequence_by_connection` remembers of a row. -/
def sequence (row : ρ) : σ × Option τ := (K.connectionSequenceKey row, K.tieBreak row)

end MergeKeys

/-! ## The check of a connection -/

section Check

variable [PartialOrder σ] [LinearOrder τ]

/-- `connection_tie_break_key is None or tie_break <= previous_tie_break`. -/
def isDuplicate : Option τ → Option τ → Bool
  | some tieBreak, some previous => tieBreak ≤ previous
  | _, _ => true

theorem isDuplicate_eq_false {tieBreak previous : Option τ} :
    isDuplicate tieBreak previous = false ↔ ∃ s ∈ previous, ∃ t ∈ tieBreak, s < t := by
  cases tieBreak with
  | none => simp [isDuplicate]
  | some t =>
    cases previous with
    | none => simp [isDuplicate]
    | some s => simp [isDuplicate]

/-- A row with `next` may follow one with `previous`. -/
def Precedes (previous next : σ × Option τ) : Prop :=
  previous.1 < next.1 ∨ previous.1 = next.1 ∧ ∃ s ∈ previous.2, ∃ t ∈ next.2, s < t

theorem Precedes.trans {a b c : σ × Option τ} (hab : Precedes a b) (hbc : Precedes b c) :
    Precedes a c := by
  rcases hab with hab | ⟨hab, s, hs, t, ht, hst⟩
  · rcases hbc with hbc | ⟨hbc, -⟩
    · exact .inl (hab.trans hbc)
    · exact .inl (hbc ▸ hab)
  · rcases hbc with hbc | ⟨hbc, t', ht', u, hu, htu⟩
    · exact .inl (hab ▸ hbc)
    · cases Option.mem_unique ht ht'
      exact .inr ⟨hab.trans hbc, s, hs, u, hu, hst.trans htu⟩

variable [DecidableEq γ] [DecidableEq σ] [DecidableLE σ]

/-- `_check_sequence`: what `last_sequence_by_connection` is after it. -/
def checkSequence (K : MergeKeys ρ γ β κ σ τ) (last : γ → Option (σ × Option τ)) (row : ρ) :
    Except (OrderedMergeError γ σ τ) (γ → Option (σ × Option τ)) :=
  let conn := K.connectionId row
  let key := K.connectionSequenceKey row
  let tieBreak := K.tieBreak row
  let next := Function.update last conn (some (key, tieBreak))
  match last conn with
  | none => .ok next
  | some (previousKey, previousTieBreak) =>
    if key = previousKey then
      if isDuplicate tieBreak previousTieBreak then .error (.duplicated conn key tieBreak)
      else .ok next
    -- `any(field < previous_field)` fails
    else if previousKey ≤ key then .ok next
    else .error (.regressed conn previousKey key)

/-- The rows of an iterator up to the first one that fails its check. -/
def checkRows (K : MergeKeys ρ γ β κ σ τ) (raised : Option ε) :
    (γ → Option (σ × Option τ)) → List ρ → RowIterator (OrderedMergeError γ σ τ ⊕ ε) ρ
  | _, [] => ⟨[], raised.map .inr⟩
  | last, row :: rest =>
    match checkSequence K last row with
    | .error e => ⟨[], some (.inl e)⟩
    | .ok next => (checkRows K raised next rest).cons row

variable {last : γ → Option (σ × Option τ)} {rows : List ρ} {raised : Option ε}

/-- Rows that all pass their check are given as they were drawn. -/
theorem checkRows_complete
    (h : (checkRows K raised last rows).raised = none) :
    raised = none ∧ (checkRows K raised last rows).rows = rows := by
  induction rows generalizing last with
  | nil => exact ⟨Option.map_eq_none_iff.mp h, rfl⟩
  | cons row rest ih =>
    unfold checkRows at h ⊢
    cases hcheck : checkSequence K last row with
    | error e => rw [hcheck] at h; cases h
    | ok next =>
      rw [hcheck] at h
      obtain ⟨hraised, hrows⟩ := ih h
      exact ⟨hraised, congrArg (row :: ·) hrows⟩

variable {K : MergeKeys ρ γ β κ σ τ}

/-- If the iterator raises nothing, only a check can. -/
theorem checkRows_order
    :
    (∃ e, (checkRows K (none : Option ε) last rows).raised = some (.inl e)) ↔
      (checkRows K (none : Option ε) last rows).raised ≠ none := by
  induction rows generalizing last with
  | nil => simp [checkRows]
  | cons row rest ih =>
    unfold checkRows
    cases checkSequence K last row with
    | error e => simp
    | ok next => exact ih

theorem checkSequence_eq_ok {last next : γ → Option (σ × Option τ)}
    {row : ρ} : checkSequence K last row = .ok next ↔
      (∀ p ∈ last (K.connectionId row), Precedes p (K.sequence row)) ∧
        next = Function.update last (K.connectionId row) (some (K.sequence row)) := by
  unfold checkSequence
  cases hlast : last (K.connectionId row) with
  | none =>
    simp only [hlast, Except.ok.injEq, Option.not_mem_none, IsEmpty.forall_iff, implies_true,
      true_and]
    exact eq_comm
  | some previous =>
    obtain ⟨key, tieBreak⟩ := previous
    simp only [hlast, Option.mem_def, Option.some.injEq, forall_eq']
    by_cases hkey : K.connectionSequenceKey row = key
    · rw [if_pos hkey]
      have hprecedes : Precedes (key, tieBreak) (K.sequence row) ↔
          isDuplicate (K.tieBreak row) tieBreak = false := by
        rw [isDuplicate_eq_false]
        simp only [Precedes, MergeKeys.sequence, hkey, lt_self_iff_false, false_or, true_and]
      rw [hprecedes]
      cases isDuplicate (K.tieBreak row) tieBreak with
      | true => simp
      | false => simp [MergeKeys.sequence, eq_comm]
    · rw [if_neg hkey]
      have hprecedes : Precedes (key, tieBreak) (K.sequence row) ↔
          key ≤ K.connectionSequenceKey row := by
        have hne : key ≠ K.connectionSequenceKey row := Ne.symm hkey
        simp only [Precedes, MergeKeys.sequence, hne, false_and, or_false]
        exact ⟨le_of_lt, fun hle => lt_of_le_of_ne hle hne⟩
      rw [hprecedes]
      by_cases hle : key ≤ K.connectionSequenceKey row
      · simp [hle, MergeKeys.sequence, eq_comm]
      · simp [hle]

/-- The rows of every connection pass their checks when each may follow all before it. -/
theorem checkRows_raised
    :
    (checkRows K raised last rows).raised = none ↔ raised = none ∧
      (∀ row ∈ rows, ∀ p ∈ last (K.connectionId row), Precedes p (K.sequence row)) ∧
      rows.Pairwise fun a b => K.connectionId a = K.connectionId b →
        Precedes (K.sequence a) (K.sequence b) := by
  induction rows generalizing last with
  | nil => simp [checkRows]
  | cons row rest ih =>
    unfold checkRows
    cases hcheck : checkSequence K last row with
    | error e =>
      have hnot : ¬ ∀ p ∈ last (K.connectionId row), Precedes p (K.sequence row) := by
        intro h
        rw [checkSequence_eq_ok.mpr ⟨h, rfl⟩] at hcheck
        cases hcheck
      simp only [reduceCtorEq, false_iff]
      exact fun h => hnot (h.2.1 row List.mem_cons_self)
    | ok next =>
      obtain ⟨hrow, rfl⟩ := checkSequence_eq_ok.mp hcheck
      show (checkRows K raised _ rest).raised = none ↔ _
      rw [ih, List.pairwise_cons, List.forall_mem_cons]
      constructor
      · rintro ⟨hraised, hrest, hpairs⟩
        have hhead (x : ρ) (hx : x ∈ rest) (hconn : K.connectionId row = K.connectionId x) :
            Precedes (K.sequence row) (K.sequence x) := by
          apply hrest x hx
          rw [← hconn, Function.update_self]
          rfl
        refine ⟨hraised, ⟨hrow, fun x hx p hp => ?_⟩, hhead, hpairs⟩
        by_cases hconn : K.connectionId x = K.connectionId row
        · exact (hrow p (hconn ▸ hp)).trans (hhead x hx hconn.symm)
        · apply hrest x hx
          rwa [Function.update_of_ne hconn]
      · rintro ⟨hraised, ⟨-, hrest⟩, hhead, hpairs⟩
        refine ⟨hraised, fun x hx p hp => ?_, hpairs⟩
        by_cases hconn : K.connectionId x = K.connectionId row
        · rw [hconn, Function.update_self] at hp
          cases hp
          exact hhead x hx hconn.symm
        · rw [Function.update_of_ne hconn] at hp
          exact hrest x hx p hp

end Check

/-! ## The merge -/

section Merge

variable [LinearOrder β] [LinearOrder κ]

/-- An entry of `heap`, with the iterator that `iterators` has under its index. -/
structure Entry (ε ρ : Type) where
  index : ℕ
  row : ρ
  rest : RowIterator ε ρ

/-- What `heapq` compares. No two entries have the same index, so it never compares rows. -/
def Entry.rank (K : MergeKeys ρ γ β κ σ τ) (e : Entry ε ρ) : (β ×ₗ κ) ×ₗ ℕ :=
  toLex (K.orderKey e.row, e.index)

/-- `heapq.heappush`. The heap is in the order in which `heappop` takes its entries. -/
def push (K : MergeKeys ρ γ β κ σ τ) (e : Entry ε ρ) (heap : List (Entry ε ρ)) :
    List (Entry ε ρ) :=
  heap.orderedInsert (fun a b => a.rank K ≤ b.rank K) e

/-- `next(it, None)`, and the push of the row that it gives. -/
def advance (K : MergeKeys ρ γ β κ σ τ) (index : ℕ) (it : RowIterator ε ρ)
    (heap : List (Entry ε ρ)) : Except ε (List (Entry ε ρ)) :=
  match it.rows, it.raised with
  | row :: rest, raised => .ok (push K ⟨index, row, ⟨rest, raised⟩⟩ heap)
  | [], some e => .error e
  | [], none => .ok heap

/-- The locals of the generator between two turns of its loop. `pending` starts with
`next_pending`. -/
structure MergeState (β γ σ τ ε ρ : Type) where
  pending : List (MergeSource β ε ρ)
  heap : List (Entry ε ρ)
  last : γ → Option (σ × Option τ)
  nextIndex : ℕ

/-- The inner loop: `pending`, `heap` and `next_index` after it. -/
def admitSources (K : MergeKeys ρ γ β κ σ τ) :
    List (MergeSource β ε ρ) → List (Entry ε ρ) → ℕ →
      Except ε (List (MergeSource β ε ρ) × List (Entry ε ρ) × ℕ)
  | [], heap, n => .ok ([], heap, n)
  | source :: pending, heap, n =>
    if heap.head?.all fun e => source.lowerBound ≤ K.bound e.row then do
      let heap ← advance K n source.opens heap
      admitSources K pending heap (n + 1)
    else .ok (source :: pending, heap, n)

variable [DecidableEq γ] [PartialOrder σ] [DecidableEq σ] [DecidableLE σ] [LinearOrder τ]

/-- What the loop gives in at most `fuel` turns; `none` if it is not done by then. -/
def drain (K : MergeKeys ρ γ β κ σ τ) :
    ℕ → MergeState β γ σ τ ε ρ → Option (RowIterator (OrderedMergeError γ σ τ ⊕ ε) ρ)
  | 0, _ => none
  | fuel + 1, s =>
    match admitSources K s.pending s.heap s.nextIndex with
    | .error e => some ⟨[], some (.inr e)⟩
    | .ok (_, [], _) => some ⟨[], none⟩
    | .ok (pending, entry :: heap, nextIndex) =>
      match checkSequence K s.last entry.row with
      | .error e => some ⟨[], some (.inl e)⟩
      | .ok last =>
        -- the row is yielded before its source is asked for the next one
        match advance K entry.index entry.rest heap with
        | .error e => some ⟨[entry.row], some (.inr e)⟩
        | .ok heap => (drain K fuel ⟨pending, heap, last, nextIndex⟩).map (.cons entry.row)

/-- `merge_rows_by_connection`, for at most `fuel` turns of its loop. -/
def mergeTurns (K : MergeKeys ρ γ β κ σ τ) (fuel : ℕ) (sources : List (MergeSource β ε ρ)) :
    Option (RowIterator (OrderedMergeError γ σ τ ⊕ ε) ρ) :=
  drain K fuel
    ⟨sorted (fun a b => a.lowerBound ≤ b.lowerBound) sources, [], fun _ => none, 0⟩

/-- `merge_rows_by_connection`. A turn for each row and one to return are enough
(`mergeTurns_eq`). -/
def mergeRowsByConnection (K : MergeKeys ρ γ β κ σ τ) (sources : List (MergeSource β ε ρ)) :
    RowIterator (OrderedMergeError γ σ τ ⊕ ε) ρ :=
  (mergeTurns K ((sourceRows sources).length + 1) sources).getD ⟨[], none⟩

end Merge

/-! ## What a turn keeps -/

section Turn

variable [LinearOrder β] [LinearOrder κ]

def Ascending (K : MergeKeys ρ γ β κ σ τ) (rows : List ρ) : Prop :=
  rows.Pairwise fun a b => K.orderKey a ≤ K.orderKey b

/-- The source keeps the promise of `MergeSource`: its rows are in order, and none of them is
below its bound. -/
structure MergeSource.Sorted (K : MergeKeys ρ γ β κ σ τ) (source : MergeSource β ε ρ) : Prop where
  ascending : Ascending K source.opens.rows
  bound : ∀ row ∈ source.opens.rows, source.lowerBound ≤ K.bound row

def Entry.rows (e : Entry ε ρ) : List ρ := e.row :: e.rest.rows

/-- The rows that the loop can still give. -/
def remaining (pending : List (MergeSource β ε ρ)) (heap : List (Entry ε ρ)) : List ρ :=
  heap.flatMap Entry.rows ++ sourceRows pending

/-- An error that an iterator has in store. -/
def InStore (pending : List (MergeSource β ε ρ)) (heap : List (Entry ε ρ)) (e : ε) : Prop :=
  (∃ source ∈ pending, source.opens.raised = some e) ∨ ∃ x ∈ heap, x.rest.raised = some e

structure Ordered (K : MergeKeys ρ γ β κ σ τ) (pending : List (MergeSource β ε ρ))
    (heap : List (Entry ε ρ)) : Prop where
  byBound : pending.Pairwise fun a b => a.lowerBound ≤ b.lowerBound
  sources : ∀ source ∈ pending, source.Sorted K
  byRank : heap.Pairwise fun a b => a.rank K ≤ b.rank K
  entries : ∀ e ∈ heap, Ascending K e.rows

variable {K : MergeKeys ρ γ β κ σ τ} {index : ℕ} {it : RowIterator ε ρ}
  {heap heap' : List (Entry ε ρ)} {pending pending' : List (MergeSource β ε ρ)}

theorem advance_eq_ok (h : advance K index it heap = .ok heap') :
    (it.rows = [] ∧ heap' = heap) ∨
    ∃ e : Entry ε ρ, e.rows = it.rows ∧ e.rest.raised = it.raised ∧ heap' = push K e heap := by
  unfold advance at h
  split at h
  · next row rest hrows =>
    cases h
    exact .inr ⟨⟨index, row, ⟨rest, it.raised⟩⟩, hrows.symm, rfl, rfl⟩
  · cases h
  · next hrows _ =>
    cases h
    exact .inl ⟨hrows, rfl⟩

variable {e : ε}

theorem advance_eq_error (h : advance K index it heap = .error e) : it.raised = some e := by
  unfold advance at h
  split at h
  · cases h
  · next hraised =>
    cases h
    exact hraised
  · cases h

theorem mem_push {e x : Entry ε ρ} : x ∈ push K e heap ↔ x = e ∨ x ∈ heap :=
  List.mem_orderedInsert _

theorem remaining_advance (h : advance K index it heap = .ok heap') :
    (heap'.flatMap Entry.rows).Perm (it.rows ++ heap.flatMap Entry.rows) := by
  rcases advance_eq_ok h with ⟨hrows, rfl⟩ | ⟨e, hrows, -, rfl⟩
  · rw [hrows, List.nil_append]
  · rw [← hrows]
    exact (List.perm_orderedInsert _ e heap).flatMap_right Entry.rows

theorem ordered_advance (h : advance K index it heap = .ok heap') (hit : Ascending K it.rows)
    (ho : Ordered K pending heap) : Ordered K pending heap' := by
  rcases advance_eq_ok h with ⟨-, rfl⟩ | ⟨e, hrows, -, rfl⟩
  · exact ho
  · refine ⟨ho.byBound, ho.sources, ho.byRank.orderedInsert e heap, fun x hx => ?_⟩
    rcases mem_push.mp hx with rfl | hx
    · rw [hrows]
      exact hit
    · exact ho.entries x hx

theorem inStore_advance (h : advance K index it heap = .ok heap')
    (he : ∃ x ∈ heap', x.rest.raised = some e) :
    it.raised = some e ∨ ∃ x ∈ heap, x.rest.raised = some e := by
  obtain ⟨x, hx, hraised⟩ := he
  rcases advance_eq_ok h with ⟨-, rfl⟩ | ⟨y, -, hy, rfl⟩
  · exact .inr ⟨x, hx, hraised⟩
  · rcases mem_push.mp hx with rfl | hx
    · exact .inl (hy ▸ hraised)
    · exact .inr ⟨x, hx, hraised⟩

theorem bound_lt {a b : ρ} (h : K.bound a < K.bound b) : K.orderKey a ≤ K.orderKey b :=
  (Prod.Lex.lt_iff.mpr (.inl h)).le

/-- What the inner loop leaves: the same rows and errors, and no pending source that could
hold a row before the head of the heap. -/
structure Admitted (pending : List (MergeSource β ε ρ)) (heap : List (Entry ε ρ))
    (K : MergeKeys ρ γ β κ σ τ) (pending' : List (MergeSource β ε ρ))
    (heap' : List (Entry ε ρ)) : Prop where
  perm : (remaining pending' heap').Perm (remaining pending heap)
  ordered : Ordered K pending heap → Ordered K pending' heap'
  inStore : ∀ e, InStore pending' heap' e → InStore pending heap e
  later : ∀ entry ∈ heap'.head?, ∀ source ∈ pending'.head?, K.bound entry.row < source.lowerBound
  done : heap' = [] → pending' = []

theorem admitted {n n' : ℕ} (h : admitSources K pending heap n = .ok (pending', heap', n')) :
    Admitted pending heap K pending' heap' := by
  induction pending generalizing heap n with
  | nil =>
    cases h
    exact ⟨.refl _, id, fun _ => id, fun _ _ _ h => absurd h (Option.not_mem_none _), fun _ => rfl⟩
  | cons source pending ih =>
    unfold admitSources at h
    split at h
    · cases hadvance : advance K n source.opens heap with
      | error e => rw [hadvance] at h; cases h
      | ok next =>
        rw [hadvance] at h
        obtain ⟨hperm, hordered, hstore, hlater, hdone⟩ := ih h
        refine ⟨hperm.trans ?_, fun ho => hordered ?_, fun e he => ?_, hlater, hdone⟩
        · have hrows := (remaining_advance hadvance).append_right (sourceRows pending)
          refine hrows.trans ?_
          rw [remaining, sourceRows_cons, List.append_assoc]
          exact List.perm_append_comm_assoc _ _ _
        · have hpending := List.pairwise_cons.mp ho.byBound
          have hsources := List.forall_mem_cons.mp ho.sources
          exact ordered_advance hadvance hsources.1.ascending
            ⟨hpending.2, hsources.2, ho.byRank, ho.entries⟩
        · rcases hstore e he with ⟨s, hs, hraised⟩ | hheap
          · exact .inl ⟨s, List.mem_cons_of_mem _ hs, hraised⟩
          · rcases inStore_advance hadvance hheap with hraised | hheap
            · exact .inl ⟨source, List.mem_cons_self, hraised⟩
            · exact .inr hheap
    · next hlater =>
      cases h
      refine ⟨.refl _, id, fun _ => id, fun entry hentry s hs => ?_, fun hheap => ?_⟩
      · cases hs
        rw [Option.mem_def.mp hentry] at hlater
        simpa using hlater
      · rw [hheap] at hlater
        exact absurd rfl hlater

theorem admitSources_error {n : ℕ} (h : admitSources K pending heap n = .error e) :
    InStore pending heap e := by
  induction pending generalizing heap n with
  | nil => cases h
  | cons source pending ih =>
    unfold admitSources at h
    split at h
    · cases hadvance : advance K n source.opens heap with
      | error e' =>
        rw [hadvance] at h
        cases h
        exact .inl ⟨source, List.mem_cons_self, advance_eq_error hadvance⟩
      | ok next =>
        rw [hadvance] at h
        rcases ih h with ⟨s, hs, hraised⟩ | hheap
        · exact .inl ⟨s, List.mem_cons_of_mem _ hs, hraised⟩
        · rcases inStore_advance hadvance hheap with hraised | hheap
          · exact .inl ⟨source, List.mem_cons_self, hraised⟩
          · exact .inr hheap
    · cases h

/-- The head of the heap is the least of the rows that are left. -/
theorem head_le {entry : Entry ε ρ} (ho : Ordered K pending (entry :: heap))
    (hlater : ∀ source ∈ pending.head?, K.bound entry.row < source.lowerBound) {row : ρ}
    (hrow : row ∈ entry.rest.rows ++ remaining pending heap) :
    K.orderKey entry.row ≤ K.orderKey row := by
  have hranks := List.pairwise_cons.mp ho.byRank
  rcases List.mem_append.mp hrow with hrest | hrow
  · exact (List.pairwise_cons.mp (ho.entries entry List.mem_cons_self)).1 row hrest
  rcases List.mem_append.mp hrow with hheap | hpending
  · obtain ⟨x, hx, hrow⟩ := List.mem_flatMap.mp hheap
    have hle : K.orderKey entry.row ≤ K.orderKey x.row := by
      rcases Prod.Lex.le_iff.mp (hranks.1 x hx) with hlt | heq
      · exact hlt.le
      · exact heq.1.le
    rcases List.mem_cons.mp hrow with rfl | hrow
    · exact hle
    · exact hle.trans ((List.pairwise_cons.mp (ho.entries x (List.mem_cons_of_mem _ hx))).1 row hrow)
  · obtain ⟨source, hsource, hrow⟩ := List.mem_flatMap.mp hpending
    have hbound : K.bound entry.row < source.lowerBound := by
      cases hp : pending with
      | nil => rw [hp] at hsource; cases hsource
      | cons first rest =>
        rw [hp] at hsource hlater
        have hfirst := hlater first rfl
        rcases List.mem_cons.mp hsource with rfl | hsource
        · exact hfirst
        · have hpairs := ho.byBound
          rw [hp] at hpairs
          exact hfirst.trans_le ((List.pairwise_cons.mp hpairs).1 source hsource)
    have hsorted := ho.sources source hsource
    exact bound_lt (hbound.trans_le (hsorted.bound row hrow))

/-- In order, and without two rows of one key, there is only one way to draw the rows. -/
theorem ascending_unique {rows rows' : List ρ} (hnodup : (rows.map K.orderKey).Nodup)
    (h : Ascending K rows) (h' : Ascending K rows') (hperm : rows'.Perm rows) : rows' = rows := by
  refine hperm.eq_of_pairwise (fun a b ha hb hab hba => ?_) h' h
  exact List.inj_on_of_nodup_map hnodup (hperm.subset ha) hb (le_antisymm hab hba)

end Turn

/-! ## A whole merge -/

/-- What the loop draws, in this order, when nothing fails its check. -/
structure Draws [LinearOrder β] [LinearOrder κ] (K : MergeKeys ρ γ β κ σ τ)
    (pending : List (MergeSource β ε ρ)) (heap : List (Entry ε ρ)) (it : RowIterator ε ρ) :
    Prop where
  perm : it.raised = none → it.rows.Perm (remaining pending heap)
  mem : ∀ row ∈ it.rows, row ∈ remaining pending heap
  ascending : Ordered K pending heap → Ascending K it.rows
  inStore : ∀ e, it.raised = some e → InStore pending heap e

section Whole

variable [LinearOrder β] [LinearOrder κ] {K : MergeKeys ρ γ β κ σ τ}
  {pending pending' : List (MergeSource β ε ρ)} {heap heap' heap'' : List (Entry ε ρ)}
  {entry : Entry ε ρ}

theorem Admitted.ascending (h : Admitted pending heap K pending' (entry :: heap'))
    (ho : Ordered K pending heap) {rows : List ρ}
    (hmem : ∀ row ∈ rows, row ∈ entry.rest.rows ++ remaining pending' heap')
    (hrows : Ascending K rows) : Ascending K (entry.row :: rows) :=
  List.pairwise_cons.mpr
    ⟨fun row hrow => head_le (h.ordered ho) (h.later entry rfl) (hmem row hrow), hrows⟩

theorem Admitted.head_mem (h : Admitted pending heap K pending' (entry :: heap')) :
    entry.row ∈ remaining pending heap :=
  h.perm.subset (List.mem_append_left _ (List.mem_flatMap.mpr
    ⟨entry, List.mem_cons_self, List.mem_cons_self⟩))

/-- A turn draws the head of the heap. -/
theorem Draws.cons {it : RowIterator ε ρ} (h : Admitted pending heap K pending' (entry :: heap'))
    (hadvance : advance K entry.index entry.rest heap' = .ok heap'')
    (hit : Draws K pending' heap'' it) : Draws K pending heap (it.cons entry.row) := by
  have hrows := (remaining_advance hadvance).append_right (sourceRows pending')
  have hperm : (entry.row :: remaining pending' heap'').Perm (remaining pending heap) :=
    (hrows.cons entry.row).trans h.perm
  refine ⟨fun hraised => ((hit.perm hraised).cons entry.row).trans hperm, fun row hrow => ?_,
    fun ho => ?_, fun e he => ?_⟩
  · rcases List.mem_cons.mp hrow with rfl | hrow
    · exact h.head_mem
    · exact hperm.subset (List.mem_cons_of_mem _ (hit.mem row hrow))
  · have hnext := h.ordered ho
    apply h.ascending ho
    · intro row hrow
      rw [remaining, ← List.append_assoc]
      exact hrows.subset (hit.mem row hrow)
    · exact hit.ascending (ordered_advance hadvance
        (List.pairwise_cons.mp (hnext.entries entry List.mem_cons_self)).2
        ⟨hnext.byBound, hnext.sources, (List.pairwise_cons.mp hnext.byRank).2,
          fun x hx => hnext.entries x (List.mem_cons_of_mem _ hx)⟩)
  · apply h.inStore
    rcases hit.inStore e he with hsource | hheap
    · exact .inl hsource
    · rcases inStore_advance hadvance hheap with hraised | ⟨x, hx, hraised⟩
      · exact .inr ⟨entry, List.mem_cons_self, hraised⟩
      · exact .inr ⟨x, List.mem_cons_of_mem _ hx, hraised⟩

variable [DecidableEq γ] [PartialOrder σ] [DecidableEq σ] [DecidableLE σ] [LinearOrder τ]

/-- The loop checks what it draws, and is done after a turn for each row and one more. -/
theorem drain_checks (fuel : ℕ) (s : MergeState β γ σ τ ε ρ)
    (hfuel : (remaining s.pending s.heap).length < fuel) :
    ∃ it, Draws K s.pending s.heap it ∧
      drain K fuel s = some (checkRows K it.raised s.last it.rows) := by
  induction fuel generalizing s with
  | zero => omega
  | succ fuel ih =>
    unfold drain
    cases hturn : admitSources K s.pending s.heap s.nextIndex with
    | error e =>
      refine ⟨⟨[], some e⟩, ⟨fun h => (by cases h), fun _ h => (by cases h), fun _ => .nil,
        fun e' he' => ?_⟩, rfl⟩
      cases he'
      exact admitSources_error hturn
    | ok p =>
      obtain ⟨pending, heap, nextIndex⟩ := p
      have hadmitted := admitted hturn
      cases heap with
      | nil =>
        have hperm := hadmitted.perm
        rw [hadmitted.done rfl] at hperm
        exact ⟨⟨[], none⟩, ⟨fun _ => hperm, fun _ h => (by cases h), fun _ => .nil,
          fun _ h => (by cases h)⟩, rfl⟩
      | cons entry heap =>
        cases hadvance : advance K entry.index entry.rest heap with
        | error e =>
          refine ⟨⟨[entry.row], some e⟩, ⟨fun h => (by cases h), fun row hrow => ?_,
            fun ho => hadmitted.ascending ho (fun _ h => (by cases h)) .nil, fun e' he' => ?_⟩, ?_⟩
          · rw [List.mem_singleton.mp hrow]
            exact hadmitted.head_mem
          · cases he'
            exact hadmitted.inStore e
              (.inr ⟨entry, List.mem_cons_self, advance_eq_error hadvance⟩)
          · simp only [checkRows, hadvance]
            cases checkSequence K s.last entry.row with
            | error e => rfl
            | ok last => rfl
        | ok next =>
          have hlength : (remaining pending next).length < fuel := by
            have hadvanced := (remaining_advance hadvance).length_eq
            have hadmitted := hadmitted.perm.length_eq
            simp only [remaining, List.flatMap_cons, List.length_append, Entry.rows,
              List.length_cons] at hadvanced hadmitted hfuel ⊢
            omega
          cases hcheck : checkSequence K s.last entry.row with
          | error e =>
            obtain ⟨it, hit, -⟩ := ih ⟨pending, next, s.last, nextIndex⟩ hlength
            exact ⟨it.cons entry.row, hit.cons hadmitted hadvance, by
              simp only [RowIterator.cons, checkRows, hcheck]⟩
          | ok last =>
            obtain ⟨it, hit, hdrain⟩ := ih ⟨pending, next, last, nextIndex⟩ hlength
            refine ⟨it.cons entry.row, hit.cons hadmitted hadvance, ?_⟩
            simp only [RowIterator.cons, checkRows, hcheck, hadvance, hdrain, Option.map_some]

/-- More turns change nothing. -/
theorem drain_mono {fuel fuel' : ℕ} {s : MergeState β γ σ τ ε ρ}
    {it : RowIterator (OrderedMergeError γ σ τ ⊕ ε) ρ} (h : drain K fuel s = some it)
    (hle : fuel ≤ fuel') : drain K fuel' s = some it := by
  induction fuel generalizing s fuel' it with
  | zero => cases h
  | succ fuel ih =>
    obtain ⟨fuel', rfl⟩ : ∃ n, fuel' = n + 1 := ⟨fuel' - 1, by omega⟩
    unfold drain at h ⊢
    cases hturn : admitSources K s.pending s.heap s.nextIndex with
    | error e => rw [hturn] at h; exact h
    | ok p =>
      obtain ⟨pending, heap, nextIndex⟩ := p
      simp only [hturn] at h ⊢
      cases heap with
      | nil => exact h
      | cons entry heap =>
        cases hcheck : checkSequence K s.last entry.row with
        | error e => simp only [hcheck] at h ⊢; exact h
        | ok last =>
          cases hadvance : advance K entry.index entry.rest heap with
          | error e => simp only [hcheck, hadvance] at h ⊢; exact h
          | ok next =>
            simp only [hcheck, hadvance] at h ⊢
            obtain ⟨rest, hrest, rfl⟩ := Option.map_eq_some_iff.mp h
            rw [ih hrest (by omega), Option.map_some]

/-- What a merge draws from its sources, in this order, when nothing fails its check. -/
structure Drawn (K : MergeKeys ρ γ β κ σ τ) (sources : List (MergeSource β ε ρ))
    (it : RowIterator ε ρ) : Prop where
  perm : it.raised = none → it.rows.Perm (sourceRows sources)
  ascending : (∀ source ∈ sources, source.Sorted K) → Ascending K it.rows
  raised : ∀ e, it.raised = some e → ∃ source ∈ sources, source.opens.raised = some e

theorem mergeTurns_checks (sources : List (MergeSource β ε ρ)) {fuel : ℕ}
    (hfuel : (sourceRows sources).length < fuel) :
    ∃ it, Drawn K sources it ∧
      mergeTurns K fuel sources = some (checkRows K it.raised (fun _ => none) it.rows) := by
  have hsort : (sorted (fun a b => decide (a.lowerBound ≤ b.lowerBound)) sources).Perm sources :=
    List.perm_insertionSort _ sources
  have hrows := hsort.flatMap_right (·.opens.rows)
  obtain ⟨it, ⟨hperm, -, hascending, hstore⟩, hdrain⟩ :=
    drain_checks (K := K) fuel ⟨sorted (fun a b => a.lowerBound ≤ b.lowerBound) sources, [],
      fun _ => none, 0⟩ (hrows.length_eq.trans_lt hfuel)
  refine ⟨it, ⟨fun h => (hperm h).trans hrows, fun hsorted => hascending ?_, fun e he => ?_⟩,
    hdrain⟩
  · refine ⟨?_, fun source hsource => hsorted source (mem_sorted.mp hsource), .nil,
      fun e he => (by cases he)⟩
    have hpairwise := pairwise_sorted
      (fun a b : MergeSource β ε ρ => decide (a.lowerBound ≤ b.lowerBound))
      (fun a b => by simpa using le_total a.lowerBound b.lowerBound)
      (fun a b c => by simpa using le_trans) sources
    simpa using hpairwise
  · rcases hstore e he with ⟨source, hsource, hraised⟩ | ⟨x, hx, -⟩
    · exact ⟨source, mem_sorted.mp hsource, hraised⟩
    · cases hx

theorem mergeTurns_eq (sources : List (MergeSource β ε ρ)) {fuel : ℕ}
    (hfuel : (sourceRows sources).length < fuel) :
    mergeTurns K fuel sources = some (mergeRowsByConnection K sources) := by
  obtain ⟨it, -, hturns⟩ := mergeTurns_checks (K := K) sources (Nat.lt_succ_self _)
  rw [mergeRowsByConnection, hturns]
  exact drain_mono hturns hfuel

/-- A merge draws its rows from the sources, and checks them. -/
theorem merge_checks (K : MergeKeys ρ γ β κ σ τ) (sources : List (MergeSource β ε ρ)) :
    ∃ it, Drawn K sources it ∧
      mergeRowsByConnection K sources = checkRows K it.raised (fun _ => none) it.rows := by
  obtain ⟨it, hdrawn, hturns⟩ := mergeTurns_checks (K := K) sources (Nat.lt_succ_self _)
  exact ⟨it, hdrawn, by rw [mergeRowsByConnection, hturns]; rfl⟩

/-- **Merges.** A merge of sorted sources is done after a turn for each row and one more. If it
does not raise, it gives the rows of all sources in order. If no two rows have the same key, then
what it gives does not depend on how the rows are spread over the sources. -/
theorem merge_correct (K : MergeKeys ρ γ β κ σ τ) (sources : List (MergeSource β ε ρ))
    (hsorted : ∀ source ∈ sources, source.Sorted K) :
    (∀ fuel, (sourceRows sources).length < fuel →
      mergeTurns K fuel sources = some (mergeRowsByConnection K sources)) ∧
    ((mergeRowsByConnection K sources).raised = none →
      Ascending K (mergeRowsByConnection K sources).rows ∧
      (mergeRowsByConnection K sources).rows.Perm (sourceRows sources)) ∧
    (((sourceRows sources).map K.orderKey).Nodup →
      ∀ sources' : List (MergeSource β ε ρ), (∀ source ∈ sources', source.Sorted K) →
        (sourceRows sources').Perm (sourceRows sources) →
        ((mergeRowsByConnection K sources).raised = none →
          (mergeRowsByConnection K sources').raised = none →
          mergeRowsByConnection K sources' = mergeRowsByConnection K sources) ∧
        ((∀ source ∈ sources ++ sources', source.opens.raised = none) →
          mergeRowsByConnection K sources' = mergeRowsByConnection K sources)) := by
  obtain ⟨it, hdrawn, hmerge⟩ := merge_checks K sources
  refine ⟨fun fuel hfuel => mergeTurns_eq sources hfuel, fun hraised => ?_,
    fun hnodup sources' hsorted' hrows => ?_⟩
  · rw [hmerge] at hraised ⊢
    obtain ⟨hnone, hrows⟩ := checkRows_complete hraised
    rw [hrows]
    exact ⟨hdrawn.ascending hsorted, hdrawn.perm hnone⟩
  · obtain ⟨it', hdrawn', hmerge'⟩ := merge_checks K sources'
    have hsame (hnone : it.raised = none) (hnone' : it'.raised = none) : it' = it := by
      have hperm := hdrawn.perm hnone
      have hrows : it'.rows = it.rows :=
        ascending_unique ((hperm.map K.orderKey).nodup_iff.mpr hnodup) (hdrawn.ascending hsorted)
          (hdrawn'.ascending hsorted')
          ((hdrawn'.perm hnone').trans (hrows.trans hperm.symm))
      cases it'
      cases it
      simp only at hrows hnone hnone'
      rw [hrows, hnone, hnone']
    constructor
    · intro hraised hraised'
      rw [hmerge] at hraised
      rw [hmerge'] at hraised'
      rw [hmerge, hmerge', hsame (checkRows_complete hraised).1 (checkRows_complete hraised').1]
    · intro hnone
      have hfails {s : List (MergeSource β ε ρ)} {i : RowIterator ε ρ} (hs : s ⊆ sources ++ sources')
          (hi : Drawn K s i) : i.raised = none := by
        rw [Option.eq_none_iff_forall_ne_some]
        intro e he
        obtain ⟨source, hsource, hraised⟩ := hi.raised e he
        rw [hnone source (hs hsource)] at hraised
        cases hraised
      rw [hmerge, hmerge', hsame (hfails (List.subset_append_left _ _) hdrawn)
        (hfails (List.subset_append_right _ _) hdrawn')]

/-- Sources that can be read give all their rows, in order, or else a connection breaks on the
way. -/
theorem merge_readable (K : MergeKeys ρ γ β κ σ τ) {sources : List (MergeSource β ε ρ)}
    (hsorted : ∀ source ∈ sources, source.Sorted K)
    (hreadable : ∀ source ∈ sources, source.opens.raised = none) :
    ∃ rows, rows.Perm (sourceRows sources) ∧ Ascending K rows ∧
      ((∃ e, (mergeRowsByConnection K sources).raised = some (.inl e)) ↔
        ¬ rows.Pairwise fun a b => K.connectionId a = K.connectionId b →
          Precedes (K.sequence a) (K.sequence b)) ∧
      ((mergeRowsByConnection K sources).raised = none →
        mergeRowsByConnection K sources = ⟨rows, none⟩) := by
  obtain ⟨it, hdrawn, hmerge⟩ := merge_checks K sources
  have hnone : it.raised = none := by
    rw [Option.eq_none_iff_forall_ne_some]
    intro e he
    obtain ⟨source, hsource, hraised⟩ := hdrawn.raised e he
    rw [hreadable source hsource] at hraised
    cases hraised
  refine ⟨it.rows, hdrawn.perm hnone, hdrawn.ascending hsorted, ?_, fun hraised => ?_⟩
  · rw [hmerge, hnone, checkRows_order, ne_eq, checkRows_raised]
    simp only [Option.not_mem_none, IsEmpty.forall_iff, implies_true, true_and]
  · rw [hmerge] at hraised ⊢
    obtain ⟨-, hrows⟩ := checkRows_complete hraised
    cases hchecked : checkRows K it.raised (fun _ => none) it.rows
    rw [hchecked] at hrows hraised
    simp only at hrows hraised
    rw [hrows, hraised]

end Whole

-- the order of the integers that computes, whatever is imported
local instance sampleLinearOrder : LinearOrder ℤ := Int.instLinearOrder

local instance samplePartialOrder : PartialOrder ℤ := Int.instLinearOrder.toPartialOrder

/-- Rows that are a connection and two counters. -/
def sampleKeys : MergeKeys (String × ℤ × ℤ) String ℤ ℤ ℤ Unit where
  connectionId row := row.1
  orderKey row := toLex row.2
  connectionSequenceKey row := row.2.1
  connectionTieBreakKey := none

/-- The old connection ends after the new one has begun. -/
def overlapping : List (MergeSource ℤ Empty (String × ℤ × ℤ)) :=
  [⟨1, ⟨[("old", 1, 0), ("old", 4, 0)], none⟩⟩, ⟨2, ⟨[("new", 2, 0), ("new", 5, 0)], none⟩⟩]

theorem overlapping_sorted : ∀ source ∈ overlapping, source.Sorted sampleKeys := by
  have hpair (a b : String × ℤ × ℤ) (h : sampleKeys.orderKey a ≤ sampleKeys.orderKey b) :
      Ascending sampleKeys [a, b] := by
    simpa [Ascending] using h
  intro source hsource
  rcases List.mem_pair.mp hsource with rfl | rfl
  · exact ⟨hpair _ _ (by decide), by simp [MergeKeys.bound, sampleKeys]⟩
  · exact ⟨hpair _ _ (by decide), by simp [MergeKeys.bound, sampleKeys]⟩

/-- Two connections that overlap. -/
theorem merge_correct_overlapping :
    (mergeRowsByConnection sampleKeys overlapping).rows =
      [("old", 1, 0), ("new", 2, 0), ("old", 4, 0), ("new", 5, 0)] ∧
    (mergeRowsByConnection sampleKeys overlapping).rows.Perm (sourceRows overlapping) := by
  have hrun : mergeRowsByConnection sampleKeys overlapping =
      ⟨[("old", 1, 0), ("new", 2, 0), ("old", 4, 0), ("new", 5, 0)], none⟩ := by decide
  have hcorrect := merge_correct sampleKeys overlapping overlapping_sorted
  exact ⟨by rw [hrun], (hcorrect.2.1 (by rw [hrun])).2⟩

end Greenfield.Data
