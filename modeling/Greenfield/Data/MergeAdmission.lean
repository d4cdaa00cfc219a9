import Greenfield.Data.OrderedMerge

/-!
# The sources that a merge has open

`merge_rows_by_connection` opens a source no earlier than the first row that could come from it
(`lazy_admission`). A source is closed by being exhausted only: a merge that raises, or that is
not iterated to its end, leaves the others open (`raised_leaves_open`).
-/

namespace Greenfield.Data

open Py

/-- What happens to a source, by the order of admission. -/
inductive SourceEvent where
  | opened (index : ℕ)
  /-- `next` has no row left, or raises. -/
  | ended (index : ℕ)
  deriving DecidableEq

/-- The sources in the order in which they were opened. -/
def opensOf (events : List SourceEvent) : List ℕ :=
  events.filterMap fun
    | .opened i => some i
    | .ended _ => none

/-- A source that was opened and is not exhausted. -/
def IsOpen (events : List SourceEvent) (i : ℕ) : Prop :=
  .opened i ∈ events ∧ .ended i ∉ events

variable {ρ γ β κ σ τ ε : Type}

/-- `next(it, None)`. -/
def nextEvents (index : ℕ) (it : RowIterator ε ρ) : List SourceEvent :=
  if it.rows = [] then [.ended index] else []

section Trace

variable [LinearOrder β] [LinearOrder κ]

/-- The events of the inner loop. -/
def admitEvents (K : MergeKeys ρ γ β κ σ τ) :
    List (MergeSource β ε ρ) → List (Entry ε ρ) → ℕ → List SourceEvent
  | [], _, _ => []
  | source :: pending, heap, n =>
    if heap.head?.all fun e => source.lowerBound ≤ K.bound e.row then
      match advance K n source.opens heap with
      | .error _ => .opened n :: nextEvents n source.opens
      | .ok heap => .opened n :: nextEvents n source.opens ++ admitEvents K pending heap (n + 1)
    else []

variable [DecidableEq γ] [PartialOrder σ] [DecidableEq σ] [DecidableLE σ] [LinearOrder τ]

/-- The states at the start of a turn, with the rows that were yielded and the events so far. -/
inductive Reaches (K : MergeKeys ρ γ β κ σ τ) (sources : List (MergeSource β ε ρ)) :
    MergeState β γ σ τ ε ρ → List ρ → List SourceEvent → Prop where
  | start : Reaches K sources
      ⟨sorted (fun a b => a.lowerBound ≤ b.lowerBound) sources, [], fun _ => none, 0⟩ [] []
  | turn {s out events pending entry heap n last next} :
      Reaches K sources s out events →
      admitSources K s.pending s.heap s.nextIndex = .ok (pending, entry :: heap, n) →
      checkSequence K s.last entry.row = .ok last →
      advance K entry.index entry.rest heap = .ok next →
      Reaches K sources ⟨pending, next, last, n⟩ (out ++ [entry.row])
        (events ++ admitEvents K s.pending s.heap s.nextIndex ++ nextEvents entry.index entry.rest)

/-- The merge yields the row of `entry` after the rows of `out`. -/
def Yields (K : MergeKeys ρ γ β κ σ τ) (sources : List (MergeSource β ε ρ)) (out : List ρ)
    (events : List SourceEvent) (entry : Entry ε ρ) : Prop :=
  ∃ s before pending heap n last, Reaches K sources s out before ∧
    admitSources K s.pending s.heap s.nextIndex = .ok (pending, entry :: heap, n) ∧
    checkSequence K s.last entry.row = .ok last ∧
    events = before ++ admitEvents K s.pending s.heap s.nextIndex

/-- The merge raises an `OrderedMergeError` at the row of `entry`. -/
def Raises (K : MergeKeys ρ γ β κ σ τ) (sources : List (MergeSource β ε ρ)) (out : List ρ)
    (events : List SourceEvent) (entry : Entry ε ρ) : Prop :=
  ∃ s before pending heap n e, Reaches K sources s out before ∧
    admitSources K s.pending s.heap s.nextIndex = .ok (pending, entry :: heap, n) ∧
    checkSequence K s.last entry.row = .error e ∧
    events = before ++ admitEvents K s.pending s.heap s.nextIndex

/-- The merge returns. -/
def Returns (K : MergeKeys ρ γ β κ σ τ) (sources : List (MergeSource β ε ρ)) (out : List ρ)
    (events : List SourceEvent) : Prop :=
  ∃ s before pending n, Reaches K sources s out before ∧
    admitSources K s.pending s.heap s.nextIndex = .ok (pending, [], n) ∧
    events = before ++ admitEvents K s.pending s.heap s.nextIndex

end Trace

/-! ## The sources that are open -/

/-- The sources were opened one after the other, and those in `live` are open. -/
structure Tracked (all pending : List (MergeSource β ε ρ)) (live : List ℕ) (n : ℕ)
    (events : List SourceEvent) : Prop where
  pending : pending = all.drop n
  count : n ≤ all.length
  opens : opensOf events = List.range n
  ended : ∀ i, .ended i ∈ events → i < n
  isOpen : ∀ i, IsOpen events i ↔ i ∈ live
  distinct : live.Nodup

section Tracked

variable {all pending pending' : List (MergeSource β ε ρ)} {live live' : List ℕ} {n n' : ℕ}
  {events : List SourceEvent}

theorem opensOf_append (events events' : List SourceEvent) :
    opensOf (events ++ events') = opensOf events ++ opensOf events' := List.filterMap_append

variable {i : ℕ}

theorem mem_opensOf : i ∈ opensOf events ↔ .opened i ∈ events := by
  unfold opensOf
  rw [List.mem_filterMap]
  constructor
  · rintro ⟨event, hevent, heq⟩
    cases event with
    | opened j => cases heq; exact hevent
    | ended j => cases heq
  · exact fun h => ⟨_, h, rfl⟩

theorem Tracked.perm (h : Tracked all pending live n events) (hperm : live'.Perm live) :
    Tracked all pending live' n events :=
  { h with
    isOpen := fun i => (h.isOpen i).trans hperm.mem_iff.symm
    distinct := hperm.nodup_iff.mpr h.distinct }

variable {source : MergeSource β ε ρ}

/-- The next source is opened. -/
theorem Tracked.opened
    (h : Tracked all (source :: pending) live n events) :
    Tracked all pending (n :: live) (n + 1) (events ++ [.opened n]) where
  pending := by
    have hdrop := h.pending
    rw [← List.tail_drop, ← hdrop, List.tail_cons]
  count := by
    have hlength := congrArg List.length h.pending
    simp only [List.length_cons, List.length_drop] at hlength
    omega
  opens := by
    rw [opensOf_append, h.opens, List.range_succ]
    rfl
  ended i hi := by
    rcases List.mem_append.mp hi with hi | hi
    · exact Nat.lt_succ_of_lt (h.ended i hi)
    · cases List.mem_singleton.mp hi
  isOpen i := by
    have hnew : SourceEvent.ended n ∉ events := fun hn => lt_irrefl _ (h.ended n hn)
    unfold IsOpen
    rw [List.mem_cons, ← h.isOpen i]
    unfold IsOpen
    simp only [List.mem_append, List.mem_singleton, SourceEvent.opened.injEq, reduceCtorEq, or_false]
    constructor
    · rintro ⟨hopened | rfl, hended⟩
      · exact .inr ⟨hopened, hended⟩
      · exact .inl rfl
    · rintro (rfl | ⟨hopened, hended⟩)
      · exact ⟨.inr rfl, hnew⟩
      · exact ⟨.inl hopened, hended⟩
  distinct := by
    refine List.nodup_cons.mpr ⟨fun hn => ?_, h.distinct⟩
    have hopened := mem_opensOf.mpr ((h.isOpen n).mpr hn).1
    rw [h.opens] at hopened
    exact lt_irrefl _ (List.mem_range.mp hopened)

variable {index : ℕ}

/-- A source is exhausted. -/
theorem Tracked.ended_of (h : Tracked all pending (index :: live) n events) :
    Tracked all pending live n (events ++ [.ended index]) where
  pending := h.pending
  count := h.count
  opens := by
    rw [opensOf_append, h.opens]
    exact List.append_nil _
  ended i hi := by
    rcases List.mem_append.mp hi with hi | hi
    · exact h.ended i hi
    · cases List.mem_singleton.mp hi
      have hopened := mem_opensOf.mpr ((h.isOpen index).mpr List.mem_cons_self).1
      rw [h.opens] at hopened
      exact List.mem_range.mp hopened
  isOpen i := by
    have hnot := (List.nodup_cons.mp h.distinct).1
    have hopen := h.isOpen i
    unfold IsOpen at hopen ⊢
    rw [List.mem_cons] at hopen
    simp only [List.mem_append, List.mem_singleton, SourceEvent.ended.injEq, reduceCtorEq, or_false,
      not_or]
    rw [← and_assoc, hopen]
    constructor
    · rintro ⟨rfl | hi, hne⟩
      · exact absurd rfl hne
      · exact hi
    · intro hi
      exact ⟨.inr hi, fun heq => hnot (heq ▸ hi)⟩
  distinct := (List.nodup_cons.mp h.distinct).2

variable [LinearOrder β] [LinearOrder κ] {K : MergeKeys ρ γ β κ σ τ}
  {heap heap' : List (Entry ε ρ)}

theorem index_of_push {e : Entry ε ρ} :
    ((push K e heap).map Entry.index).Perm (e.index :: heap.map Entry.index) :=
  (List.perm_orderedInsert _ e heap).map Entry.index

/-- An iterator is asked for its next row. -/
theorem Tracked.next {it : RowIterator ε ρ}
    (h : Tracked all pending (index :: heap.map Entry.index) n events)
    (hadvance : advance K index it heap = .ok heap') :
    Tracked all pending (heap'.map Entry.index) n (events ++ nextEvents index it) := by
  unfold advance at hadvance
  unfold nextEvents
  split at hadvance
  · next hrows =>
    cases hadvance
    rw [if_neg (by rw [hrows]; exact List.cons_ne_nil _ _), List.append_nil]
    exact h.perm index_of_push
  · cases hadvance
  · next hrows _ =>
    cases hadvance
    rw [if_pos hrows]
    exact h.ended_of

/-- The inner loop. -/
theorem Tracked.admitted (h : Tracked all pending (heap.map Entry.index) n events)
    (hadmitted : admitSources K pending heap n = .ok (pending', heap', n')) :
    Tracked all pending' (heap'.map Entry.index) n' (events ++ admitEvents K pending heap n) := by
  induction pending generalizing heap n events with
  | nil =>
    cases hadmitted
    rw [admitEvents, List.append_nil]
    exact h
  | cons source pending ih =>
    unfold admitSources at hadmitted
    unfold admitEvents
    split at hadmitted
    · next hfirst =>
      rw [if_pos hfirst]
      cases hadvance : advance K n source.opens heap with
      | error e => rw [hadvance] at hadmitted; cases hadmitted
      | ok next =>
        rw [hadvance] at hadmitted
        have hnext := ih (h.opened.next hadvance) hadmitted
        simpa only [List.append_assoc, List.cons_append, List.nil_append] using hnext
    · next hlater =>
      cases hadmitted
      rw [if_neg hlater, List.append_nil]
      exact h

theorem opensOf_next (index : ℕ) (it : RowIterator ε ρ) : opensOf (nextEvents index it) = [] := by
  unfold nextEvents
  split <;> rfl

/-- Whatever the inner loop runs into, it opens the next sources one after the other. -/
theorem opens_admitted (hopens : opensOf events = List.range n) (K : MergeKeys ρ γ β κ σ τ)
    (pending : List (MergeSource β ε ρ)) (heap : List (Entry ε ρ)) :
    ∃ m, opensOf (events ++ admitEvents K pending heap n) = List.range m := by
  induction pending generalizing heap n events with
  | nil =>
    rw [admitEvents, List.append_nil]
    exact ⟨n, hopens⟩
  | cons source pending ih =>
    have hnext : opensOf (events ++ .opened n :: nextEvents n source.opens) =
        List.range (n + 1) := by
      rw [opensOf_append, hopens, List.range_succ]
      exact congrArg (List.range n ++ n :: ·) (opensOf_next n source.opens)
    unfold admitEvents
    split
    · cases advance K n source.opens heap with
      | error e => exact ⟨n + 1, hnext⟩
      | ok next =>
        have hrest := ih hnext next
        simpa only [List.append_assoc, List.cons_append] using hrest
    · rw [List.append_nil]
      exact ⟨n, hopens⟩

/-! ## The bounds of what was opened -/

/-- A source that was opened is not above a row that was yielded, or not above any that can be
yielded next. -/
def Bounded (K : MergeKeys ρ γ β κ σ τ) (all : List (MergeSource β ε ρ)) (out : List ρ)
    (heap : List (Entry ε ρ)) (n : ℕ) : Prop :=
  ∀ i < n, ∀ source ∈ all[i]?, (∃ row ∈ out, source.lowerBound ≤ K.bound row) ∨
    ∀ e ∈ heap, source.lowerBound ≤ K.bound e.row

/-- The first entry of the heap has the least bound. -/
theorem head_bound {entry e : Entry ε ρ}
    (hrank : (entry :: heap).Pairwise fun a b => a.rank K ≤ b.rank K) (he : e ∈ entry :: heap) :
    K.bound entry.row ≤ K.bound e.row := by
  rcases List.mem_cons.mp he with rfl | he
  · exact le_rfl
  · have hle := (List.pairwise_cons.mp hrank).1 e he
    rcases Prod.Lex.toLex_le_toLex.mp hle with hlt | ⟨heq, -⟩
    · rcases Prod.Lex.lt_iff.mp hlt with hlt | ⟨heq, -⟩
      · exact hlt.le
      · exact heq.le
    · exact (congrArg (fun k => (ofLex k).1) heq).le

variable {out : List ρ}

theorem Bounded.admitted (hbounds : all.Pairwise fun a b => a.lowerBound ≤ b.lowerBound)
    (htrue : ∀ source ∈ all, ∀ row ∈ source.opens.rows, source.lowerBound ≤ K.bound row)
    (hpending : pending = all.drop n) (h : Bounded K all out heap n)
    (hrank : heap.Pairwise fun a b => a.rank K ≤ b.rank K)
    (hadmitted : admitSources K pending heap n = .ok (pending', heap', n')) :
    Bounded K all out heap' n' ∧ heap'.Pairwise fun a b => a.rank K ≤ b.rank K := by
  induction pending generalizing heap n with
  | nil =>
    cases hadmitted
    exact ⟨h, hrank⟩
  | cons source pending ih =>
    unfold admitSources at hadmitted
    split at hadmitted
    · next hfirst =>
      cases hadvance : advance K n source.opens heap with
      | error e => rw [hadvance] at hadmitted; cases hadmitted
      | ok next =>
        rw [hadvance] at hadmitted
        have hget : all[n]? = some source := by
          rw [← List.head?_drop, ← hpending]
          rfl
        have hmem : source ∈ all := List.mem_of_getElem? hget
        -- every row that can be yielded next is at or above the bound of the new source
        have hnew : ∀ e ∈ next, source.lowerBound ≤ K.bound e.row := by
          have hold : ∀ e ∈ heap, source.lowerBound ≤ K.bound e.row := by
            cases heap with
            | nil => exact fun e he => absurd he List.not_mem_nil
            | cons entry heap =>
              intro e he
              have hle : source.lowerBound ≤ K.bound entry.row := by simpa using hfirst
              exact hle.trans (head_bound hrank he)
          intro e he
          rcases advance_eq_ok hadvance with ⟨-, rfl⟩ | ⟨x, hrows, -, rfl⟩
          · exact hold e he
          · rcases mem_push.mp he with rfl | he
            · refine htrue source hmem _ ?_
              rw [← hrows]
              exact List.mem_cons_self
            · exact hold e he
        refine ih ?_ (fun i hi earlier hearlier => ?_) ?_ hadmitted
        · rw [← List.tail_drop, ← hpending, List.tail_cons]
        · refine .inr fun e he => ?_
          rcases Nat.lt_succ_iff_lt_or_eq.mp hi with hlt | rfl
          · obtain ⟨hi', rfl⟩ := List.getElem?_eq_some_iff.mp hearlier
            obtain ⟨hn', rfl⟩ := List.getElem?_eq_some_iff.mp hget
            exact (List.pairwise_iff_getElem.mp hbounds i n hi' hn' hlt).trans (hnew e he)
          · rw [hget] at hearlier
            cases hearlier
            exact hnew e he
        · rcases advance_eq_ok hadvance with ⟨-, rfl⟩ | ⟨x, -, -, rfl⟩
          · exact hrank
          · exact hrank.orderedInsert x heap
    · cases hadmitted
      exact ⟨h, hrank⟩

omit [LinearOrder κ] in
/-- The row at the head of the heap is not below the bounds of the open sources, or an earlier row
is not. -/
theorem Bounded.head {entry : Entry ε ρ} (h : Bounded K all out (entry :: heap) n)
    (hi : i < n) (hsource : source ∈ all[i]?) :
    ∃ row ∈ out ++ [entry.row], source.lowerBound ≤ K.bound row := by
  rcases h i hi source hsource with ⟨row, hrow, hle⟩ | hheap
  · exact ⟨row, List.mem_append_left _ hrow, hle⟩
  · exact ⟨entry.row, List.mem_append_right _ List.mem_cons_self, hheap entry List.mem_cons_self⟩

end Tracked

/-! ## A whole merge -/

section Runs

variable [LinearOrder β] [LinearOrder κ] [DecidableEq γ] [PartialOrder σ] [DecidableEq σ]
  [DecidableLE σ] [LinearOrder τ] {K : MergeKeys ρ γ β κ σ τ} {sources : List (MergeSource β ε ρ)}
  {s : MergeState β γ σ τ ε ρ} {out : List ρ} {events : List SourceEvent} {entry : Entry ε ρ}

/-- The sources in the order in which they are opened. -/
def admissionOrder (sources : List (MergeSource β ε ρ)) : List (MergeSource β ε ρ) :=
  sorted (fun a b => a.lowerBound ≤ b.lowerBound) sources

theorem pairwise_admissionOrder (sources : List (MergeSource β ε ρ)) :
    (admissionOrder sources).Pairwise fun a b => a.lowerBound ≤ b.lowerBound := by
  have hpairwise := pairwise_sorted
    (fun a b : MergeSource β ε ρ => decide (a.lowerBound ≤ b.lowerBound))
    (fun a b => by simpa using le_total a.lowerBound b.lowerBound)
    (fun a b c => by simpa using le_trans) sources
  simpa only [admissionOrder, decide_eq_true_eq] using hpairwise

theorem Reaches.tracked (h : Reaches K sources s out events) :
    Tracked (admissionOrder sources) s.pending (s.heap.map Entry.index) s.nextIndex events := by
  induction h with
  | start =>
    exact ⟨rfl, Nat.zero_le _, rfl, fun i hi => absurd hi List.not_mem_nil,
      fun i => ⟨fun hi => absurd hi.1 List.not_mem_nil, fun hi => absurd hi List.not_mem_nil⟩, .nil⟩
  | turn _ hadmitted _ hadvance ih => exact (ih.admitted hadmitted).next hadvance

theorem Reaches.bounded (hsorted : ∀ source ∈ sources, source.Sorted K)
    (h : Reaches K sources s out events) :
    Bounded K (admissionOrder sources) out s.heap s.nextIndex ∧
      s.heap.Pairwise fun a b => a.rank K ≤ b.rank K := by
  induction h with
  | start => exact ⟨fun i hi => absurd hi (Nat.not_lt_zero i), .nil⟩
  | turn hreaches hadmitted _ hadvance ih =>
    obtain ⟨hbounded, hrank⟩ := ih.1.admitted (pairwise_admissionOrder sources)
      (fun source hsource => (hsorted source (mem_sorted.mp hsource)).bound)
      hreaches.tracked.pending ih.2 hadmitted
    refine ⟨fun i hi source hsource => .inl (hbounded.head hi hsource), ?_⟩
    have htail := (List.pairwise_cons.mp hrank).2
    rcases advance_eq_ok hadvance with ⟨-, hnext⟩ | ⟨x, -, -, hnext⟩
    · rw [hnext]
      exact htail
    · rw [hnext]
      exact htail.orderedInsert x _

theorem Yields.tracked (h : Yields K sources out events entry) :
    ∃ pending n, ∃ heap : List (Entry ε ρ), Tracked (admissionOrder sources) pending
      (entry.index :: heap.map Entry.index) n events := by
  obtain ⟨s, before, pending, heap, n, last, hreaches, hadmitted, -, rfl⟩ := h
  exact ⟨pending, n, heap, hreaches.tracked.admitted hadmitted⟩

theorem Raises.tracked (h : Raises K sources out events entry) :
    ∃ pending n, ∃ heap : List (Entry ε ρ), Tracked (admissionOrder sources) pending
      (entry.index :: heap.map Entry.index) n events := by
  obtain ⟨s, before, pending, heap, n, e, hreaches, hadmitted, -, rfl⟩ := h
  exact ⟨pending, n, heap, hreaches.tracked.admitted hadmitted⟩

/-- At a yield, the row is not below the bounds of the open sources, or an earlier row is not. -/
theorem Yields.bounded (hsorted : ∀ source ∈ sources, source.Sorted K)
    (h : Yields K sources out events entry) {i : ℕ} (hi : IsOpen events i) :
    ∃ source ∈ (admissionOrder sources)[i]?,
      ∃ row ∈ out ++ [entry.row], source.lowerBound ≤ K.bound row := by
  obtain ⟨s, before, pending, heap, n, last, hreaches, hadmitted, -, rfl⟩ := h
  have htracked := hreaches.tracked.admitted hadmitted
  obtain ⟨hbounded, hrank⟩ := hreaches.bounded hsorted
  obtain ⟨hbounded, -⟩ := hbounded.admitted (pairwise_admissionOrder sources)
    (fun source hsource => (hsorted source (mem_sorted.mp hsource)).bound)
    hreaches.tracked.pending hrank hadmitted
  have hopened := mem_opensOf.mpr hi.1
  rw [htracked.opens] at hopened
  have hlt := List.mem_range.mp hopened
  have hget := List.getElem?_eq_getElem (hlt.trans_le htracked.count)
  exact ⟨_, hget, hbounded.head hlt hget⟩

/-- **Admission.** At a yield the sources that are open are those that the row or an earlier one
could not rule out. No source is opened twice, however far the merge gets. A merge that returns
has exhausted what it opened; one that raises, or is left at a yield, has not exhausted the source
of its last row. -/
theorem lazy_admission (K : MergeKeys ρ γ β κ σ τ) (sources : List (MergeSource β ε ρ))
    (hsorted : ∀ source ∈ sources, source.Sorted K) :
    (∀ out events entry, Yields K sources out events entry → ∀ i, IsOpen events i →
      ∃ source ∈ (admissionOrder sources)[i]?,
        ∃ row ∈ out ++ [entry.row], source.lowerBound ≤ K.bound row) ∧
    (∀ s out events, Reaches K sources s out events →
      (opensOf (events ++ admitEvents K s.pending s.heap s.nextIndex)).Nodup) ∧
    (∀ out events entry, Yields K sources out events entry →
      (opensOf (events ++ nextEvents entry.index entry.rest)).Nodup) ∧
    (∀ out events, Returns K sources out events → ∀ i, ¬ IsOpen events i) ∧
    ∀ out events entry, Yields K sources out events entry ∨ Raises K sources out events entry →
      IsOpen events entry.index := by
  refine ⟨fun out events entry h i hi => h.bounded hsorted hi, fun s out events h => ?_,
    fun out events entry h => ?_, fun out events h i hi => ?_, fun out events entry h => ?_⟩
  · obtain ⟨m, hm⟩ := opens_admitted h.tracked.opens K s.pending s.heap
    rw [hm]
    exact List.nodup_range
  · obtain ⟨pending, n, heap, htracked⟩ := h.tracked
    rw [opensOf_append, htracked.opens, opensOf_next, List.append_nil]
    exact List.nodup_range
  · obtain ⟨s, before, pending, n, hreaches, hadmitted, rfl⟩ := h
    exact List.not_mem_nil (((hreaches.tracked.admitted hadmitted).isOpen i).mp hi)
  · have htracked : ∃ pending n, ∃ heap : List (Entry ε ρ), Tracked (admissionOrder sources)
        pending (entry.index :: heap.map Entry.index) n events :=
      h.elim Yields.tracked Raises.tracked
    obtain ⟨pending, n, heap, htracked⟩ := htracked
    exact (htracked.isOpen entry.index).mpr List.mem_cons_self

end Runs

-- the order of the integers that computes, whatever is imported
local instance admissionLinearOrder : LinearOrder ℤ := Int.instLinearOrder

local instance admissionPartialOrder : PartialOrder ℤ := Int.instLinearOrder.toPartialOrder

/-- Before its first row a merge of two connections has opened only the first source. -/
theorem lazy_admission_overlapping :
    (∀ source ∈ overlapping, source.Sorted sampleKeys) ∧
    ∀ i, IsOpen [.opened 0] i → ∃ source ∈ (admissionOrder overlapping)[i]?,
      ∃ row ∈ [("old", (1 : ℤ), (0 : ℤ))], source.lowerBound ≤ sampleKeys.bound row :=
  ⟨overlapping_sorted, (lazy_admission sampleKeys overlapping overlapping_sorted).1 [] [.opened 0]
    ⟨0, ("old", 1, 0), ⟨[("old", 4, 0)], none⟩⟩
    ⟨_, [], _, [], 1, _, .start, rfl, rfl, rfl⟩⟩

/-- Two sources, the first of which gives a row twice. -/
def repeating : List (MergeSource ℤ Empty (String × ℤ × ℤ)) :=
  [⟨1, ⟨[("old", 1, 0), ("old", 1, 0)], none⟩⟩, ⟨1, ⟨[("new", 2, 0)], none⟩⟩]

theorem repeating_sorted : ∀ source ∈ repeating, source.Sorted sampleKeys := by
  intro source hsource
  rcases List.mem_pair.mp hsource with rfl | rfl
  · exact ⟨by simp [Ascending], by simp [MergeKeys.bound, sampleKeys]⟩
  · exact ⟨by simp [Ascending], by simp [MergeKeys.bound, sampleKeys]⟩

/-- A merge that raises at the second of the two rows, or is left at the first one, has both
sources open. -/
theorem raised_leaves_open :
    (∀ source ∈ repeating, source.Sorted sampleKeys) ∧
    (∃ out events entry, Raises sampleKeys repeating out events entry ∧
      IsOpen events 0 ∧ IsOpen events 1) ∧
    ∃ out events entry, Yields sampleKeys repeating out events entry ∧
      IsOpen events 0 ∧ IsOpen events 1 := by
  have hopen : IsOpen [.opened 0, .opened 1] 0 ∧ IsOpen [.opened 0, .opened 1] 1 := by
    simp [IsOpen]
  refine ⟨repeating_sorted, ?_, ?_⟩
  · refine ⟨[("old", 1, 0)], [.opened 0, .opened 1], ⟨0, ("old", 1, 0), ⟨[], none⟩⟩, ?_, hopen⟩
    have hstart : Reaches sampleKeys repeating _ _ _ := .start
    have hadmitted : admitSources sampleKeys repeating [] 0 = .ok ([],
        [⟨0, ("old", 1, 0), ⟨[("old", 1, 0)], none⟩⟩, ⟨1, ("new", 2, 0), ⟨[], none⟩⟩], 2) := rfl
    have hreaches := hstart.turn hadmitted rfl rfl
    exact ⟨_, _, [], _, 2, _, hreaches, rfl, rfl, rfl⟩
  · refine ⟨[], [.opened 0, .opened 1], ⟨0, ("old", 1, 0), ⟨[("old", 1, 0)], none⟩⟩, ?_, hopen⟩
    exact ⟨_, _, [], _, 2, _, .start, rfl, rfl, rfl⟩

end Greenfield.Data
