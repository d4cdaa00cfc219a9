import Greenfield.Data.MicroCollector

/-!
# Rows of the collector

What a write of the collector leaves of which operations fail (`Good.writeDays_faulty`). The rows
are out of the buffer by then, so they are lost unless no operation fails before the last file of
the write has its name, and a flush of all streams goes no further (`keepsRows_iff`).
-/

namespace Greenfield.Data.Micro

open Effects Files Py Keyed

/-! ## Writes of which operations fail -/

section Faults

variable {ρ : Type} [DecidableEq ρ] {answers : ℕ → (o : Query) → Answer o} {faults : ℕ → Option ℕ}
  {lake : Lake ρ} {temp path : Path} {rows : List (Row ρ)} {n : ℕ}

variable (answers faults path rows n) in
omit [DecidableEq ρ] in
/-- A file that is filled under its temporary name and renamed. One of the four operations fails,
and what is left is at most the temporary, or the file is there. -/
theorem run_toParquet_replace (htemp : lake.read temp = none) :
    let out := (toParquet temp rows >>= fun _ => op (.replace temp path)).run
      (faulty PyError.osError answers faults) (n, lake)
    (∀ k < 4, faults (n + k) = none) ∧ out = (.ok (), n + 4, lake.put path (parquet rows)) ∨
      (∃ k < 4, faults (n + k) ≠ none) ∧ (∃ e, out.1 = .error e) ∧
        (out.2.2 = lake ∨ ∃ c, out.2.2 = lake.put temp c) := by
  have hread : ∀ c, (lake.put temp c).read temp = some c := by
    intro c
    rw [Store.read_put, if_pos rfl]
  have hremove : ∀ c, (lake.put temp c).remove temp = lake := by
    intro c
    rw [Store.remove_put, Store.remove_absent htemp]
  unfold toParquet
  cases h0 : faults n with
  | some part =>
    refine .inr ⟨⟨0, by omega, by simp [h0]⟩, ?_⟩
    simp [Prog.run_bind, faulty, h0, cut]
  | none =>
  cases h1 : faults (n + 1) with
  | some part =>
    refine .inr ⟨⟨1, by omega, by simp [h1]⟩, ?_⟩
    simp [Prog.run_bind, faulty, h0, h1, handle, cut, hread, Store.put_put]
  | none =>
  cases h2 : faults (n + 2) with
  | some part =>
    refine .inr ⟨⟨2, by omega, by simp [h2]⟩, ?_⟩
    simp [Prog.run_bind, faulty, h0, h1, h2, handle, cut, hread, Store.put_put]
  | none =>
  cases h3 : faults (n + 3) with
  | some part =>
    refine .inr ⟨⟨3, by omega, by simp [h3]⟩, ?_⟩
    simp [Prog.run_bind, faulty, h0, h1, h2, h3, handle, cut, hread, Store.put_put]
  | none =>
    refine .inl ⟨fun k hk => ?_, ?_⟩
    · rcases k with _ | _ | _ | _ | k
      · exact h0
      · exact h1
      · exact h2
      · exact h3
      · omega
    · simp [Prog.run_bind, faulty, h0, h1, h2, h3, handle, hread, hremove, Store.put_put, parquet]

variable {stream symbol : String} {id : ℕ} {day : ℤ}

/-- What the group of a day leaves: nothing that a reader sees if an operation up to the rename
fails, else its file. -/
inductive GroupLeft (faults : ℕ → Option ℕ) (lake : Lake ρ) (directory : Directory)
    (rows : List (Row ρ)) (id n : ℕ) : Except PyError ℕ × ℕ × Lake ρ → Prop where
  | failed (e : PyError) (m timeNs : ℕ) (lake' : Lake ρ) (hfault : ∃ k < 5, faults (n + k) ≠ none)
      (hlake : lake' = lake ∨ ∃ c, lake' = lake.put (directory, .batchTemp timeNs id (id + 1)) c) :
      GroupLeft faults lake directory rows id n (.error e, m, lake')
  | written (r : Except PyError ℕ) (timeNs : ℕ) (hnone : ∀ k < 5, faults (n + k) = none)
      (hresult : r = .ok (id + 2) ∧ faults (n + 5) = none ∨
        (∃ e, r = .error e) ∧ faults (n + 5) ≠ none) :
      GroupLeft faults lake directory rows id n
        (r, n + 6, lake.put (directory, .batch timeNs id) (parquet rows))

variable (answers faults rows n stream symbol day) in
omit [DecidableEq ρ] in
theorem run_writeGroup_faulty
    (htemp : ∀ timeNs, lake.read (⟨stream, symbol, day⟩, .batchTemp timeNs id (id + 1)) = none) :
    GroupLeft faults lake ⟨stream, symbol, day⟩ (rows.filter fun r => r.day = day) id n
      ((writeGroup stream symbol rows id day).run (faulty PyError.osError answers faults)
        (n, lake)) := by
  unfold writeGroup
  cases h0 : faults n with
  | some part =>
    simp only [Prog.run_bind, Prog.run_perform, faulty, h0]
    exact .failed _ _ 0 _ ⟨0, by omega, by simp [h0]⟩ (.inl rfl)
  | none =>
  have hfile := run_toParquet_replace answers faults
    (⟨stream, symbol, day⟩, .batch (answers n .timeNs) id)
    (rows.filter fun r => r.day = day) (n + 1) (htemp (answers n .timeNs))
  dsimp only at hfile
  have hask : faulty PyError.osError answers faults (.ask .timeNs) (n, lake) =
      (.ok (answers n .timeNs), n + 1, lake) := by
    simp [faulty, h0, handle]
  rw [Prog.run_bind, Prog.run_perform, hask]
  dsimp only
  rw [Prog.run_bind, Prog.run_attempt]
  rcases hfile with ⟨hnone, hout⟩ | ⟨⟨k, hk, hfault⟩, ⟨e, herror⟩, hlake⟩
  · rw [hout]
    have hnone' : ∀ k < 5, faults (n + k) = none := by
      intro k hk
      rcases k with _ | k
      · exact h0
      · have := hnone k (by omega)
        rwa [Nat.add_right_comm] at this
    have hremove : ∀ timeNs c, (lake.put (⟨stream, symbol, day⟩, .batch timeNs id) c).remove
        (⟨stream, symbol, day⟩, .batchTemp timeNs id (id + 1)) =
          lake.put (⟨stream, symbol, day⟩, .batch timeNs id) c := by
      intro timeNs c
      refine Store.remove_absent ?_
      rw [Store.read_put, if_neg (by simp), htemp]
    cases h5 : faults (n + 5) with
    | none =>
      have h5' : faults (n + 1 + 4) = none := h5
      simp only [Prog.run_bind, Prog.run_perform, faulty, h5', handle, Bool.true_or, if_true, hremove,
        Prog.lift, Prog.run]
      exact .written _ _ hnone' (.inl ⟨rfl, h5⟩)
    | some part =>
      have h5' : faults (n + 1 + 4) = some part := h5
      simp only [Prog.run_bind, Prog.run_perform, faulty, h5', cut]
      exact .written _ _ hnone' (.inr ⟨⟨_, rfl⟩, by simp [h5]⟩)
  · -- whatever becomes of the temporary, the exception is raised again
    generalize ((toParquet _ _ >>= fun _ => op _).run _ _) = out at herror hlake ⊢
    obtain ⟨r, m, lake'⟩ := out
    cases herror
    have hfault' : ∃ k < 5, faults (n + k) ≠ none := ⟨k + 1, by omega, by
      rwa [← Nat.add_assoc, Nat.add_right_comm]⟩
    cases hm : faults m with
    | none =>
      simp only [Prog.run_bind, Prog.run_perform, faulty, hm, handle, Bool.true_or, if_true,
        Prog.lift, Prog.run]
      refine .failed _ _ (answers n .timeNs) _ hfault' (.inl ?_)
      rcases hlake with rfl | ⟨c, rfl⟩
      · exact Store.remove_absent (htemp _)
      · rw [Store.remove_put, Store.remove_absent (htemp _)]
    | some part =>
      simp only [Prog.run_bind, Prog.run_perform, faulty, hm, cut]
      exact .failed _ _ (answers n .timeNs) _ hfault' hlake

variable {w : World ρ}

/-- A temporary is not seen. -/
theorem Good.batchTemp (h : Good w) {directory : Directory} (timeNs nextId : ℕ) (c : Content ρ)
    (hstream : directory.stream ∈ streams) (hid : w.nextId + 2 ≤ nextId) :
    Good { w with
      lake := w.lake.put (directory, .batchTemp timeNs w.nextId (w.nextId + 1)) c, nextId } := by
  have hfresh : w.lake.read (directory, .batchTemp timeNs w.nextId (w.nextId + 1)) = none :=
    h.fresh (Nat.le_refl _) List.mem_cons_self
  have hcases : ∀ p c', (w.lake.put (directory, .batchTemp timeNs w.nextId (w.nextId + 1)) c).read p =
      some c' → p = (directory, .batchTemp timeNs w.nextId (w.nextId + 1)) ∨
        w.lake.read p = some c' := by
    intro p c' hc
    rw [Store.read_put] at hc
    split at hc
    · next hp => exact .inl hp
    · exact .inr hc
  refine ⟨fun p c' hc hvisible => ?_, fun p c' hc => ?_, fun p c' hc id hmem => ?_, fun other r => ?_⟩
  · rcases hcases p c' hc with rfl | hold
    · cases hvisible
    · exact h.whole p c' hold hvisible
  · rcases hcases p c' hc with rfl | hold
    · exact hstream
    · exact h.known p c' hold
  · rcases hcases p c' hc with rfl | hold
    · simp only [FileName.ids, List.mem_cons, List.not_mem_nil, or_false] at hmem
      dsimp only
      omega
    · have hlt := h.ids p c' hold id hmem
      dsimp only
      omega
  · have hzero : weight other r ((directory, FileName.batchTemp timeNs w.nextId (w.nextId + 1)), c) = 0 :=
      if_neg (by simp [FileName.isParquet])
    show tally other r (w.lake.put _ c) = _
    rw [tally_put hfresh, hzero]
    exact h.counts other r

/-- The rows of the days. -/
def rowsOfDays (rows : List (Row ρ)) (days : List ℤ) : List (Row ρ) :=
  days.flatMap fun day => rows.filter fun r => r.day = day

/-- What the groups leave: the files of the days before the first that fails. -/
structure DaysLeft (faults : ℕ → Option ℕ) (w : World ρ) (key : String × String) (rows : List (Row ρ))
    (days : List ℤ) (n : ℕ) (out : Except PyError ℕ × ℕ × Lake ρ) : Prop where
  files : ∃ done rest, days = done ++ rest ∧
    Good { lake := out.2.2, nextId := w.nextId + 2 * days.length
           written := w.written ++ (rowsOfDays rows done).map (Prod.mk key) } ∧
    (rest = [] ↔ ∀ k < 6 * days.length - 1, faults (n + k) = none)
  returns : (∃ a, out.1 = .ok a) ↔ ∀ k < 6 * days.length, faults (n + k) = none

variable (symbol) in
theorem Good.writeDays_faulty (answers : ℕ → (o : Query) → Answer o) (faults : ℕ → Option ℕ)
    (hstream : stream ∈ streams) : ∀ (days : List ℤ) {w : World ρ} (n : ℕ), Good w →
      (∀ day ∈ days, (rows.filter fun r => r.day = day) ≠ []) →
      DaysLeft faults w (stream, symbol) rows days n
        ((foldEach (writeGroup stream symbol rows) w.nextId days).run
          (faulty PyError.osError answers faults) (n, w.lake))
  | [], w, n, h, _ => by
    refine ⟨⟨[], [], rfl, ?_, iff_of_true rfl fun k hk => absurd hk (Nat.not_lt_zero k)⟩,
      iff_of_true ⟨_, rfl⟩ fun k hk => absurd hk (Nat.not_lt_zero k)⟩
    simpa [rowsOfDays, foldEach, Prog.run] using h
  | day :: days, w, n, h, hne => by
    obtain ⟨hday, hdays⟩ := List.forall_mem_cons.mp hne
    have hgroup := run_writeGroup_faulty answers faults rows n stream symbol day fun timeNs =>
      h.fresh (Nat.le_refl w.nextId) List.mem_cons_self
    rw [foldEach, Prog.run_bind]
    generalize (writeGroup stream symbol rows w.nextId day).run _ (n, w.lake) = out at hgroup ⊢
    have hlength : (day :: days).length = days.length + 1 := List.length_cons
    cases hgroup with
    | failed e m timeNs lake' hfault hlake =>
      obtain ⟨k, hk, hfault⟩ := hfault
      refine ⟨⟨[], day :: days, rfl, ?_,
          iff_of_false (List.cons_ne_nil _ _) fun hall => hfault (hall k (by omega))⟩,
        iff_of_false (by rintro ⟨a, ⟨⟩⟩) fun hall => hfault (hall k (by omega))⟩
      dsimp only
      rw [rowsOfDays, List.flatMap_nil, List.map_nil, List.append_nil]
      rcases hlake with rfl | ⟨c, rfl⟩
      · exact h.later (by omega)
      · exact h.batchTemp timeNs _ c hstream (by omega)
    | written r timeNs hnone hresult =>
      have hput := h.put ⟨stream, symbol, day⟩ (.batch timeNs w.nextId) (w.nextId + 2) hstream rfl
        (fun _ => FileName.noConfusion) (Nat.le_add_right _ _)
        (fun id hid => by rw [List.mem_singleton.mp hid]; omega)
        (h.fresh (Nat.le_refl _) List.mem_cons_self) hday
        (fun r hr => of_decide_eq_true (List.mem_filter.mp hr).2)
      rcases hresult with ⟨rfl, h5⟩ | ⟨⟨e, rfl⟩, h5⟩
      · obtain ⟨⟨done, rest, hsplit, hgood, hrest⟩, hreturns⟩ :=
          Good.writeDays_faulty answers faults hstream days (n + 6) hput hdays
        have hshift : ∀ m, (∀ k < m, faults (n + 6 + k) = none) ↔ ∀ k < 6 + m, faults (n + k) = none := by
          intro m
          constructor
          · intro hall k hk
            by_cases hk5 : k < 5
            · exact hnone k hk5
            by_cases heq : k = 5
            · rw [heq, h5]
            · have := hall (k - 6) (by omega)
              rwa [show n + 6 + (k - 6) = n + k by omega] at this
          · intro hall k hk
            rw [Nat.add_assoc]
            exact hall (6 + k) (by omega)
        refine ⟨⟨day :: done, rest, by rw [hsplit, List.cons_append], ?_, ?_⟩, ?_⟩
        · dsimp only at hgood ⊢
          have hnext : w.nextId + 2 + 2 * days.length = w.nextId + 2 * (day :: days).length := by omega
          rw [hnext, List.append_assoc, ← List.map_append] at hgood
          exact hgood
        · rw [hrest, hshift]
          cases days with
          | nil =>
            refine iff_of_true (fun k hk => ?_) fun k hk => hnone k (by simpa using hk)
            by_cases hk5 : k < 5
            · exact hnone k hk5
            · rw [show k = 5 by simp at hk; omega, h5]
          | cons next days =>
            have hlength' : (next :: days).length = days.length + 1 := List.length_cons
            rw [show 6 + (6 * (next :: days).length - 1) = 6 * (day :: next :: days).length - 1 by omega]
        · rw [show 6 * (day :: days).length = 6 + 6 * days.length by omega, ← hshift]
          exact hreturns
      · refine ⟨⟨[day], days, rfl, ?_, ?_⟩, iff_of_false (by rintro ⟨a, ⟨⟩⟩) fun hall =>
          h5 (hall 5 (by omega))⟩
        · have hid : w.nextId + 2 ≤ w.nextId + 2 * (day :: days).length := by
            rw [List.length_cons]
            omega
          simpa [rowsOfDays] using hput.later hid
        · constructor
          · rintro rfl k hk
            exact hnone k (by simpa using hk)
          · intro hall
            by_contra hne
            have hpos := List.length_pos_of_ne_nil hne
            exact h5 (hall 5 (by omega))

end Faults

/-! ## What becomes of the rows -/

/-- How often a row is in the files of a stream. -/
def inFiles (stream symbol : String) (row : BufferRow) (lake : Lake Fields) : ℕ :=
  match row.dated with
  | some r => lake.sum fun f =>
      if f.1.1.stream = stream ∧ f.1.1.symbol = symbol ∧ f.1.2.isParquet = true then
        ((rowsOf f.2).getD []).count r
      else 0
  | none => 0

variable {row : BufferRow} {r : Row Fields}

theorem dated_eq_some :
    row.dated = some r ↔ row = ⟨some r.timestamp, r.fields⟩ := by
  obtain ⟨_ | timestamp, fields⟩ := row
  · simp [BufferRow.dated]
  · constructor
    · rintro ⟨⟩
      rfl
    · rintro ⟨⟩
      rfl

theorem count_datedRows (h : row.dated = some r)
    (rows : List BufferRow) : (datedRows rows).count r = rows.count row := by
  induction rows with
  | nil => rfl
  | cons first rows ih =>
    unfold datedRows at ih ⊢
    rw [List.filterMap_cons, List.count_cons, ← ih]
    cases hfirst : first.dated with
    | none =>
      have hne : first ≠ row := by
        rintro rfl
        rw [hfirst] at h
        cases h
      simp [hne]
    | some r' =>
      have heq : r' = r ↔ first = row := by
        rw [dated_eq_some.mp h, dated_eq_some.mp hfirst]
        obtain ⟨t, f⟩ := r
        obtain ⟨t', f'⟩ := r'
        simp
      simp only [List.count_cons, beq_iff_eq, heq]

/-- In a good lake these are the rows that were written. -/
theorem Good.inFiles {w : World Fields} (h : Good w) (stream symbol : String)
    (hdated : row.dated = some r) :
    inFiles stream symbol row w.lake = (w.writtenTo stream symbol).count r := by
  have htally := h.counts ⟨stream, symbol, r.day⟩ r
  rw [if_pos rfl] at htally
  rw [← htally]
  unfold Micro.inFiles tally Store.sum
  rw [hdated]
  dsimp only
  refine congrArg List.sum (List.map_congr_left fun f hf => ?_)
  have hread : w.lake.read f.1 = some f.2 := by
    unfold Store.read
    rw [Table.find_of_mem hf]
    rfl
  unfold weight
  by_cases hparquet : f.1.2.isParquet = true
  · obtain ⟨rows, -, hrows, hdays⟩ := (h.whole f.1 f.2 hread hparquet).rows
    by_cases hday : f.1.1.day = r.day
    · have hdirectory : f.1.1 = ⟨stream, symbol, r.day⟩ ↔
          f.1.1.stream = stream ∧ f.1.1.symbol = symbol := by
        rw [← hday]
        obtain ⟨⟨⟨stream', symbol', day'⟩, name⟩, content⟩ := f
        simp
      simp only [hdirectory, hparquet, and_true]
    · have hzero : rows.count r = 0 :=
        List.count_eq_zero_of_not_mem fun hr => hday (hdays r hr).symm
      rw [hrows, rowsOf_parquet, Option.getD_some, hzero, ite_self, ite_self]
  · simp [hparquet]

/-- No operation of the write of a stream fails. -/
def Completes (c : Collector) (runs : Stream → WriteRun) (stream : Stream) : Prop :=
  ∀ k < 6 * (daysOf (datedRows (c.buffers stream))).length, (runs stream).faults k = none

/-- All rows have a timestamp, and no operation of their write fails before its last file has its
name. -/
def Saved (rows : List BufferRow) (run : WriteRun) : Prop :=
  (∀ row ∈ rows, row.timestamp ≠ none) ∧
    ∀ k < 6 * (daysOf (datedRows rows)).length - 1, run.faults k = none

variable {config : CollectorConfig} {c : Collector}

/-- What a flush of a stream leaves. -/
structure StreamLeft (config : CollectorConfig) (c : Collector) (stream : Stream) (run : WriteRun)
    (out : Except PyError Unit × Collector) : Prop where
  good : ∃ written, Good { lake := out.2.lake, nextId := out.2.nextId, written }
  buffers : out.2.buffers = Function.update c.buffers stream []
  others : ∀ other ≠ stream, ∀ row, inFiles other.name config.symbol row out.2.lake =
    inFiles other.name config.symbol row c.lake
  saved : (∀ row, inFiles stream.name config.symbol row out.2.lake =
    inFiles stream.name config.symbol row c.lake + (c.buffers stream).count row) ↔
      Saved (c.buffers stream) run
  returns : out.1 = .ok () ↔
    ∀ k < 6 * (daysOf (datedRows (c.buffers stream))).length, run.faults k = none

theorem name_injective : Function.Injective Stream.name := by
  intro a b h
  cases a <;> cases b <;> first | rfl | simp [Stream.name] at h

theorem name_mem_streams (stream : Stream) : stream.name ∈ streams := by
  cases stream <;> simp [Stream.name, streams]

variable {ρ : Type}

variable {rows : List (Row ρ)}

theorem daysOf_nonempty {day : ℤ} (h : day ∈ daysOf rows) :
    (rows.filter fun r => r.day = day) ≠ [] := by
  unfold daysOf at h
  rw [mem_sorted, List.mem_dedup] at h
  obtain ⟨r, hr, rfl⟩ := List.mem_map.mp h
  exact List.ne_nil_of_mem (List.mem_filter.mpr ⟨hr, decide_eq_true rfl⟩)

/-- The first days have all rows only if there are no others. -/
theorem count_rowsOfDays [DecidableEq ρ] {done rest : List ℤ}
    (h : daysOf rows = done ++ rest) :
    (∀ r, (rowsOfDays rows done).count r = rows.count r) ↔ rest = [] := by
  constructor
  · intro hall
    by_contra hne
    obtain ⟨day, hday⟩ := List.exists_mem_of_ne_nil _ hne
    obtain ⟨r, hr⟩ := List.exists_mem_of_ne_nil _
      (daysOf_nonempty (h ▸ List.mem_append_right done hday))
    obtain ⟨hmem, hrday⟩ := List.mem_filter.mp hr
    have hnodup : (done ++ rest).Nodup :=
      h ▸ (List.perm_insertionSort _ _).nodup_iff.mpr (List.nodup_dedup _)
    have hin : r ∈ rowsOfDays rows done := by
      rw [← List.count_pos_iff, hall]
      exact List.count_pos_iff.mpr hmem
    obtain ⟨day', hday', hr'⟩ := List.mem_flatMap.mp hin
    have heq : day' = day :=
      (of_decide_eq_true (List.mem_filter.mp hr').2).symm.trans (of_decide_eq_true hrday)
    exact (List.nodup_append.mp hnodup).2.2 day' hday' day hday heq
  · rintro rfl r
    rw [List.append_nil] at h
    rw [← h]
    exact count_groups rows r

theorem writtenTo_append (lake : Lake ρ) (nextId : ℕ)
    (written : List ((String × String) × Row ρ)) (rows : List (Row ρ)) (stream other symbol : String) :
    World.writtenTo ⟨lake, nextId, written ++ rows.map (Prod.mk (stream, symbol))⟩ other symbol =
      World.writtenTo ⟨lake, nextId, written⟩ other symbol ++ if other = stream then rows else [] := by
  unfold World.writtenTo
  rw [List.filter_append, List.map_append, List.filter_map, List.map_map]
  congr 1
  split
  · next h =>
    subst h
    rw [List.filter_eq_self.mpr fun r _ => by simp]
    exact List.map_id _
  · next h =>
    rw [List.filter_eq_nil_iff.mpr fun r _ => by simpa using Ne.symm h]
    rfl

variable (config) in
/-- **A flush of a stream.** -/
theorem flushStream_left (h : ∃ written, Good { lake := c.lake, nextId := c.nextId, written })
    (stream : Stream) (run : WriteRun) :
    StreamLeft config c stream run (c.flushStream config stream run) := by
  obtain ⟨written, hgood⟩ := h
  unfold Collector.flushStream
  by_cases hrows : c.buffers stream = []
  · rw [if_pos hrows]
    refine ⟨⟨written, hgood⟩, rfl, fun _ _ _ => rfl, iff_of_true ?_ ?_, iff_of_true rfl ?_⟩
    · intro row
      simp [hrows]
    · simp [Saved, hrows, datedRows, daysOf, sorted]
    · simp [hrows, datedRows, daysOf, sorted]
  rw [if_neg hrows]
  have hdays := hgood.writeDays_faulty config.symbol run.answers run.faults
    (name_mem_streams stream) (daysOf (datedRows (c.buffers stream))) 0 fun day => daysOf_nonempty
  have hknown : streams.contains stream.name = true := by simpa using name_mem_streams stream
  unfold writeBatch
  rw [hknown, Prog.check_true_bind]
  dsimp only at hdays
  generalize (foldEach _ _ _).run _ _ = out at hdays ⊢
  obtain ⟨⟨done, rest, hsplit, hfiles, hrest⟩, hreturns⟩ := hdays
  simp only [Nat.zero_add] at hrest hreturns
  have hfound : ∀ other : Stream, ∀ row r, row.dated = some r →
      inFiles other.name config.symbol row out.2.2 = inFiles other.name config.symbol row c.lake +
        if other = stream then (rowsOfDays (datedRows (c.buffers stream)) done).count r else 0 := by
    intro other row r hdated
    have hbefore := hgood.inFiles other.name config.symbol hdated
    have hafter := hfiles.inFiles other.name config.symbol hdated
    dsimp only at hbefore hafter
    rw [hafter, hbefore, writtenTo_append, List.count_append]
    congr 1
    by_cases hother : other = stream
    · rw [if_pos hother, if_pos (congrArg Stream.name hother)]
    · rw [if_neg hother, if_neg fun h => hother (name_injective h)]
      rfl
  refine ⟨⟨_, hfiles⟩, rfl, fun other hother row => ?_, ?_, ?_⟩
  · cases hdated : row.dated with
    | none => simp [inFiles, hdated]
    | some r =>
      have := hfound other row r hdated
      rwa [if_neg hother, Nat.add_zero] at this
  · unfold Saved
    rw [← hrest, ← count_rowsOfDays hsplit]
    constructor
    · intro hall
      refine ⟨fun row hrow hnone => ?_, fun r => ?_⟩
      · have hcount := hall row
        have hdated : row.dated = none := by simp [BufferRow.dated, hnone]
        simp only [inFiles, hdated, Nat.zero_add] at hcount
        exact absurd (List.count_pos_iff.mpr hrow) (by omega)
      · have hdated : (BufferRow.mk (some r.timestamp) r.fields).dated = some r := rfl
        have hcount := hall ⟨some r.timestamp, r.fields⟩
        dsimp only at hcount
        rw [hfound stream _ r hdated, if_pos rfl] at hcount
        rw [count_datedRows hdated]
        exact Nat.add_left_cancel hcount
    · rintro ⟨hdates, hall⟩ row
      cases hdated : row.dated with
      | none =>
        have hnone : row.timestamp = none := Option.map_eq_none_iff.mp hdated
        have hzero : (c.buffers stream).count row = 0 :=
          List.count_eq_zero_of_not_mem fun hrow => hdates row hrow hnone
        simp [inFiles, hdated, hzero]
      | some r =>
        show inFiles _ _ row out.2.2 = _
        rw [hfound stream row r hdated, if_pos rfl, hall, count_datedRows hdated]
  · rw [← hreturns]
    obtain ⟨r, m, lake⟩ := out
    cases r with
    | ok a => exact iff_of_true rfl ⟨a, rfl⟩
    | error e => exact iff_of_false (by rintro ⟨⟩) (by rintro ⟨_, ⟨⟩⟩)

/-- How often a row is in the files or in the buffer of a stream. -/
def held (config : CollectorConfig) (c : Collector) (stream : Stream) (row : BufferRow) : ℕ :=
  inFiles stream.name config.symbol row c.lake + (c.buffers stream).count row

/-- The writes of a flush save the rows of each stream, and one that fails at its end leaves
nothing to be written after it. -/
def WritesOut (c : Collector) (runs : Stream → WriteRun) : List Stream → Prop
  | [] => True
  | stream :: rest => Saved (c.buffers stream) (runs stream) ∧
      (Completes c runs stream → WritesOut c runs rest) ∧
      (¬ Completes c runs stream → ∀ later ∈ rest, Completes c runs later → c.buffers later = [])

variable {runs : Stream → WriteRun} {streams : List Stream}

theorem writesOut_congr {c c' : Collector}
    (h : ∀ stream ∈ streams, c'.buffers stream = c.buffers stream) :
    WritesOut c' runs streams ↔ WritesOut c runs streams := by
  induction streams with
  | nil => exact Iff.rfl
  | cons stream rest ih =>
    obtain ⟨hstream, hrest⟩ := List.forall_mem_cons.mp h
    have hcompletes : ∀ s, c'.buffers s = c.buffers s → (Completes c' runs s ↔ Completes c runs s) := by
      intro s hs
      rw [Completes, Completes, hs]
    unfold WritesOut
    rw [hstream, hcompletes stream hstream, ih hrest]
    refine and_congr_right fun _ => and_congr_right fun _ => imp_congr_right fun _ => ?_
    refine forall_congr' fun later => imp_congr_right fun hlater => ?_
    rw [hcompletes later (hrest later hlater), hrest later hlater]

/-- What a flush leaves. -/
structure FlushLeft (config : CollectorConfig) (c : Collector) (runs : Stream → WriteRun)
    (streams : List Stream) (out : Collector) : Prop where
  good : ∃ written, Good { lake := out.lake, nextId := out.nextId, written }
  others : ∀ other ∉ streams, out.buffers other = c.buffers other ∧
    ∀ row, held config out other row = held config c other row
  keeps : (∀ stream ∈ streams, (∀ row, held config out stream row = held config c stream row) ∧
    (Completes c runs stream → out.buffers stream = [])) ↔ WritesOut c runs streams

variable (config) in
/-- **A flush.** -/
theorem flush_left (runs : Stream → WriteRun) : ∀ (streams : List Stream) (c : Collector),
    streams.Nodup → (∃ written, Good { lake := c.lake, nextId := c.nextId, written }) →
    FlushLeft config c runs streams (c.flush config runs streams).2
  | [], c, _, h => by
    refine ⟨h, fun other _ => ⟨rfl, fun row => rfl⟩, iff_of_true nofun trivial⟩
  | stream :: rest, c, hnodup, h => by
    obtain ⟨hstream, hrest⟩ := List.nodup_cons.mp hnodup
    have hleft := flushStream_left config h stream (runs stream)
    obtain ⟨hgood, hbuffers, hothers, hsaved, hreturns⟩ := hleft
    unfold Collector.flush
    generalize c.flushStream config stream (runs stream) = first at *
    obtain ⟨r, c₁⟩ := first
    dsimp only at hgood hbuffers hothers hsaved hreturns
    have hself : c₁.buffers stream = [] := by rw [hbuffers, Function.update_self]
    have hother : ∀ other ≠ stream, c₁.buffers other = c.buffers other := by
      intro other hne
      rw [hbuffers, Function.update_of_ne hne]
    have hheld : ∀ other ≠ stream, ∀ row, held config c₁ other row = held config c other row := by
      intro other hne row
      rw [held, held, hothers other hne, hother other hne]
    -- the flush holds the rows of its stream if it saves them
    have hkept : (∀ row, held config c₁ stream row = held config c stream row) ↔
        Saved (c.buffers stream) (runs stream) := by
      rw [← hsaved]
      simp only [held, hself, List.count_nil, Nat.add_zero]
    have hne : ∀ later ∈ rest, later ≠ stream := fun later hlater heq => hstream (heq ▸ hlater)
    cases r with
    | error e =>
      have hfails : ¬ Completes c runs stream := fun hall => nomatch hreturns.mpr hall
      refine ⟨hgood, fun other hother' => ?_, ?_⟩
      · have hne' := List.ne_of_not_mem_cons hother'
        exact ⟨hother other hne', hheld other hne'⟩
      · unfold WritesOut
        rw [List.forall_mem_cons, hkept]
        simp only [hfails, false_imp_iff, and_true, not_false_eq_true, true_and, true_imp_iff]
        refine and_congr_right fun _ => forall_congr' fun later => imp_congr_right fun hlater => ?_
        rw [hother later (hne later hlater)]
        exact and_iff_right (hheld later (hne later hlater))
    | ok u =>
      have hcompletes : Completes c runs stream := hreturns.mp rfl
      obtain ⟨hgood₂, hothers₂, hkeeps₂⟩ := flush_left runs rest _ hrest hgood
      obtain ⟨hbuffer₂, hheld₂⟩ := hothers₂ stream hstream
      have hcong : ∀ later ∈ rest, c₁.buffers later = c.buffers later :=
        fun later hlater => hother later (hne later hlater)
      dsimp only
      refine ⟨hgood₂, fun other hother' => ?_, ?_⟩
      · rw [List.mem_cons, not_or] at hother'
        obtain ⟨hne', hnot⟩ := hother'
        obtain ⟨hbuffer, hheld'⟩ := hothers₂ other hnot
        exact ⟨hbuffer.trans (hother other hne'), fun row => (hheld' row).trans (hheld other hne' row)⟩
      · unfold WritesOut
        rw [List.forall_mem_cons, ← writesOut_congr hcong, ← hkeeps₂]
        simp only [hcompletes, true_imp_iff, not_true_eq_false, false_imp_iff, and_true, hheld₂, hkept,
          hbuffer₂, hself]
        refine and_congr_right fun _ => forall_congr' fun later => imp_congr_right fun hlater => ?_
        simp only [hheld later (hne later hlater), Completes, hcong later hlater]

/-! ## Runs -/

/-- A collector, and all rows that were appended to its buffers. -/
structure Watched where
  collector : Collector
  received : Stream → List BufferRow

namespace Watched

variable (config : CollectorConfig)

def step (s : Watched) (input : Input) : Watched where
  collector := s.collector.step config input
  received stream := s.received stream ++ input.1.appended config s.collector stream

/-- A collector that starts on a lake at a time. -/
def start {w : World Fields} (_ : Good w) (clock : Stream → ℚ) : Watched where
  collector := { book := {}, buffers := fun _ => [], lastFlush := clock, lake := w.lake
                 nextId := w.nextId }
  received _ := []

/-- Each row that was appended is in one file more than there were, or in its buffer. -/
def Kept (lake : Lake Fields) (s : Watched) : Prop :=
  ∀ stream row, held config s.collector stream row =
    inFiles stream.name config.symbol row lake + (s.received stream).count row

/-- No row is lost, and a flush of all streams writes those of which no operation fails. -/
structure KeepsRows (lake : Lake Fields) (s : Watched) (input : Input) : Prop where
  kept : Kept config lake (s.step config input)
  flushed : input.1 = .flushAll → ∀ stream, Completes s.collector input.2 stream →
    (s.step config input).collector.buffers stream = []

/-- The condition on the writes of a step. -/
def WritesOut (s : Watched) (input : Input) : Prop :=
  Micro.WritesOut (input.1.receive config s.collector) input.2 (input.1.flushes config s.collector)

end Watched

theorem nodup_flushes (config : CollectorConfig) (c : Collector) (e : CollectorEvent) :
    (e.flushes config c).Nodup := by
  unfold CollectorEvent.flushes
  cases e with
  | flush stream => exact List.nodup_singleton stream
  | flushAll => exact (by decide : allStreams.Nodup)
  | _ =>
    dsimp only
    split
    · exact List.nodup_nil
    · split
      · exact List.nodup_singleton _
      · exact List.nodup_nil

/-- A flush of one stream empties its buffer. -/
theorem flush_single {stream : Stream}
    (h : streams = [stream]) : (c.flush config runs streams).2.buffers stream = [] := by
  have hempty : (c.flushStream config stream (runs stream)).2.buffers stream = [] := by
    unfold Collector.flushStream
    dsimp only
    split
    · exact Function.update_self ..
    · exact Function.update_self ..
  rw [h, Collector.flush]
  split
  · next heq =>
    rw [heq] at hempty
    exact hempty
  · next heq =>
    rw [heq] at hempty
    exact hempty

theorem flushes_cases (config : CollectorConfig) (c : Collector) (e : CollectorEvent) :
    e = .flushAll ∨ e.flushes config c = [] ∨ ∃ stream, e.flushes config c = [stream] := by
  unfold CollectorEvent.flushes
  cases e with
  | flush stream => exact .inr (.inr ⟨stream, rfl⟩)
  | flushAll => exact .inl rfl
  | _ =>
    refine .inr ?_
    dsimp only
    split
    · exact .inl rfl
    · split
      · exact .inr ⟨_, rfl⟩
      · exact .inl rfl

/-- What the steps keep. -/
structure Collecting (config : CollectorConfig) (lake : Lake Fields) (s : Watched) : Prop where
  good : ∃ written, Good { lake := s.collector.lake, nextId := s.collector.nextId, written }
  kept : s.Kept config lake

variable {lake : Lake Fields} {s : Watched}

/-- **A step.** -/
theorem keepsRows_step (h : Collecting config lake s)
    (input : Input) : s.KeepsRows config lake input ↔ s.WritesOut config input := by
  obtain ⟨e, runs⟩ := input
  obtain ⟨hgood, hkept⟩ := h
  have hleft := flush_left config runs
    (e.flushes config s.collector) (e.receive config s.collector)
    (nodup_flushes config s.collector e) hgood
  have hreceived : ∀ stream row, held config (e.receive config s.collector) stream row =
      inFiles stream.name config.symbol row lake +
        (s.received stream ++ e.appended config s.collector stream).count row := by
    intro stream row
    have := hkept stream row
    unfold held at this ⊢
    show inFiles _ _ row s.collector.lake + (s.collector.buffers stream ++ _).count row = _
    rw [List.count_append, List.count_append, ← Nat.add_assoc, this, Nat.add_assoc]
  have hall : e = .flushAll → (e.receive config s.collector).buffers = s.collector.buffers := by
    rintro rfl
    funext stream
    show s.collector.buffers stream ++ _ = _
    simp [CollectorEvent.appended, CollectorEvent.received]
  unfold Watched.WritesOut
  rw [← hleft.keeps]
  constructor
  · rintro ⟨hkeeps, hflushed⟩ stream hstream
    refine ⟨fun row => (hkeeps stream row).trans (hreceived stream row).symm, fun hcompletes => ?_⟩
    rcases flushes_cases config s.collector e with heq | hnil | ⟨single, hsingle⟩
    · refine hflushed heq stream ?_
      rwa [Completes, hall heq] at hcompletes
    · rw [hnil] at hstream
      exact absurd hstream List.not_mem_nil
    · rw [hsingle, List.mem_singleton] at hstream
      subst hstream
      exact flush_single hsingle
  · intro hkeeps
    refine ⟨fun stream row => ?_, fun heq stream hcompletes => ?_⟩
    · by_cases hstream : stream ∈ e.flushes config s.collector
      · exact ((hkeeps stream hstream).1 row).trans (hreceived stream row)
      · exact ((hleft.others stream hstream).2 row).trans (hreceived stream row)
    · have hstream : stream ∈ e.flushes config s.collector := by
        rw [show e = .flushAll from heq]
        show stream ∈ allStreams
        cases stream <;> simp [allStreams]
      refine (hkeeps stream hstream).2 ?_
      rw [Completes, hall heq]
      exact hcompletes

theorem Collecting.step (h : Collecting config lake s)
    (input : Input) (hkeeps : s.KeepsRows config lake input) :
    Collecting config lake (s.step config input) :=
  have hleft := flush_left config input.2
    (input.1.flushes config s.collector) (input.1.receive config s.collector)
    (nodup_flushes config s.collector input.1) h.good
  ⟨hleft.good, hkeeps.kept⟩

/-- **The collector loses no row**, and a write that fails does not keep the others from being
flushed, in a run of callbacks and flushes, if and only if no operation of a write fails before the
last of its files has its name, all rows that are flushed have a timestamp, and after a write that
fails there is nothing left to be written. -/
theorem keepsRows_iff (config : CollectorConfig) (w : World Fields) (h : Good w)
    (clock : Stream → ℚ) (inputs : List Input) :
    Runs.Meets (Watched.step config) (Watched.KeepsRows config w.lake) (Watched.start h clock) inputs ↔
      Runs.Meets (Watched.step config) (Watched.WritesOut config) (Watched.start h clock) inputs :=
  Runs.meets_congr (fun s input hs hkeeps => hs.step input hkeeps)
    (fun s input hs => keepsRows_step hs input) inputs
    ⟨⟨w.written, h⟩, fun stream row => by simp [held, Watched.start]⟩

section Sample

def sampleCollector : CollectorConfig := { symbol := "BTCUSDT" }

def sampleTrade : TapeEntry := ⟨some 5, some "BTCUSDT", some 100, some 1, some "Buy", some "abc"⟩

/-- A write of which the first operation fails, or none. -/
def sampleWrite (fails : Bool) : WriteRun where
  clock := 1
  answers _ := sampleAnswers
  faults k := if fails = true ∧ k = 0 then some 0 else none

/-- A trade, and the flush at the end. -/
def sampleInputs (fails : Stream → Bool) : List Input :=
  [(.onTradeMessage [sampleTrade] 1, fun stream => sampleWrite (fails stream)),
   (.flushAll, fun stream => sampleWrite (fails stream))]

theorem keepsRows_sample : Runs.Meets (Watched.step sampleCollector)
    (Watched.KeepsRows sampleCollector World.empty.lake) (Watched.start good_empty fun _ => 0)
    (sampleInputs fun _ => false) := by
  refine (keepsRows_iff sampleCollector World.empty good_empty (fun _ => 0) _).mpr ?_
  have hflushes : CollectorEvent.flushes sampleCollector
      (Watched.start (good_empty (ρ := Fields)) fun _ => 0).collector
      (.onTradeMessage [sampleTrade] 1) = [] := by decide +kernel
  have hbuffers : ∀ stream, ∀ row ∈ ((CollectorEvent.flushAll).receive sampleCollector
      ((Watched.start good_empty fun _ => 0).step sampleCollector
        (.onTradeMessage [sampleTrade] 1, fun _ => sampleWrite false)).collector).buffers stream,
      row.timestamp ≠ none := by
    intro stream
    cases stream <;> decide +kernel
  have hnone : ∀ k, (sampleWrite false).faults k = none := fun k => by simp [sampleWrite]
  refine ⟨by unfold Watched.WritesOut; rw [hflushes]; trivial, ?_, trivial⟩
  refine ⟨⟨hbuffers _, fun k _ => hnone k⟩, fun _ => ⟨⟨hbuffers _, fun k _ => hnone k⟩, fun _ =>
    ⟨⟨hbuffers _, fun k _ => hnone k⟩, fun _ => trivial, ?_⟩, ?_⟩, ?_⟩
  all_goals exact fun hfails => absurd (fun k _ => hnone k) hfails

/-- The row of a write that fails is lost. -/
theorem failing_write_loses : ¬ ∀ (config : CollectorConfig) (w : World Fields) (h : Good w)
    (clock : Stream → ℚ) (inputs : List Input),
    Runs.Meets (Watched.step config) (Watched.KeepsRows config w.lake) (Watched.start h clock) inputs := by
  intro hall
  have hlost := (hall sampleCollector World.empty good_empty (fun _ => 0)
    (sampleInputs fun stream => decide (stream = .trades))).2.1.kept .trades
      ⟨some 5000000, .trade ⟨"BTCUSDT", 100, 1, "Buy", "abc"⟩⟩
  exact absurd hlost (by decide +kernel)

end Sample

end Greenfield.Data.Micro
