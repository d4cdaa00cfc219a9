import Greenfield.Data.CompactionStages

/-!
# What is read after compactions

A run of batches and compactions, each compaction stopped after any of its operations or not at
all. What the reader returns is exact in all states if and only if no merge was stopped between
the creation of its temporary and the removal of its last source (`compaction_exact_iff`).
-/

namespace Greenfield.Data.Micro

open Effects Files Py

variable {ρ : Type} [DecidableEq ρ] {w : World ρ}

/-! ## All directories -/

/-- The stop after `n` operations is not within a merge. -/
def CleanStops (isDir : Directory → Bool) (sources : Directory → Nat) (today : Int) :
    List Directory → Nat → Prop
  | [], _ => True
  | d :: ds, n =>
    if d.day = today then CleanStops isDir sources today ds n
    else CleanAt (isDir d) (sources d) n ∧ (operations (isDir d) (sources d) < n →
      CleanStops isDir sources today ds (n - operations (isDir d) (sources d)))

/-- How many files the merge of a directory would have. -/
def sourcesIn (lake : Lake ρ) (directory : Directory) : Nat :=
  (smallFiles directory lake.paths).length

omit [DecidableEq ρ] in
theorem cleanStops_congr {isDir : Directory → Bool} {sources sources' : Directory → Nat}
    {today : Int} : ∀ {ds : List Directory} {n : Nat}, (∀ d ∈ ds, sources d = sources' d) →
      (CleanStops isDir sources today ds n ↔ CleanStops isDir sources' today ds n)
  | [], _, _ => Iff.rfl
  | d :: ds, n, h => by
    obtain ⟨hd, hds⟩ := List.forall_mem_cons.mp h
    unfold CleanStops
    rw [hd]
    split
    · exact cleanStops_congr hds
    · exact and_congr_right fun _ => imp_congr_right fun _ => cleanStops_congr hds

section All

variable (answers : (o : Query) → Answer o) {today : Int} {id nextId : Nat}

/-- A compaction of a good lake, as one directory of all. -/
theorem Good.compactNext (h : Good w) {results : List CompactionResult} {directory : Directory}
    (hid : w.nextId ≤ id + 2 * results.length) (htoday : directory.day ≠ today) :
    ∃ result lake, (Micro.compactNext today id results directory).run (answer answers) w.lake =
        (.ok (results ++ [result]), lake) ∧
      Good { w with lake, nextId := id + 2 * results.length + 2 } ∧
      (Micro.compactNext today id results directory).count (answer answers) w.lake =
        operations (answers (.isDir directory)) (sourcesIn w.lake directory) ∧
      (∀ other, other ≠ directory → sourcesIn lake other = sourcesIn w.lake other) ∧
      ∀ n, stopped (answer answers) n (Micro.compactNext today id results directory) w.lake =
        stopped (answer answers) n (Micro.compactDay directory (id + 2 * results.length)
          (id + 2 * results.length + 1)) w.lake := by
  obtain ⟨result, lake, hrun, hcount, hothers⟩ := h.compactDay_done answers directory hid
    (Nat.lt_succ_self _)
  have hdone := (h.compactDay answers directory _ hid (Nat.lt_succ_self _)
    (Nat.lt_succ_self _)).done
  rw [hrun] at hdone
  unfold Micro.compactNext
  rw [if_neg htoday]
  refine ⟨result, lake, ?_, hdone, ?_, fun other hother => ?_, fun n => ?_⟩
  · rw [Prog.run_bind, Prog.run_attempt, hrun]
    rfl
  · rw [Prog.count_bind, Prog.count_attempt, Prog.run_attempt, hrun, hcount]
    rfl
  · unfold sourcesIn
    rw [hothers other hother]
  · rw [stopped_bind, stopped_attempt, Prog.count_attempt, Prog.run_attempt]
    split
    · rfl
    · next hn =>
      rw [stopped_of_count_le (Nat.le_of_not_le hn), hrun]
      exact stopped_ret _ _ _

variable {directories : List Directory}

theorem Good.compactFrom :
    ∀ {w : World ρ} {results : List CompactionResult}, Good w →
      w.nextId ≤ id + 2 * results.length →
      id + 2 * results.length + 2 * directories.length ≤ nextId → directories.Nodup →
      Outcome answers w nextId (foldEach (Micro.compactNext today id) results directories)
        (CleanStops (fun d => answers (.isDir d)) (sourcesIn w.lake) today directories) := by
  induction directories with
  | nil =>
    intro w results h hid hnext _
    have hlater : Good { w with nextId } := h.later (hid.trans (by omega))
    refine ⟨hlater, fun n _ => ?_, fun n hn => absurd trivial hn⟩
    rw [foldEach, stopped_ret]
    exact hlater
  | cons d ds ih =>
    intro w results h hid hnext hnodup
    rw [List.length_cons] at hnext
    obtain ⟨hd, hds⟩ := List.nodup_cons.mp hnodup
    by_cases htoday : d.day = today
    · have hskip : foldEach (Micro.compactNext (ρ := ρ) today id) results (d :: ds) =
          foldEach (Micro.compactNext today id) results ds := by
        rw [foldEach, Micro.compactNext, if_pos htoday]
        rfl
      rw [hskip]
      simp only [CleanStops, if_pos htoday]
      exact ih h hid (by omega) hds
    obtain ⟨result, lake, hrun, hgood, hcount, hothers, hstop⟩ := h.compactNext answers hid htoday
    have hday := h.compactDay answers d nextId hid (Nat.lt_succ_self _)
      (by omega)
    have hsame : ∀ d' ∈ ds, sourcesIn lake d' = sourcesIn w.lake d' :=
      fun d' hd' => hothers d' fun heq => hd (heq ▸ hd')
    have hrest := @ih _ (results ++ [result]) hgood (by simp; omega) (by simp; omega) hds
    refine ⟨?_, fun n hn => ?_, fun n hn => ?_⟩
    · rw [foldEach, Prog.run_bind, hrun]
      exact hrest.done
    · rw [CleanStops, if_neg htoday] at hn
      rw [foldEach, stopped_bind, hcount, hrun]
      split
      · rw [hstop]
        exact hday.good n hn.1
      · next hlater =>
        exact hrest.good _ ((cleanStops_congr hsame).mpr (hn.2 (Nat.lt_of_not_le hlater)))
    · rw [CleanStops, if_neg htoday] at hn
      rw [foldEach, stopped_bind, hcount, hrun]
      split
      · next hn' =>
        rw [hstop]
        exact hday.torn n fun hclean => hn ⟨hclean, fun hlater => absurd hn' (Nat.not_le.mpr hlater)⟩
      · next hlater =>
        refine hrest.torn _ fun hclean => hn ⟨?_, fun _ => (cleanStops_congr hsame).mp hclean⟩
        unfold CleanAt
        unfold operations at hlater
        split at hlater
        · next hdir => exact .inl hdir
        · split at hlater
          · next hfew => exact .inr (.inl hfew)
          · exact .inr (.inr (.inr (by omega)))

/-- **All directories**, each of which is compacted once. -/
theorem Good.compactAll (h : Good w) (hnodup : directories.Nodup) :
    Outcome answers w (w.nextId + 2 * directories.length)
      (Micro.compactAll directories today w.nextId)
      (CleanStops (fun d => answers (.isDir d)) (sourcesIn w.lake) today directories) :=
  Good.compactFrom answers h (Nat.le_refl _) (Nat.le_refl _) hnodup

end All

/-! ## Batches -/

section Batch

variable (answers : (o : Query) → Answer o) {stream symbol : String} {rows : List (Row ρ)}

omit [DecidableEq ρ] in
/-- What the group of a day leaves. -/
theorem run_writeGroup {lake : Lake ρ} {id : Nat} {day : Int}
    (htemp : lake.read (⟨stream, symbol, day⟩, .batchTemp (answers .timeNs) id (id + 1)) = none) :
    (writeGroup stream symbol rows id day).run (answer answers) lake = (.ok (id + 2),
      lake.put (⟨stream, symbol, day⟩, .batch (answers .timeNs) id)
        (parquet (rows.filter fun r => r.day = day))) := by
  have hreplaced : ((lake.put (⟨stream, symbol, day⟩, .batchTemp (answers .timeNs) id (id + 1))
      (parquet (rows.filter fun r => r.day = day))).remove
        (⟨stream, symbol, day⟩, .batchTemp (answers .timeNs) id (id + 1))) = lake := by
    rw [Store.remove_put, Store.remove_absent htemp]
  have hgone : ∀ c, (lake.put (⟨stream, symbol, day⟩, .batch (answers .timeNs) id) c).read
      (⟨stream, symbol, day⟩, .batchTemp (answers .timeNs) id (id + 1)) = none := by
    intro c
    rw [Store.read_put, if_neg (by simp), htemp]
  unfold writeGroup
  simp only [Prog.run_bind, Prog.run_perform, Prog.run_attempt, (run_toParquet answers _ _ _).1,
    handle, Store.read_put, if_true, hreplaced, Bool.true_or, Prog.lift, Prog.run,
    Store.remove_absent (hgone _)]

/-- A good lake with one more file, of rows that are written with it. -/
theorem Good.put (h : Good w) (directory : Directory) (name : FileName) (nextId : Nat)
    (hstream : directory.stream ∈ streams) (hname : name.isParquet = true)
    (hmerge : ∀ id, name ≠ .mergeTemp id) (hid : w.nextId ≤ nextId)
    (hids : ∀ id ∈ name.ids, id < nextId) (hfresh : w.lake.read (directory, name) = none)
    (hne : rows ≠ []) (hdays : ∀ r ∈ rows, r.day = directory.day) :
    Good { lake := w.lake.put (directory, name) (parquet rows), nextId
           written := w.written ++ rows.map (Prod.mk (directory.stream, directory.symbol)) } := by
  have hcases : ∀ p c, (w.lake.put (directory, name) (parquet rows)).read p = some c →
      (p = (directory, name) ∧ c = parquet rows) ∨ w.lake.read p = some c := by
    intro p c hc
    rw [Store.read_put] at hc
    split at hc
    · next hp => exact .inl ⟨hp, (Option.some.inj hc).symm⟩
    · exact .inr hc
  refine ⟨fun p c hc hvisible => ?_, fun p c hc => ?_, fun p c hc id hmem => ?_, fun other r => ?_⟩
  · rcases hcases p c hc with ⟨rfl, rfl⟩ | hold
    · exact ⟨hmerge, rows, hne, rfl, hdays⟩
    · exact h.whole p c hold hvisible
  · rcases hcases p c hc with ⟨rfl, rfl⟩ | hold
    · exact hstream
    · exact h.known p c hold
  · rcases hcases p c hc with ⟨rfl, rfl⟩ | hold
    · exact hids id hmem
    · exact (h.ids p c hold id hmem).trans_le hid
  · have hnone : ¬ r.day = directory.day → rows.count r = 0 := by
      intro hday
      exact List.count_eq_zero_of_not_mem fun hr => hday (hdays r hr)
    rw [tally_put hfresh, weight_parquet other r name hname, h.counts]
    unfold World.writtenTo
    rw [List.filter_append, List.map_append, List.count_append, List.filter_map, List.map_map]
    obtain ⟨stream, symbol, day⟩ := directory
    obtain ⟨stream', symbol', day'⟩ := other
    by_cases hkey : (stream, symbol) = (stream', symbol')
    · obtain ⟨rfl, rfl⟩ := Prod.mk.inj hkey
      have hall : rows.filter ((fun x => decide (x.1 = (stream, symbol))) ∘
          Prod.mk (stream, symbol)) = rows := List.filter_eq_self.mpr fun r _ => by simp
      rw [hall]
      have hmap : rows.map (Prod.snd ∘ Prod.mk (stream, symbol)) = rows := List.map_id _
      rw [hmap]
      by_cases hday : r.day = day'
      · by_cases hsame : day' = day
        · simp [hday, hsame]
        · rw [if_pos hday, if_neg (by simp [hsame]), if_pos hday, hnone (hday ▸ hsame)]
      · by_cases hsame : day' = day
        · rw [if_neg hday, if_pos (by simp [hsame]), if_neg hday, hnone (hsame ▸ hday)]
        · simp [hday, hsame]
    · have hnil : rows.filter ((fun x => decide (x.1 = (stream', symbol'))) ∘
          Prod.mk (stream, symbol)) = [] := List.filter_eq_nil_iff.mpr fun r _ => by simpa using hkey
      have hother : ¬ (⟨stream', symbol', day'⟩ : Directory) = ⟨stream, symbol, day⟩ := by
        rintro ⟨⟩
        exact hkey rfl
      rw [hnil, if_neg hother]
      rfl

theorem Good.writeDays (symbol : String) (hstream : stream ∈ streams) :
    ∀ (days : List Int) {w : World ρ}, Good w →
      (∀ day ∈ days, (rows.filter fun r => r.day = day) ≠ []) →
      ∃ lake, (foldEach (writeGroup stream symbol rows) w.nextId days).run (answer answers) w.lake =
          (.ok (w.nextId + 2 * days.length), lake) ∧
        Good { lake, nextId := w.nextId + 2 * days.length
               written := w.written ++ (days.flatMap fun day =>
                 rows.filter fun r => r.day = day).map (Prod.mk (stream, symbol)) }
  | [], w, h, _ => by
    refine ⟨w.lake, rfl, ?_⟩
    rw [List.flatMap_nil, List.map_nil, List.append_nil]
    exact h
  | day :: days, w, h, hne => by
    obtain ⟨hday, hdays⟩ := List.forall_mem_cons.mp hne
    have htemp : w.lake.read (⟨stream, symbol, day⟩,
        .batchTemp (answers .timeNs) w.nextId (w.nextId + 1)) = none :=
      h.fresh (Nat.le_refl _) List.mem_cons_self
    have hgroup := h.put ⟨stream, symbol, day⟩ (.batch (answers .timeNs) w.nextId) (w.nextId + 2)
      hstream rfl (fun _ => FileName.noConfusion) (Nat.le_add_right _ _)
      (fun id hid => by rw [List.mem_singleton.mp hid]; omega)
      (h.fresh (Nat.le_refl _) List.mem_cons_self) hday
      (fun r hr => of_decide_eq_true (List.mem_filter.mp hr).2)
    obtain ⟨lake, hrun, hgood⟩ := Good.writeDays symbol hstream days hgroup hdays
    refine ⟨lake, ?_, ?_⟩
    · rw [foldEach, Prog.run_bind, run_writeGroup answers htemp]
      dsimp only
      rw [hrun, List.length_cons, Nat.mul_succ, Nat.add_assoc, Nat.add_comm 2]
    · rw [List.flatMap_cons, List.map_append, ← List.append_assoc, List.length_cons, Nat.mul_succ,
        Nat.add_comm _ 2, ← Nat.add_assoc]
      exact hgood

/-- The groups of the days have every row once. -/
theorem count_groups (rows : List (Row ρ)) (r : Row ρ) :
    ((daysOf rows).flatMap fun day => rows.filter fun r => r.day = day).count r = rows.count r := by
  have hnodup : (daysOf rows).Nodup :=
    (List.perm_insertionSort _ _).nodup_iff.mpr (List.nodup_dedup _)
  have hmem : ∀ day, day ∈ daysOf rows ↔ day ∈ rows.map Row.day := by
    intro day
    unfold daysOf sorted
    rw [(List.perm_insertionSort _ _).mem_iff, List.mem_dedup]
  rw [List.flatMap_def, List.count_flatten, List.map_map]
  by_cases hr : r ∈ rows
  · refine Eq.trans (congrArg List.sum (List.map_congr_left fun day _ => ?_))
      (sum_of_day hnodup ((hmem r.day).mpr (List.mem_map_of_mem hr)) _)
    show (rows.filter fun r => r.day = day).count r = _
    split
    · next hday => exact List.count_filter (by simpa using hday)
    · next hday =>
      refine List.count_eq_zero_of_not_mem fun hmem => hday ?_
      exact of_decide_eq_true (List.mem_filter.mp hmem).2
  · rw [List.count_eq_zero_of_not_mem hr]
    refine List.sum_eq_zero fun n hn => ?_
    obtain ⟨day, -, rfl⟩ := List.mem_map.mp hn
    exact List.count_eq_zero_of_not_mem fun hmem => hr (List.mem_filter.mp hmem).1

/-- Only how often a row was written counts. -/
theorem Good.congr (h : Good w) {written : List ((String × String) × Row ρ)}
    (hwritten : written.Perm w.written) : Good { w with written } := by
  refine ⟨h.whole, h.known, h.ids, fun directory r => ?_⟩
  show tally directory r w.lake = _
  rw [h.counts directory r]
  unfold World.writtenTo
  rw [((hwritten.filter _).map _).count_eq]

/-- **A batch** of rows of a stream that is known. -/
theorem Good.writeBatch (h : Good w) (hstream : stream ∈ streams) :
    Good { lake := ((Micro.writeBatch stream symbol rows w.nextId).run (answer answers) w.lake).2
           nextId := w.nextId + 2 * (daysOf rows).length
           written := w.written ++ rows.map (Prod.mk (stream, symbol)) } := by
  have hgroups : ∀ day ∈ daysOf rows, (rows.filter fun r => r.day = day) ≠ [] := by
    intro day hday
    unfold daysOf sorted at hday
    rw [(List.perm_insertionSort _ _).mem_iff, List.mem_dedup] at hday
    obtain ⟨r, hr, rfl⟩ := List.mem_map.mp hday
    exact List.ne_nil_of_mem (List.mem_filter.mpr ⟨hr, decide_eq_true rfl⟩)
  obtain ⟨lake, hrun, hgood⟩ := h.writeDays answers symbol hstream (daysOf rows) hgroups
  have hknown : streams.contains stream = true := by simpa using hstream
  unfold Micro.writeBatch
  rw [hknown, Prog.check_true_bind, hrun]
  refine hgood.congr ((List.Perm.append_left _ ?_))
  exact (List.perm_iff_count.mpr fun r => (count_groups rows r).symm).map _

end Batch

/-! ## Runs -/

/-- A call of the program; a compaction can be stopped after some of its operations. -/
inductive Call (ρ : Type) where
  | writeBatch (answers : (o : Query) → Answer o) (stream symbol : String) (rows : List (Row ρ))
  | compactDay (answers : (o : Query) → Answer o) (directory : Directory) (stop : Option Nat)
  | compactAll (answers : (o : Query) → Answer o) (directories : List Directory)
      (nodup : directories.Nodup) (today : Int) (stop : Option Nat)

/-- What a program leaves that may be stopped. -/
def leaves {α : Type} (answers : (o : Query) → Answer o) (stop : Option Nat) (p : FileProg ρ α)
    (lake : Lake ρ) : Lake ρ :=
  match stop with
  | some n => stopped (answer answers) n p lake
  | none => (p.run (answer answers) lake).2

namespace World

def empty : World ρ := ⟨⟨[], List.nodup_nil⟩, 0, []⟩

def step (w : World ρ) : Call ρ → World ρ
  | .writeBatch answers stream symbol rows =>
    { lake := ((Micro.writeBatch stream symbol rows w.nextId).run (answer answers) w.lake).2
      nextId := w.nextId + 2 * (daysOf rows).length
      written := if stream ∈ streams then w.written ++ rows.map (Prod.mk (stream, symbol))
        else w.written }
  | .compactDay answers directory stop =>
    { w with
      lake := leaves answers stop (Micro.compactDay directory w.nextId (w.nextId + 1)) w.lake
      nextId := w.nextId + 2 }
  | .compactAll answers directories _ today stop =>
    { w with
      lake := leaves answers stop (Micro.compactAll directories today w.nextId) w.lake
      nextId := w.nextId + 2 * directories.length }

/-- No merge is stopped after its temporary is created and before its last source is removed. -/
def Clean (w : World ρ) : Call ρ → Prop
  | .writeBatch .. => True
  | .compactDay answers directory stop =>
    ∀ n ∈ stop, CleanAt (answers (.isDir directory)) (sourcesIn w.lake directory) n
  | .compactAll answers directories _ today stop =>
    ∀ n ∈ stop, CleanStops (fun d => answers (.isDir d)) (sourcesIn w.lake) today directories n

end World

/-- A call with this outcome leaves a lake that is good, or one that is not read exactly. -/
theorem Outcome.leaves {α : Type} {answers : (o : Query) → Answer o} {nextId : Nat}
    {p : FileProg ρ α} {clean : Nat → Prop} (h : Outcome answers w nextId p clean)
    (stop : Option Nat) :
    ((∀ n ∈ stop, clean n) → Good { w with lake := Micro.leaves answers stop p w.lake, nextId }) ∧
      (World.Exact { w with lake := Micro.leaves answers stop p w.lake, nextId } →
        ∀ n ∈ stop, clean n) := by
  cases stop with
  | none => exact ⟨fun _ => h.done, fun _ n hn => by cases hn⟩
  | some n =>
    refine ⟨fun hclean => h.good n (hclean n rfl), fun hexact m hm => ?_⟩
    cases hm
    by_contra htorn
    exact h.torn n htorn hexact

/-- **What a call leaves** of a good lake. -/
theorem Good.step (h : Good w) (call : Call ρ) :
    (w.Clean call → Good (w.step call)) ∧ ((w.step call).Exact → w.Clean call) := by
  cases call with
  | writeBatch answers stream symbol rows =>
    refine ⟨fun _ => ?_, fun _ => trivial⟩
    dsimp only [World.step]
    by_cases hstream : stream ∈ streams
    · rw [if_pos hstream]
      exact h.writeBatch answers hstream
    · have hunknown : streams.contains stream = false := by simpa using hstream
      rw [if_neg hstream, Micro.writeBatch, hunknown]
      exact h.later (Nat.le_add_right _ _)
  | compactDay answers directory stop =>
    exact (h.compactDay answers _ _ (Nat.le_refl _) (Nat.lt_succ_self _) (Nat.lt_succ_self _)).leaves stop
  | compactAll answers directories hnodup today stop =>
    exact (h.compactAll answers hnodup).leaves stop

theorem good_empty : Good (World.empty : World ρ) := by
  refine ⟨fun p c hc => ?_, fun p c hc => ?_, fun p c hc => ?_, fun directory r => ?_⟩
  · cases hc
  · cases hc
  · cases hc
  · split <;> rfl

/-- **Readers see what was written**, in every state of a run of batches and compactions that
can be stopped, if and only if no merge is stopped after its temporary is created and before its
last source is removed. -/
theorem compaction_exact_iff (calls : List (Call ρ)) :
    Runs.Always World.step World.Exact World.empty calls ↔
      Runs.Meets World.step World.Clean World.empty calls := by
  have hkeep : ∀ (w : World ρ) call, Good w → w.Clean call → Good (w.step call) :=
    fun _ call h => (h.step call).1
  have hstep : ∀ (w : World ρ) call, Good w → w.Exact → ((w.step call).Exact ↔ w.Clean call) :=
    fun _ call h _ => ⟨(h.step call).2, fun hclean => ((h.step call).1 hclean).exact⟩
  exact Runs.always_iff_meets_of hkeep hstep calls good_empty good_empty.exact

section Sample

def sampleAnswers : (o : Query) → Answer o
  | .isDir _ => true
  | .timeNs => (0 : Nat)

/-- Two batches of a day, whose merge is stopped after it was renamed, and a later merge. -/
def sampleCalls : List (Call Unit) :=
  [.writeBatch sampleAnswers "trades" "BTCUSDT" [⟨1, ()⟩],
   .writeBatch sampleAnswers "trades" "BTCUSDT" [⟨2, ()⟩],
   .compactDay sampleAnswers ⟨"trades", "BTCUSDT", 0⟩ (some 9),
   .compactDay sampleAnswers ⟨"trades", "BTCUSDT", 0⟩ none]

theorem readRange_sampleCalls :
    readRange (Runs.run World.step World.empty sampleCalls).lake "trades" "BTCUSDT" 0 9 =
      .ok [⟨1, ()⟩, ⟨1, ()⟩, ⟨2, ()⟩, ⟨2, ()⟩] := by
  rfl

/-- The rows are there twice, also after the later merge. -/
theorem compaction_duplicates :
    ¬ (Runs.run World.step World.empty sampleCalls).Exact := by
  intro h
  obtain ⟨rows, hread, hperm⟩ := h "trades" (by decide) "BTCUSDT" 0 9
  rw [readRange_sampleCalls] at hread
  cases hread
  exact absurd hperm.length_eq (by decide)

end Sample

end Greenfield.Data.Micro
