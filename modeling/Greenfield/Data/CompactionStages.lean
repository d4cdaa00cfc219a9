import Greenfield.Data.CompactionReads

/-!
# Where a compaction is stopped

What a merge leaves after each of its operations (`mergeFiles_stages`). The reader sees its
temporary, and the merged file beside its sources, so a compaction of a good lake leaves one that
is not read exactly where it is stopped between the creation of the temporary and the last removal
(`Good.compactDay`).
-/

namespace Greenfield.Data.Micro

open Effects Files Py

variable {ρ : Type} [DecidableEq ρ] {w : World ρ}

/-! ## The stages of a merge -/

section Stages

variable (answers : (o : Query) → Answer o) {lake : Lake ρ}

/-- The operations as they are answered, when none fails. -/
abbrev answer :
    (o : Files.Op Path (Piece ρ) Query) → Lake ρ →
      Except PyError (Res Path (Piece ρ) Answer o) × Lake ρ :=
  handle PyError.osError answers

omit [DecidableEq ρ] in
/-- What `to_parquet` leaves, after each of its operations. -/
theorem stopped_toParquet (n : Nat) (p : Path) (rows : List (Row ρ)) :
    stopped (answer answers) n (toParquet p rows) lake =
      if n = 0 then lake
      else if n = 1 then lake.put p []
      else if n = 2 then lake.put p (rows.map .row)
      else lake.put p (parquet rows) := by
  unfold toParquet
  simp only [stopped_bind, Prog.count_perform, stopped_perform, Prog.run_perform, handle,
    Store.read_put, if_true, Store.put_put, List.nil_append]
  rcases n with _ | _ | _ | n
  · simp
  · simp
  · simp
  · simp [parquet]

omit [DecidableEq ρ] in
theorem run_toParquet (lake : Lake ρ) (p : Path) (rows : List (Row ρ)) :
    (toParquet p rows).run (answer answers) lake = (.ok (), lake.put p (parquet rows)) ∧
      (toParquet p rows).count (answer answers) lake = 3 := by
  unfold toParquet
  constructor
  · simp [Prog.run_bind, handle, Store.put_put, parquet]
  · simp [Prog.count_bind, handle, Store.put_put]

variable {rows : List (Row ρ)}

omit [DecidableEq ρ] in
/-- A file that is complete is read, which leaves the lake. -/
theorem run_readFile {p : Path}
    (hrows : rowsOf ((lake.read p).getD []) = some rows) :
    (readFile p).run (answer answers) lake = (.ok rows, lake) ∧
      (readFile p).count (answer answers) lake = 1 ∧
      ∀ n, stopped (answer answers) n (readFile p) lake = lake := by
  cases hread : lake.read p with
  | none =>
    rw [hread] at hrows
    cases hrows
  | some c =>
    rw [hread, Option.getD_some] at hrows
    have hhandle : handle (PyError.osError : PyError) answers (.read p) lake = (.ok c, lake) := by
      simp only [handle, hread]
    have hparquet : readParquet c = .ok rows := readParquet_eq_ok.mpr hrows
    unfold readFile
    refine ⟨?_, ?_, fun n => ?_⟩
    · simp [Prog.run_bind, hhandle, hparquet, Prog.lift, Prog.run]
    · simp [Prog.count_bind, hhandle, hparquet, Prog.lift, Prog.count]
    · simp [stopped_bind, hhandle, hparquet, Prog.lift]

omit [DecidableEq ρ] in
/-- The sources are read one after the other. -/
theorem run_readAll : ∀ {sources : List Path} (frames : List (List (Row ρ))),
    (∀ p ∈ sources, ∃ rows, rowsOf ((lake.read p).getD []) = some rows) →
    (foldEach (fun frames path => do
      let rows ← readFile path
      Prog.ret (frames ++ [rows])) frames sources).run (answer answers) lake =
        (.ok (frames ++ sources.map (rowsAt lake)), lake) ∧
    (foldEach (fun frames path => do
      let rows ← readFile path
      Prog.ret (frames ++ [rows])) frames sources).count (answer answers) lake = sources.length ∧
    ∀ n, stopped (answer answers) n (foldEach (fun frames path => do
      let rows ← readFile path
      Prog.ret (frames ++ [rows])) frames sources) lake = lake
  | [], frames, _ => by
    refine ⟨?_, rfl, fun n => stopped_ret n _ lake⟩
    rw [List.map_nil, List.append_nil]
    rfl
  | p :: sources, frames, h => by
    obtain ⟨⟨rows, hrows⟩, hrest⟩ := List.forall_mem_cons.mp h
    obtain ⟨hrun, hcount, hstop⟩ := run_readFile answers hrows
    obtain ⟨hrun', hcount', hstop'⟩ := run_readAll (frames ++ [rows]) hrest
    have hat : rowsAt lake p = rows := by rw [rowsAt, hrows, Option.getD_some]
    refine ⟨?_, ?_, fun n => ?_⟩
    · rw [foldEach, Prog.run_bind, Prog.run_bind, hrun]
      simp only [Prog.run]
      rw [hrun', List.map_cons, hat, List.append_assoc, List.singleton_append]
    · rw [foldEach, Prog.count_bind, Prog.run_bind, Prog.count_bind, hrun, hcount]
      simp only [Prog.run, Prog.count]
      rw [hcount', List.length_cons]
      omega
    · rw [foldEach, stopped_bind, Prog.run_bind, stopped_bind, hrun]
      simp only [Prog.run, stopped_ret, hstop, hstop', ite_self]

omit [DecidableEq ρ] in
/-- What the removal of the sources leaves, after each of its operations. -/
theorem stopped_unlinks : ∀ (n : Nat) (sources : List Path) (lake : Lake ρ),
    stopped (answer answers) n (foldEach (fun _ path => op (.unlink path true)) () sources) lake =
      lake.removeAll (sources.take n)
  | n, [], lake => by
    rw [List.take_nil]
    exact stopped_ret n _ lake
  | 0, _ :: _, _ => stopped_zero _ _
  | n + 1, p :: sources, lake => by
    have hrest := stopped_unlinks n sources (lake.remove p)
    rw [foldEach, stopped_bind]
    simp only [Prog.count_perform, Prog.run_perform, stopped_perform, handle, Bool.true_or, if_true]
    by_cases hn : n = 0
    · rw [if_pos (by omega), if_neg (by omega), hn]
      rfl
    · rw [if_neg (by omega), Nat.add_sub_cancel, hrest]
      rfl

omit [DecidableEq ρ] in
theorem run_unlinks : ∀ (sources : List Path) (lake : Lake ρ),
    (foldEach (fun _ path => op (.unlink path true)) () sources).run (answer answers) lake =
      (.ok (), lake.removeAll sources) ∧
    (foldEach (fun _ path => op (.unlink path true)) () sources).count (answer answers) lake =
      sources.length
  | [], _ => ⟨rfl, rfl⟩
  | p :: sources, lake => by
    obtain ⟨hrun, hcount⟩ := run_unlinks sources (lake.remove p)
    constructor
    · rw [foldEach, Prog.run_bind]
      simp only [Prog.run_perform, handle, Bool.true_or, if_true]
      exact hrun
    · rw [foldEach, Prog.count_bind]
      simp only [Prog.count_perform, Prog.run_perform, handle, Bool.true_or, if_true]
      rw [hcount, List.length_cons, Nat.add_comm]

/-- The rows of the sources, in the order of their timestamps. -/
def mergedRows (lake : Lake ρ) (sources : List Path) : List (Row ρ) :=
  sorted (fun a b => decide (a.timestamp ≤ b.timestamp)) (sources.map (rowsAt lake)).flatten

omit [DecidableEq ρ] in
theorem mergedRows_perm (lake : Lake ρ) (sources : List Path) :
    (mergedRows lake sources).Perm (sources.map (rowsAt lake)).flatten :=
  List.perm_insertionSort _ _

omit [DecidableEq ρ] in
theorem rangeMismatch_self (h : rows ≠ []) : rangeMismatch rows rows = false := by
  have hmin : (rows.map Row.timestamp).min?.isSome := by simpa [List.isSome_min?_iff] using h
  have hmax : (rows.map Row.timestamp).max?.isSome := by simpa [List.isSome_max?_iff] using h
  obtain ⟨a, ha⟩ := Option.isSome_iff_exists.mp hmin
  obtain ⟨b, hb⟩ := Option.isSome_iff_exists.mp hmax
  simp [rangeMismatch, ha, hb]

variable {directory : Directory} {sources : List Path} {tmpId finalId : Nat}

omit [DecidableEq ρ] in
/-- The last part of a merge, once its file is validated. -/
theorem stopped_replace (m : Nat) {tmp final : Path} {lake' : Lake ρ} {result : CompactionResult}
    (hreplace : answer answers (.replace tmp final) lake = (.ok (), lake')) :
    stopped (answer answers) m (op (.replace tmp final) >>= fun _ =>
      foldEach (fun _ path => op (.unlink path true)) () sources >>= fun _ => Prog.ret result) lake =
      if m = 0 then lake else lake'.removeAll (sources.take (m - 1)) := by
  rw [stopped_bind]
  simp only [Prog.count_perform, Prog.run_perform, stopped_perform, hreplace]
  by_cases hzero : m = 0
  · rw [if_pos (by omega), if_pos hzero, if_pos hzero]
  · rw [if_neg hzero]
    by_cases hone : m = 1
    · rw [if_pos (by omega), if_neg hzero, hone]
      rfl
    · rw [if_neg (by omega), stopped_bind, (run_unlinks answers sources _).1,
        (run_unlinks answers sources _).2]
      simp only [stopped_ret, stopped_unlinks]
      split
      · rfl
      · next hn => rw [List.take_of_length_le (by omega)]

variable (finalId) in
omit [DecidableEq ρ] in
/-- What a merge leaves, after each of its operations and in the end. -/
theorem mergeFiles_stages
    (hread : ∀ p ∈ sources, ∃ rows, rowsOf ((lake.read p).getD []) = some rows)
    (hrows : mergedRows lake sources ≠ [])
    (htmp : lake.read (directory, .mergeTemp tmpId) = none) :
    (∃ result, (mergeFiles directory sources tmpId finalId).run (answer answers) lake =
      (.ok result, (lake.put (directory, .compacted finalId)
        (parquet (mergedRows lake sources))).removeAll sources)) ∧
    (mergeFiles directory sources tmpId finalId).count (answer answers) lake =
      2 * sources.length + 5 ∧
    ∀ n, stopped (answer answers) n (mergeFiles directory sources tmpId finalId) lake =
      if n ≤ sources.length then lake
      else if n = sources.length + 1 then lake.put (directory, .mergeTemp tmpId) []
      else if n = sources.length + 2 then
        lake.put (directory, .mergeTemp tmpId) ((mergedRows lake sources).map .row)
      else if n ≤ sources.length + 4 then
        lake.put (directory, .mergeTemp tmpId) (parquet (mergedRows lake sources))
      else (lake.put (directory, .compacted finalId) (parquet (mergedRows lake sources))).removeAll
        (sources.take (n - (sources.length + 5))) := by
  obtain ⟨hrun, hcount, hstop⟩ := run_readAll answers [] hread
  have hmerged : sorted (fun a b => decide (a.timestamp ≤ b.timestamp))
      ([] ++ sources.map (rowsAt lake)).flatten = mergedRows lake sources := rfl
  obtain ⟨hrun₂, hcount₂⟩ := run_toParquet answers lake (directory, FileName.mergeTemp tmpId)
    (mergedRows lake sources)
  -- the file that was written has the rows that were merged
  have hput : (lake.put (directory, .mergeTemp tmpId) (parquet (mergedRows lake sources))).read
      (directory, .mergeTemp tmpId) = some (parquet (mergedRows lake sources)) := by
    rw [Store.read_put, if_pos rfl]
  have hreread : rowsOf (((lake.put (directory, .mergeTemp tmpId)
      (parquet (mergedRows lake sources))).read (directory, .mergeTemp tmpId)).getD []) =
        some (mergedRows lake sources) := by
    rw [hput]
    exact rowsOf_parquet _
  obtain ⟨hread', hcount', hstop'⟩ := run_readFile answers hreread
  have hlength : ¬ (mergedRows lake sources).length ≠
      (([] ++ sources.map (rowsAt lake)).map List.length).sum := by
    rw [(mergedRows_perm lake sources).length_eq, List.length_flatten]
    exact fun h => h rfl
  have hrange : ¬ rangeMismatch (mergedRows lake sources) (mergedRows lake sources) = true := by
    rw [rangeMismatch_self hrows]
    exact Bool.false_ne_true
  have hreplace : answer answers
      (.replace (directory, .mergeTemp tmpId) (directory, .compacted finalId))
      (lake.put (directory, .mergeTemp tmpId) (parquet (mergedRows lake sources))) =
        (.ok (), lake.put (directory, .compacted finalId) (parquet (mergedRows lake sources))) := by
    simp only [handle, hput]
    rw [Store.remove_put, Store.remove_absent htmp]
  unfold mergeFiles
  refine ⟨?_, ?_, fun n => ?_⟩
  · rw [Prog.run_bind, hrun]
    dsimp only
    rw [hmerged, Prog.run_bind, hrun₂]
    dsimp only
    rw [Prog.run_bind, hread']
    dsimp only
    rw [if_neg hlength, if_neg hrange, Prog.run_bind, Prog.run_perform, hreplace]
    dsimp only
    rw [Prog.run_bind, (run_unlinks answers sources _).1]
    exact ⟨_, rfl⟩
  · rw [Prog.count_bind, hrun, hcount]
    dsimp only
    rw [hmerged, Prog.count_bind, hrun₂, hcount₂]
    dsimp only
    rw [Prog.count_bind, hread', hcount']
    dsimp only
    rw [if_neg hlength, if_neg hrange, Prog.count_bind, Prog.run_perform, Prog.count_perform,
      hreplace]
    dsimp only
    rw [Prog.count_bind, (run_unlinks answers sources _).1, (run_unlinks answers sources _).2]
    simp only [Prog.count]
    omega
  · rw [stopped_bind, hrun, hcount, hstop]
    by_cases hn : n ≤ sources.length
    · rw [if_pos hn, if_pos hn]
    rw [if_neg hn, if_neg hn]
    dsimp only
    rw [hmerged, stopped_bind, hrun₂, hcount₂, stopped_toParquet]
    by_cases hn₃ : n ≤ sources.length + 3
    · rw [if_pos (by omega), if_neg (by omega)]
      split_ifs <;> first | rfl | omega
    rw [if_neg (by omega)]
    dsimp only
    rw [stopped_bind, hread', hcount', hstop']
    by_cases hn₄ : n ≤ sources.length + 4
    · rw [if_pos (by omega), if_neg (by omega), if_neg (by omega), if_pos hn₄]
    rw [if_neg (by omega), if_neg (by omega), if_neg (by omega), if_neg hn₄]
    dsimp only
    rw [if_neg hlength, if_neg hrange, stopped_replace answers _ hreplace, if_neg (by omega)]
    congr 2

end Stages

/-! ## A compaction of a good lake -/

/-- The stop after `n` operations is before the temporary is created, or after the last source
is removed. -/
def CleanAt (isDir : Bool) (sources n : Nat) : Prop :=
  isDir = false ∨ sources ≤ 1 ∨ n ≤ sources + 2 ∨ 2 * sources + 7 ≤ n

instance (isDir : Bool) (sources n : Nat) : Decidable (CleanAt isDir sources n) :=
  inferInstanceAs (Decidable (_ ∨ _))

section Good

variable {directory : Directory} {p : Path}

theorem Good.source (h : Good w) (hp : p ∈ smallFiles directory w.lake.paths) :
    p.1 = directory ∧ p.2.isParquet = true ∧ directory.stream ∈ streams ∧
      ∃ rows, w.lake.read p = some (parquet rows) ∧ rows ≠ [] ∧ ∀ r ∈ rows, r.day = directory.day := by
  obtain ⟨hmem, hvisible⟩ := List.mem_filter.mp (List.mem_filter.mp hp).1
  obtain ⟨rfl, hparquet⟩ := of_decide_eq_true hvisible
  obtain ⟨c, hc⟩ := Store.mem_paths.mp hmem
  obtain ⟨rows, hne, rfl, hdays⟩ := (h.whole p c hc hparquet).rows
  exact ⟨rfl, hparquet, h.known p _ hc, rows, hc, hne, hdays⟩

theorem Good.readable (h : Good w) : ∀ p ∈ smallFiles directory w.lake.paths,
    ∃ rows, rowsOf ((w.lake.read p).getD []) = some rows := by
  intro p hp
  obtain ⟨-, -, -, rows, hread, -, -⟩ := h.source hp
  rw [hread]
  exact ⟨rows, rowsOf_parquet rows⟩

/-- A name that is not drawn yet is not taken. -/
theorem Good.fresh (h : Good w) {id : Nat} (hid : w.nextId ≤ id) (hp : id ∈ p.2.ids) :
    w.lake.read p = none := by
  cases hread : w.lake.read p with
  | none => rfl
  | some c => exact absurd (h.ids p c hread id hp) (Nat.not_lt.mpr hid)

variable {sources : List Path} {lake : Lake ρ}

omit [DecidableEq ρ] in
theorem mem_mergedRows {r : Row ρ} :
    r ∈ mergedRows lake sources ↔ ∃ p ∈ sources, r ∈ rowsAt lake p := by
  rw [(mergedRows_perm lake sources).mem_iff, List.mem_flatten]
  constructor
  · rintro ⟨rows, hrows, hr⟩
    obtain ⟨p, hp, rfl⟩ := List.mem_map.mp hrows
    exact ⟨p, hp, hr⟩
  · rintro ⟨p, hp, hr⟩
    exact ⟨rowsAt lake p, List.mem_map_of_mem hp, hr⟩

/-- The rows of a source, which has one at least. -/
theorem Good.rows_source (h : Good w) (hp : p ∈ smallFiles directory w.lake.paths) :
    ∃ r, r ∈ rowsAt w.lake p ∧ ∀ r ∈ rowsAt w.lake p, r.day = directory.day := by
  obtain ⟨-, -, -, rows, hread, hne, hdays⟩ := h.source hp
  have heq : rowsAt w.lake p = rows := by
    rw [rowsAt, hread, Option.getD_some, rowsOf_parquet, Option.getD_some]
  obtain ⟨r, hr⟩ := List.exists_mem_of_ne_nil rows hne
  exact ⟨r, heq ▸ hr, heq ▸ hdays⟩

theorem Good.mergedRows_ne (h : Good w)
    (hsources : smallFiles directory w.lake.paths ≠ []) :
    mergedRows w.lake (smallFiles directory w.lake.paths) ≠ [] := by
  obtain ⟨p, hp⟩ := List.exists_mem_of_ne_nil _ hsources
  obtain ⟨r, hr, -⟩ := h.rows_source hp
  exact List.ne_nil_of_mem (mem_mergedRows.mpr ⟨p, hp, hr⟩)

/-- A source counts as the rows that it has. -/
theorem Good.weight_source (h : Good w) (r : Row ρ)
    (hp : p ∈ smallFiles directory w.lake.paths) (other : Directory) :
    weight other r (p, (w.lake.read p).getD []) =
      if other = directory then (rowsAt w.lake p).count r else 0 := by
  obtain ⟨rfl, hparquet, -⟩ := h.source hp
  unfold weight
  by_cases hother : other = p.1
  · rw [if_pos ⟨hother.symm, hparquet⟩, if_pos hother]
    rfl
  · rw [if_neg fun hand => hother hand.1.symm, if_neg hother]

/-- The merged file counts as its sources do. -/
theorem Good.weight_sources (h : Good w) (r : Row ρ) (other : Directory)
    (hsub : ∀ p ∈ sources, p ∈ smallFiles directory w.lake.paths) :
    (sources.map fun p => weight other r (p, (w.lake.read p).getD [])).sum =
      if other = directory then (mergedRows w.lake sources).count r else 0 := by
  rw [List.map_congr_left fun p hp => h.weight_source r (hsub p hp) other]
  split
  · rw [(mergedRows_perm w.lake sources).count_eq, List.count_flatten, List.map_map]
    rfl
  · simp

/-- The lake with a new visible file, which a reader counts. -/
theorem tally_put {c : Content ρ} (hfresh : lake.read p = none) (other : Directory)
    (r : Row ρ) : tally other r (lake.put p c) = tally other r lake + weight other r (p, c) := by
  unfold tally
  rw [Store.sum_put, Store.remove_absent hfresh]

theorem weight_parquet (other : Directory) (r : Row ρ) (name : FileName)
    (hname : name.isParquet = true) (rows : List (Row ρ)) :
    weight other r ((directory, name), parquet rows) =
      if other = directory then rows.count r else 0 := by
  unfold weight
  rw [rowsOf_parquet, Option.getD_some]
  by_cases hother : other = directory
  · rw [if_pos ⟨hother.symm, hname⟩, if_pos hother]
  · rw [if_neg fun hand => hother hand.1.symm, if_neg hother]

omit [DecidableEq ρ] in
theorem nodup_smallFiles (lake : Lake ρ) : (smallFiles directory lake.paths).Nodup :=
  (lake.nodup.filter _).filter _

/-- What a merge has left after `j` removals: the rows of the other sources are there twice. -/
theorem Good.tally_removed (h : Good w) {final : Path} (hfinal : w.lake.read final = none)
    (hvisible : final.2.isParquet = true) (hdirectory : final.1 = directory) (j : Nat)
    (other : Directory) (r : Row ρ) :
    tally other r ((w.lake.put final (parquet (mergedRows w.lake
        (smallFiles directory w.lake.paths)))).removeAll
          ((smallFiles directory w.lake.paths).take j)) =
      tally other r w.lake + if other = directory then
        (mergedRows w.lake ((smallFiles directory w.lake.paths).drop j)).count r else 0 := by
  obtain ⟨d, name⟩ := final
  obtain rfl : d = directory := hdirectory
  set sources := smallFiles d w.lake.paths with hsources
  have hread : ∀ p ∈ sources.take j, (w.lake.put (d, name)
      (parquet (mergedRows w.lake sources))).read p = some ((w.lake.read p).getD []) := by
    intro p hp
    obtain ⟨-, -, -, rows, hrows, -⟩ := h.source (List.mem_of_mem_take hp)
    have hne : p ≠ (d, name) := by
      rintro rfl
      rw [hfinal] at hrows
      cases hrows
    rw [Store.read_put, if_neg hne, hrows]
    rfl
  have hsum := Store.sum_removeAll (weight other r)
    ((nodup_smallFiles w.lake).sublist (List.take_sublist j sources)) hread
  have hput := tally_put (c := parquet (mergedRows w.lake sources)) hfinal other r
  have htake := h.weight_sources r other fun p (hp : p ∈ sources.take j) => List.mem_of_mem_take hp
  have hcount : (mergedRows w.lake sources).count r =
      (mergedRows w.lake (sources.take j)).count r +
        (mergedRows w.lake (sources.drop j)).count r := by
    simp only [(mergedRows_perm _ _).count_eq]
    rw [← List.count_append, ← List.flatten_append, ← List.map_append, List.take_append_drop]
  rw [weight_parquet other r name hvisible] at hput
  change tally other r _ = tally other r _ + _ at hsum
  rw [htake] at hsum
  split at hsum
  · simp_all
    omega
  · simp_all

/-- A whole merge leaves a good lake. -/
theorem Good.merged (h : Good w) {finalId nextId : Nat} (hid : w.nextId ≤ finalId)
    (hnext : finalId < nextId) (hsources : smallFiles directory w.lake.paths ≠ []) :
    Good { w with
      lake := (w.lake.put (directory, .compacted finalId) (parquet (mergedRows w.lake
        (smallFiles directory w.lake.paths)))).removeAll (smallFiles directory w.lake.paths)
      nextId } := by
  have hfinal : w.lake.read (directory, .compacted finalId) = none :=
    h.fresh hid (List.mem_singleton.mpr rfl)
  have hcases : ∀ p c, ((w.lake.put (directory, .compacted finalId) (parquet (mergedRows w.lake
      (smallFiles directory w.lake.paths)))).removeAll (smallFiles directory w.lake.paths)).read p =
        some c → (p = (directory, .compacted finalId) ∧ c = parquet (mergedRows w.lake
          (smallFiles directory w.lake.paths))) ∨ w.lake.read p = some c := by
    intro p c hc
    rw [Store.read_removeAll] at hc
    split at hc
    · cases hc
    · rw [Store.read_put] at hc
      split at hc
      · next hp => exact .inl ⟨hp, (Option.some.inj hc).symm⟩
      · exact .inr hc
  obtain ⟨q, hq⟩ := List.exists_mem_of_ne_nil _ hsources
  refine ⟨fun p c hc hvisible => ?_, fun p c hc => ?_, fun p c hc id hmem => ?_, fun other r => ?_⟩
  · rcases hcases p c hc with ⟨rfl, rfl⟩ | hold
    · refine ⟨fun id => FileName.noConfusion, _, h.mergedRows_ne hsources, rfl, fun r hr => ?_⟩
      obtain ⟨p, hp, hr⟩ := mem_mergedRows.mp hr
      obtain ⟨-, -, hdays⟩ := h.rows_source hp
      exact hdays r hr
    · exact h.whole p c hold hvisible
  · rcases hcases p c hc with ⟨rfl, rfl⟩ | hold
    · exact (h.source hq).2.2.1
    · exact h.known p c hold
  · rcases hcases p c hc with ⟨rfl, rfl⟩ | hold
    · rw [List.mem_singleton.mp hmem]
      exact hnext
    · exact (h.ids p c hold id hmem).trans_le (hid.trans hnext.le)
  · have htally := h.tally_removed hfinal rfl rfl (smallFiles directory w.lake.paths).length other r
    rw [List.take_length, List.drop_length] at htally
    rw [htally, h.counts other r]
    simp [mergedRows, sorted]
    rfl

end Good

/-! ## Where a compaction is stopped -/

/-- What a program does to a good lake: it is good in the end, and where the program is stopped
it is good or not read exactly. -/
structure Outcome {α : Type} (answers : (o : Query) → Answer o) (w : World ρ) (nextId : Nat)
    (p : FileProg ρ α) (clean : Nat → Prop) : Prop where
  done : Good { w with lake := (p.run (answer answers) w.lake).2, nextId }
  good : ∀ n, clean n → Good { w with lake := stopped (answer answers) n p w.lake, nextId }
  torn : ∀ n, ¬ clean n →
    ¬ World.Exact { w with lake := stopped (answer answers) n p w.lake, nextId }

theorem Good.later (h : Good w) {nextId : Nat} (hid : w.nextId ≤ nextId) :
    Good { w with nextId } :=
  ⟨h.whole, h.known, fun p c hc id hmem => (h.ids p c hc id hmem).trans_le hid, h.counts⟩

section Day

variable (answers : (o : Query) → Answer o) {directory : Directory} {tmpId finalId nextId : Nat}

/-- How many operations a compaction has. -/
def operations (isDir : Bool) (sources : Nat) : Nat :=
  if isDir = false then 1 else if sources ≤ 1 then 2 else 2 * sources + 7

variable {lake : Lake ρ}

variable (tmpId finalId) in
omit [DecidableEq ρ] in
/-- A compaction that has nothing to do. -/
theorem compactDay_skips (h : answers (.isDir directory) = false ∨
      (smallFiles directory lake.paths).length ≤ 1) :
    (∃ result, (compactDay directory tmpId finalId).run (answer answers) lake = (.ok result, lake)) ∧
    (compactDay directory tmpId finalId).count (answer answers) lake =
      operations (answers (.isDir directory)) (smallFiles directory lake.paths).length ∧
    ∀ n, stopped (answer answers) n (compactDay directory tmpId finalId) lake = lake := by
  unfold compactDay operations
  cases hdir : answers (.isDir directory) with
  | false =>
    refine ⟨?_, ?_, fun n => ?_⟩
    · simp [Prog.run_bind, handle, hdir, Prog.run]
    · simp [Prog.count_bind, handle, hdir, Prog.count]
    · simp [stopped_bind, handle, hdir]
  | true =>
    have hfew := h.resolve_left (by rw [hdir]; exact Bool.noConfusion)
    refine ⟨?_, ?_, fun n => ?_⟩
    · simp [Prog.run_bind, handle, hdir, hfew, Prog.run]
    · simp [Prog.count_bind, handle, hdir, hfew, Prog.count]
    · simp [stopped_bind, handle, hdir, hfew]

variable (tmpId finalId) in
omit [DecidableEq ρ] in
/-- A compaction that merges. -/
theorem compactDay_merges (hdir : answers (.isDir directory) = true)
    (hmany : ¬ (smallFiles directory lake.paths).length ≤ 1) :
    (compactDay directory tmpId finalId).run (answer answers) lake =
      (mergeFiles directory (smallFiles directory lake.paths) tmpId finalId).run
        (answer answers) lake ∧
    (compactDay directory tmpId finalId).count (answer answers) lake =
      (mergeFiles directory (smallFiles directory lake.paths) tmpId finalId).count
        (answer answers) lake + 2 ∧
    ∀ n, stopped (answer answers) n (compactDay directory tmpId finalId) lake =
      stopped (answer answers) (n - 2)
        (mergeFiles directory (smallFiles directory lake.paths) tmpId finalId) lake := by
  unfold compactDay
  refine ⟨?_, ?_, fun n => ?_⟩
  · simp [Prog.run_bind, handle, hdir, hmany]
  · simp [Prog.count_bind, handle, hdir, hmany]
    exact (Nat.add_assoc 1 1 _).symm.trans (Nat.add_comm 2 _)
  · simp only [stopped_bind, Prog.count_perform, Prog.run_perform, stopped_perform, handle, hdir,
      Bool.not_true, Bool.false_eq_true, if_false, hmany, ite_self]
    rcases n with _ | _ | _ | n
    · simp
    · simp
    · simp
    · simp

/-- The sources of a merge and its result count twice, until the last of them is removed. -/
theorem Good.not_exact (h : Good w) {name : FileName}
    (hname : name.isParquet = true) (hfresh : w.lake.read (directory, name) = none) {j : Nat}
    (hj : j < (smallFiles directory w.lake.paths).length)
    (hlake : lake = (w.lake.put (directory, name) (parquet (mergedRows w.lake
      (smallFiles directory w.lake.paths)))).removeAll
        ((smallFiles directory w.lake.paths).take j)) :
    ¬ World.Exact { w with lake, nextId } := by
  have hleft : (smallFiles directory w.lake.paths)[j] ∈ (smallFiles directory w.lake.paths).drop j := by
    rw [List.drop_eq_getElem_cons hj]
    exact List.mem_cons_self
  have hsource := List.mem_of_mem_drop hleft
  obtain ⟨r, hr, hdays⟩ := h.rows_source hsource
  have htwice : 0 < (mergedRows w.lake ((smallFiles directory w.lake.paths).drop j)).count r :=
    List.count_pos_iff.mpr (mem_mergedRows.mpr ⟨_, hleft, hr⟩)
  refine not_exact_of_tally (h.source hsource).2.2.1 (hdays r hr) ?_
  show (w.writtenTo directory.stream directory.symbol).count r < tally directory r lake
  rw [hlake, h.tally_removed hfresh hname rfl, if_pos rfl, h.counts, if_pos (hdays r hr)]
  exact Nat.lt_add_of_pos_right htwice

variable (directory nextId) in
theorem Good.compactDay (h : Good w) (hid : w.nextId ≤ tmpId) (hfinal : tmpId < finalId)
    (hnext : finalId < nextId) : Outcome answers w nextId (compactDay directory tmpId finalId)
      (CleanAt (answers (.isDir directory)) (smallFiles directory w.lake.paths).length) := by
  have hlater : w.nextId ≤ nextId := hid.trans (hfinal.trans hnext).le
  by_cases hskip : answers (.isDir directory) = false ∨
      (smallFiles directory w.lake.paths).length ≤ 1
  · obtain ⟨⟨result, hrun⟩, -, hstop⟩ := compactDay_skips answers tmpId finalId hskip
    refine ⟨?_, fun n _ => ?_, fun n hn => ?_⟩
    · rw [hrun]
      exact h.later hlater
    · rw [hstop]
      exact h.later hlater
    · exact absurd (hskip.imp_right fun hfew => .inl hfew) hn
  obtain ⟨hdir, hmany⟩ := not_or.mp hskip
  have hne : smallFiles directory w.lake.paths ≠ [] := by
    intro hnil
    exact hmany (by rw [hnil]; exact Nat.zero_le 1)
  have htmp : w.lake.read (directory, .mergeTemp tmpId) = none :=
    h.fresh hid (List.mem_singleton.mpr rfl)
  have hfresh : w.lake.read (directory, .compacted finalId) = none :=
    h.fresh (hid.trans hfinal.le) (List.mem_singleton.mpr rfl)
  have hstream : directory.stream ∈ streams := by
    obtain ⟨p, hp⟩ := List.exists_mem_of_ne_nil _ hne
    exact (h.source hp).2.2.1
  obtain ⟨hrun, -, hstop⟩ := compactDay_merges answers tmpId finalId
    (Bool.eq_true_of_not_eq_false hdir) hmany
  obtain ⟨⟨result, hmerge⟩, -, hstages⟩ := mergeFiles_stages answers finalId
    h.readable (h.mergedRows_ne hne) htmp
  have hgood := h.merged (hid.trans hfinal.le) hnext hne
  refine ⟨?_, fun n hn => ?_, fun n hn => ?_⟩
  · rw [hrun, hmerge]
    exact hgood
  · rw [hstop, hstages]
    rcases hn with hfalse | hfew | hbefore | hafter
    · exact absurd hfalse hdir
    · exact absurd hfew hmany
    · rw [if_pos (by omega)]
      exact h.later hlater
    · rw [if_neg (by omega), if_neg (by omega), if_neg (by omega), if_neg (by omega),
        List.take_of_length_le (by omega)]
      exact hgood
  · obtain ⟨-, hrest⟩ := not_or.mp hn
    obtain ⟨-, hrest⟩ := not_or.mp hrest
    obtain ⟨hbefore, hafter⟩ := not_or.mp hrest
    rw [hstop, hstages, if_neg (by omega)]
    split_ifs
    · exact not_exact_of_torn (p := (directory, .mergeTemp tmpId)) (by rw [Store.read_put, if_pos rfl])
        rfl hstream rfl
    · exact not_exact_of_torn (p := (directory, .mergeTemp tmpId)) (by rw [Store.read_put, if_pos rfl])
        rfl hstream (rowsOf_torn _)
    · exact h.not_exact (j := 0) rfl htmp (by omega) rfl
    · exact h.not_exact rfl hfresh (by omega) rfl

omit [DecidableEq ρ] in
/-- A merge leaves the files of the other directories. -/
theorem smallFiles_merged {final : Path} {c : Content ρ} {ps : List Path}
    (hfinal : lake.read final = none) (hdirectory : final.1 = directory)
    (hps : ∀ p ∈ ps, p.1 = directory) {other : Directory} (hother : other ≠ directory) :
    smallFiles other ((lake.put final c).removeAll ps).paths = smallFiles other lake.paths := by
  have hpaths : ((lake.put final c).removeAll ps).paths =
      (lake.paths ++ [final]).filter fun p => decide (p ∉ ps) := by
    unfold Store.paths
    rw [Store.rows_removeAll, Store.put_rows_new hfinal, ← List.map_singleton (f := Prod.fst)
      (a := (final, c)), ← List.map_append, List.filter_map]
    exact congrArg _ (List.filter_congr fun r _ => decide_eq_decide.mpr Iff.rfl)
  have hglob : glob other ((lake.put final c).removeAll ps).paths = glob other lake.paths := by
    unfold glob
    rw [hpaths, List.filter_filter, List.filter_append]
    have hnew : [final].filter (fun p => decide (p.1 = other ∧ p.2.isParquet = true) &&
        decide (p ∉ ps)) = [] := by
      rw [List.filter_cons_of_neg (by simp [hdirectory, hother.symm]), List.filter_nil]
    rw [hnew, List.append_nil]
    refine List.filter_congr fun p _ => ?_
    by_cases hp : p ∈ ps
    · simp [hps p hp, hother.symm]
    · simp [hp]
  unfold smallFiles
  rw [hglob]

variable (directory) in
/-- A compaction of a good lake answers, and leaves the other directories. -/
theorem Good.compactDay_done (h : Good w) (hid : w.nextId ≤ tmpId) (hfinal : tmpId < finalId) :
    ∃ result lake, (Micro.compactDay directory tmpId finalId).run (answer answers) w.lake =
        (.ok result, lake) ∧
      (Micro.compactDay directory tmpId finalId).count (answer answers) w.lake =
        operations (answers (.isDir directory)) (smallFiles directory w.lake.paths).length ∧
      ∀ other, other ≠ directory →
        smallFiles other lake.paths = smallFiles other w.lake.paths := by
  by_cases hskip : answers (.isDir directory) = false ∨
      (smallFiles directory w.lake.paths).length ≤ 1
  · obtain ⟨⟨result, hrun⟩, hcount, -⟩ := compactDay_skips answers tmpId finalId hskip
    exact ⟨result, _, hrun, hcount, fun _ _ => rfl⟩
  obtain ⟨hdir, hmany⟩ := not_or.mp hskip
  have hne : smallFiles directory w.lake.paths ≠ [] := by
    intro hnil
    exact hmany (by rw [hnil]; exact Nat.zero_le 1)
  have htmp : w.lake.read (directory, .mergeTemp tmpId) = none :=
    h.fresh hid (List.mem_singleton.mpr rfl)
  have hfresh : w.lake.read (directory, .compacted finalId) = none :=
    h.fresh (hid.trans hfinal.le) (List.mem_singleton.mpr rfl)
  obtain ⟨hrun, hcount, -⟩ := compactDay_merges answers tmpId finalId
    (Bool.eq_true_of_not_eq_false hdir) hmany
  obtain ⟨⟨result, hmerge⟩, hmerges, -⟩ := mergeFiles_stages answers finalId
    h.readable (h.mergedRows_ne hne) htmp
  refine ⟨result, _, hrun.trans hmerge, ?_, fun other hother => ?_⟩
  · rw [hcount, hmerges, operations, if_neg hdir, if_neg hmany]
  · exact smallFiles_merged hfresh rfl (fun p hp => (h.source hp).1) hother

end Day

end Greenfield.Data.Micro
