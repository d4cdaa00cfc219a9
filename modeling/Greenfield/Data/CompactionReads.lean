import Greenfield.Data.MicroCompaction
import Mathlib.Algebra.BigOperators.Group.List.Basic
import Mathlib.Data.List.Dedup

/-!
# What a reader sees of the lake

How often a row is read is how often the visible files of its day have it, `tally`. A lake whose
visible files are whole and have what was written is read exactly (`Good.exact`); one with a torn
file, or with a row too often, is not.
-/

namespace Greenfield.Data.Micro

open Effects Files Py

variable {ρ : Type}

/-! ## Files -/

@[simp] theorem rowsOf_parquet (rows : List (Row ρ)) : rowsOf (parquet rows) = some rows := by
  unfold parquet
  induction rows with
  | nil => rfl
  | cons r rows ih => rw [List.map_cons, List.cons_append, rowsOf, ih, Option.map_some]

/-- Without its footer a file is not read. -/
theorem rowsOf_torn (rows : List (Row ρ)) : rowsOf (rows.map Piece.row) = none := by
  induction rows with
  | nil => rfl
  | cons r rows ih => rw [List.map_cons, rowsOf, ih, Option.map_none]

variable {c : Content ρ} {rows : List (Row ρ)}

theorem readParquet_eq_ok :
    readParquet c = .ok rows ↔ rowsOf c = some rows := by
  unfold readParquet
  split <;> simp_all

/-- The rows of the file at `p`. -/
def rowsAt (lake : Lake ρ) (p : Path) : List (Row ρ) :=
  (rowsOf ((lake.read p).getD [])).getD []

variable [DecidableEq ρ]

/-- How often the row is in the file, where a reader of the directory sees it. -/
def weight (directory : Directory) (r : Row ρ) (f : Path × Content ρ) : Nat :=
  if f.1.1 = directory ∧ f.1.2.isParquet = true then ((rowsOf f.2).getD []).count r else 0

/-- How often the row is in the files of the directory. -/
def tally (directory : Directory) (r : Row ρ) (lake : Lake ρ) : Nat := lake.sum (weight directory r)

/-- The files that a reader of the directory sees. -/
theorem tally_eq (directory : Directory) (r : Row ρ) (lake : Lake ρ) :
    tally directory r lake =
      ((glob directory lake.paths).map fun p => (rowsAt lake p).count r).sum := by
  have hrows : ∀ f ∈ lake.rows, rowsAt lake f.1 = (rowsOf f.2).getD [] := by
    intro f hf
    unfold rowsAt Store.read
    rw [Keyed.Table.find_of_mem hf]
    rfl
  unfold tally Store.sum glob Store.paths
  generalize lake.rows = rows at hrows
  induction rows with
  | nil => rfl
  | cons f rows ih =>
    obtain ⟨hf, hrest⟩ := List.forall_mem_cons.mp hrows
    rw [List.map_cons, List.sum_cons, List.map_cons, ih hrest, weight]
    split
    · next h => rw [List.filter_cons_of_pos (by simpa using h), List.map_cons, List.sum_cons, hf]
    · next h => rw [List.filter_cons_of_neg (by simpa using h), Nat.zero_add]

variable {lake : Lake ρ} {start stop : Int}

/-- How often a row is read. -/
theorem count_readRange {stream symbol : String}
    (h : readRange lake stream symbol start stop = .ok rows) (r : Row ρ) :
    rows.count r = if start ≤ r.timestamp ∧ r.timestamp ≤ stop then
      ((dateRange start stop).map fun day => tally ⟨stream, symbol, day⟩ r lake).sum else 0 := by
  unfold readRange at h
  obtain ⟨-, -, h⟩ := bind_eq_ok.mp h
  obtain ⟨frames, hframes, h⟩ := bind_eq_ok.mp h
  cases h
  have hmap : frames.map id = _ := map_of_mapM (k := id) (g := rowsAt lake)
    (fun p rows hp => by
      unfold rowsAt
      rw [readParquet_eq_ok.mp hp]
      rfl) hframes
  rw [List.map_id] at hmap
  have hperm : (sorted (fun a b => decide (a.timestamp ≤ b.timestamp))
      (frames.flatten.filter fun r => start ≤ r.timestamp ∧ r.timestamp ≤ stop)).count r =
      (frames.flatten.filter fun r => start ≤ r.timestamp ∧ r.timestamp ≤ stop).count r :=
    (List.perm_insertionSort _ _).count_eq r
  rw [hperm]
  split
  · next hin =>
    rw [List.count_filter (by simpa using hin), hmap]
    simp only [tally_eq]
    rw [List.count_flatten, List.map_map, List.map_flatMap, List.flatMap_def, List.sum_flatten,
      List.map_map]
    rfl
  · next hout =>
    apply List.count_eq_zero_of_not_mem
    intro hmem
    exact hout (by simpa using (List.mem_filter.mp hmem).2)

/-! ## What was written -/

structure World (ρ : Type) where
  lake : Lake ρ
  /-- The next `uuid4`. -/
  nextId : Nat
  /-- The rows that were written, with their stream and symbol. -/
  written : List ((String × String) × Row ρ)

namespace World

/-- The rows that were written for a stream and a symbol. -/
def writtenTo (w : World ρ) (stream symbol : String) : List (Row ρ) :=
  (w.written.filter fun x => x.1 = (stream, symbol)).map Prod.snd

/-- **What the reader is to return**: the rows of the range, each as often as it was written. -/
def Exact (w : World ρ) : Prop :=
  ∀ stream ∈ streams, ∀ symbol start stop, ∃ rows,
    readRange w.lake stream symbol start stop = .ok rows ∧
      rows.Perm ((w.writtenTo stream symbol).filter fun r =>
        start ≤ r.timestamp ∧ r.timestamp ≤ stop)

end World

/-- The `uuid4`s of a name. -/
def FileName.ids : FileName → List Nat
  | .batch _ id => [id]
  | .batchTemp _ id tempId => [id, tempId]
  | .mergeTemp id => [id]
  | .compacted id => [id]

/-- A file that a reader sees: a batch or a merge, complete, with rows of its day. -/
structure Whole (p : Path) (c : Content ρ) : Prop where
  merged : ∀ id, p.2 ≠ .mergeTemp id
  rows : ∃ rows, rows ≠ [] ∧ c = parquet rows ∧ ∀ r ∈ rows, r.day = p.1.day

/-- A lake whose visible files are whole and have the rows that were written. -/
structure Good (w : World ρ) : Prop where
  whole : ∀ p c, w.lake.read p = some c → p.2.isParquet = true → Whole p c
  known : ∀ p c, w.lake.read p = some c → p.1.stream ∈ streams
  ids : ∀ p c, w.lake.read p = some c → ∀ id ∈ p.2.ids, id < w.nextId
  counts : ∀ directory r, tally directory r w.lake =
    if r.day = directory.day then (w.writtenTo directory.stream directory.symbol).count r else 0

variable {w : World ρ}

/-! ## Days -/

omit [DecidableEq ρ] in
theorem mem_dateRange {start stop day : Int} :
    day ∈ dateRange start stop ↔ start / dayNs ≤ day ∧ day ≤ stop / dayNs := by
  unfold dateRange
  simp only [List.mem_map, List.mem_range]
  constructor
  · rintro ⟨i, hi, rfl⟩
    omega
  · rintro ⟨hstart, hstop⟩
    exact ⟨(day - start / dayNs).toNat, by omega, by omega⟩

theorem nodup_dateRange (start stop : Int) : (dateRange start stop).Nodup := by
  unfold dateRange
  refine List.Nodup.map (fun i j hij => ?_) List.nodup_range
  have heq : (i : Int) = j := Int.add_left_cancel hij
  exact Int.ofNat_inj.mp heq

variable {r : Row ρ}

omit [DecidableEq ρ] in
theorem day_mem_dateRange (hstart : start ≤ r.timestamp)
    (hstop : r.timestamp ≤ stop) : r.day ∈ dateRange start stop :=
  mem_dateRange.mpr ⟨Int.ediv_le_ediv (by decide) hstart, Int.ediv_le_ediv (by decide) hstop⟩

/-- A sum over days of which one counts. -/
theorem sum_of_day {days : List Int} (hnodup : days.Nodup) {day : Int} (hday : day ∈ days) (n : Nat) :
    (days.map fun d => if day = d then n else 0).sum = n := by
  induction days with
  | nil => exact absurd hday List.not_mem_nil
  | cons d days ih =>
    obtain ⟨hd, hdays⟩ := List.nodup_cons.mp hnodup
    rw [List.map_cons, List.sum_cons]
    by_cases heq : day = d
    · have hzero : (days.map fun d => if day = d then n else 0).sum = 0 := by
        apply List.sum_eq_zero
        intro x hx
        obtain ⟨d', hd', rfl⟩ := List.mem_map.mp hx
        refine if_neg fun h => hd ?_
        rw [← heq, h]
        exact hd'
      rw [if_pos heq, hzero, Nat.add_zero]
    · rw [if_neg heq, Nat.zero_add]
      exact ih hdays (List.mem_of_ne_of_mem heq hday)

/-! ## Reading -/

omit [DecidableEq ρ] in
theorem mapM_readParquet : ∀ {paths : List Path},
    (∀ p ∈ paths, ∃ rows, rowsOf ((lake.read p).getD []) = some rows) →
    ∃ frames, paths.mapM (fun p => readParquet ((lake.read p).getD [])) = .ok frames
  | [], _ => ⟨[], rfl⟩
  | p :: paths, h => by
    obtain ⟨⟨rows, hrows⟩, hrest⟩ := List.forall_mem_cons.mp h
    obtain ⟨frames, hframes⟩ := mapM_readParquet hrest
    refine ⟨rows :: frames, ?_⟩
    rw [List.mapM_cons]
    exact bind_eq_ok.mpr ⟨rows, readParquet_eq_ok.mpr hrows, bind_eq_ok.mpr ⟨frames, hframes, rfl⟩⟩

/-- A good lake is read exactly. -/
theorem Good.exact (h : Good w) : w.Exact := by
  intro stream hstream symbol start stop
  have hread : ∃ rows, readRange w.lake stream symbol start stop = .ok rows := by
    have hpaths : ∀ p ∈ (dateRange start stop).flatMap fun day =>
        glob ⟨stream, symbol, day⟩ w.lake.paths,
        ∃ rows, rowsOf ((w.lake.read p).getD []) = some rows := by
      intro p hp
      obtain ⟨day, -, hp⟩ := List.mem_flatMap.mp hp
      obtain ⟨hmem, hvisible⟩ := List.mem_filter.mp hp
      obtain ⟨c, hc⟩ := Store.mem_paths.mp hmem
      obtain ⟨rows, -, rfl, -⟩ := (h.whole p c hc (of_decide_eq_true hvisible).2).rows
      rw [hc]
      exact ⟨rows, rowsOf_parquet rows⟩
    obtain ⟨frames, hframes⟩ := mapM_readParquet hpaths
    unfold readRange
    exact ⟨_, bind_eq_ok.mpr ⟨(), require_eq_ok.mpr (by simpa using hstream),
      bind_eq_ok.mpr ⟨frames, hframes, rfl⟩⟩⟩
  obtain ⟨rows, hrows⟩ := hread
  refine ⟨rows, hrows, List.perm_iff_count.mpr fun r => ?_⟩
  rw [count_readRange hrows]
  split
  · next hin =>
    rw [List.count_filter (by simpa using hin)]
    simp only [h.counts]
    exact sum_of_day (nodup_dateRange start stop) (day_mem_dateRange hin.1 hin.2) _
  · next hout =>
    symm
    apply List.count_eq_zero_of_not_mem
    intro hmem
    exact hout (by simpa using (List.mem_filter.mp hmem).2)

/-- The range of one day. -/
def dayStart (day : Int) : Int := day * dayNs

def dayStop (day : Int) : Int := day * dayNs + (dayNs - 1)

theorem dateRange_day (day : Int) : dateRange (dayStart day) (dayStop day) = [day] := by
  have hstart : dayStart day / dayNs = day := Int.mul_ediv_cancel day (by decide)
  have hstop : dayStop day / dayNs = day := by
    unfold dayStop
    rw [Int.add_comm, Int.add_mul_ediv_right _ _ (by decide)]
    exact Int.zero_add day
  unfold dateRange
  rw [hstart, hstop, Int.add_sub_cancel]
  simp

omit [DecidableEq ρ] in
theorem mem_day : dayStart r.day ≤ r.timestamp ∧ r.timestamp ≤ dayStop r.day := by
  unfold dayStart dayStop Row.day dayNs
  omega

omit [DecidableEq ρ] in
/-- A visible file that is torn. -/
theorem not_exact_of_torn {p : Path} (hread : w.lake.read p = some c)
    (hvisible : p.2.isParquet = true) (hstream : p.1.stream ∈ streams) (htorn : rowsOf c = none) :
    ¬ w.Exact := by
  intro h
  obtain ⟨rows, hrows, -⟩ := h _ hstream p.1.symbol (dayStart p.1.day) (dayStop p.1.day)
  unfold readRange at hrows
  obtain ⟨-, -, hrows⟩ := bind_eq_ok.mp hrows
  obtain ⟨frames, hframes, -⟩ := bind_eq_ok.mp hrows
  rw [dateRange_day, List.flatMap_singleton] at hframes
  have hmem : p ∈ glob p.1 w.lake.paths :=
    List.mem_filter.mpr ⟨Store.mem_paths.mpr ⟨c, hread⟩, by simpa using hvisible⟩
  obtain ⟨rows', hrows'⟩ := ok_of_mapM hframes p hmem
  rw [hread, Option.getD_some, readParquet_eq_ok, htorn] at hrows'
  cases hrows'

/-- A row that the visible files have more often than it was written. -/
theorem not_exact_of_tally {directory : Directory} (hstream : directory.stream ∈ streams)
    (hday : r.day = directory.day)
    (hmore : (w.writtenTo directory.stream directory.symbol).count r < tally directory r w.lake) :
    ¬ w.Exact := by
  intro h
  obtain ⟨rows, hrows, hperm⟩ := h _ hstream directory.symbol (dayStart r.day) (dayStop r.day)
  have hcount := count_readRange hrows r
  have hin := mem_day (r := r)
  rw [if_pos hin, dateRange_day, List.map_singleton, List.sum_singleton, hday, hperm.count_eq,
    List.count_filter (by simpa using hday ▸ hin)] at hcount
  exact absurd hcount hmore.ne

end Greenfield.Data.Micro
