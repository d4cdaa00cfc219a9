import Greenfield.Lib.Buckets
import Greenfield.Lib.Run
import Greenfield.Lib.Table
import Greenfield.Py.Time
import Mathlib.Data.String.Basic

/-!
# Klines on disk

`write_klines` and `read_klines` of `src/data/storage.py`. A partition that is there is merged and
keeps the first row of each key; one that is not is written as it is given. So one row a key is
kept by the runs that write no partition for the first time with a key twice (`klines_kept`).
Directories and Parquet files are a table of rows by partition.
-/

namespace Greenfield.Data

open Buckets Keyed Py

-- the order of the integers that computes, whatever is imported
local instance klineIntLinearOrder : LinearOrder ℤ := Int.instLinearOrder

/-- A row of a klines frame; the timestamp is in nanoseconds. -/
structure KlineRow where
  timestamp : ℤ
  openPrice : ℚ
  high : ℚ
  low : ℚ
  close : ℚ
  volume : ℚ
  turnover : ℚ
  symbol : String
  timeframe : String
  deriving DecidableEq

/-- `["timestamp", "symbol", "timeframe"]`. -/
def KlineRow.key (r : KlineRow) : ℤ × String × String := (r.timestamp, r.symbol, r.timeframe)

/-- `strftime("%Y-%m")`, in the order of its text. -/
def yearMonth (timestamp : ℤ) : ℤ ×ₗ ℤ :=
  let date := dateOfDays (timestamp / 86400000000000)
  toLex (date.year, date.month)

/-- The names in `_partition_dir`. -/
abbrev KlinePartition := String ×ₗ String ×ₗ ℤ ×ₗ ℤ

def KlineRow.partition (r : KlineRow) : KlinePartition :=
  toLex (r.symbol, toLex (r.timeframe, yearMonth r.timestamp))

abbrev KlineStore := Table (Prod.fst : KlinePartition × List KlineRow → KlinePartition)

/-- `drop_duplicates`: of the rows with a key the first one. -/
def dropDuplicates : List KlineRow → List KlineRow
  | [] => []
  | r :: rest => r :: (dropDuplicates rest).filter fun x => x.key ≠ r.key

/-- `sort_values("timestamp")`. -/
def byTimestamp (rows : List KlineRow) : List KlineRow :=
  sorted (fun a b => a.timestamp ≤ b.timestamp) rows

/-- What is written to a partition. -/
def mergedInto (existing : Option (List KlineRow)) (group : List KlineRow) : List KlineRow :=
  match existing with
  | some existing => byTimestamp (dropDuplicates (existing ++ group))
  | none => group

def partitionRows (store : KlineStore) (p : KlinePartition) : Option (List KlineRow) :=
  (store.find p).map Prod.snd

/-- The body of the loop of `write_klines`. -/
def writeKlinePartition (store : KlineStore) (p : KlinePartition) (group : List KlineRow) : KlineStore :=
  store.upsert (p, mergedInto (partitionRows store p) group)

/-- `write_klines`: the partitions that were written, and the store after it. -/
def writeKlines (store : KlineStore) (df : List KlineRow) : List KlinePartition × KlineStore :=
  let grouped := groups KlineRow.partition df
  (grouped.map Prod.fst, grouped.foldl (fun store (p, group) => writeKlinePartition store p group) store)

/-- `read_klines`. -/
def readKlineRows (store : KlineStore) (symbol timeframe : String) (start stop : Option ℤ) :
    List KlineRow :=
  let files := store.rows.filter fun file =>
    (ofLex file.1).1 = symbol ∧ (ofLex (ofLex file.1).2).1 = timeframe
  let frames := (sorted (fun a b => a.1 ≤ b.1) files).map Prod.snd
  (byTimestamp frames.flatten).filter fun r =>
    start.all (· ≤ r.timestamp) && stop.all (r.timestamp ≤ ·)

/-! ## First writers -/

/-- The row is the first of the rows with its key. -/
def IsFirst (rows : List KlineRow) (r : KlineRow) : Prop :=
  rows.find? (fun x => decide (x.key = r.key)) = some r

variable {r : KlineRow} {rows : List KlineRow}

theorem IsFirst.mem (h : IsFirst rows r) : r ∈ rows :=
  List.mem_of_find?_eq_some h

/-- Where keys are distinct, every row is the first. -/
theorem isFirst_iff_mem (h : (rows.map KlineRow.key).Nodup) :
    IsFirst rows r ↔ r ∈ rows := by
  refine ⟨IsFirst.mem, fun hr => ?_⟩
  cases hfind : rows.find? (fun x => decide (x.key = r.key)) with
  | none => exact absurd (decide_eq_true rfl) (List.find?_eq_none.mp hfind r hr)
  | some x =>
    have hkey : x.key = r.key := by simpa using List.find?_some hfind
    have hx : x = r := List.inj_on_of_nodup_map h (List.mem_of_find?_eq_some hfind) hr hkey
    exact hx ▸ hfind

/-- What is the first in rows depends on what is found there. -/
theorem isFirst_append {rows more : List KlineRow} : IsFirst (rows ++ more) r ↔
    IsFirst rows r ∨ (∀ x ∈ rows, x.key ≠ r.key) ∧ IsFirst more r := by
  unfold IsFirst
  rw [List.find?_append]
  cases hfind : rows.find? (fun x => decide (x.key = r.key)) with
  | none =>
    have hnone : ∀ x ∈ rows, x.key ≠ r.key := by
      simpa using List.find?_eq_none.mp hfind
    simp only [Option.none_or, reduceCtorEq, false_or]
    exact ⟨fun h => ⟨hnone, h⟩, fun h => h.2⟩
  | some x =>
    have hkey : x.key = r.key := by simpa using List.find?_some hfind
    simp only [Option.some_or]
    refine ⟨.inl, fun h => h.resolve_right fun h' => ?_⟩
    exact h'.1 x (List.mem_of_find?_eq_some hfind) hkey

theorem mem_dropDuplicates : ∀ {rows : List KlineRow},
    r ∈ dropDuplicates rows ↔ IsFirst rows r
  | [] => by simp [dropDuplicates, IsFirst]
  | x :: rest => by
    unfold dropDuplicates
    rw [List.mem_cons, List.mem_filter, mem_dropDuplicates]
    unfold IsFirst
    by_cases hkey : x.key = r.key
    · rw [List.find?_cons_of_pos (by simpa using hkey), Option.some.injEq]
      simp only [decide_eq_true_eq, hkey, ne_eq, not_true_eq_false, and_false, or_false]
      exact eq_comm
    · rw [List.find?_cons_of_neg (by simpa using hkey)]
      simp only [decide_eq_true_eq, ne_eq]
      constructor
      · rintro (rfl | h)
        · exact absurd rfl hkey
        · exact h.1
      · exact fun h => .inr ⟨h, fun heq => hkey heq.symm⟩

theorem nodup_dropDuplicates : ∀ rows : List KlineRow,
    ((dropDuplicates rows).map KlineRow.key).Nodup
  | [] => List.nodup_nil
  | x :: rest => by
    unfold dropDuplicates
    rw [List.map_cons, List.nodup_cons, List.mem_map]
    refine ⟨?_, (nodup_dropDuplicates rest).sublist (List.Sublist.map _ List.filter_sublist)⟩
    rintro ⟨y, hy, hkey⟩
    exact absurd hkey (by simpa using (List.mem_filter.mp hy).2)

/-- Rows with one key are in one partition. -/
theorem partition_of_key {a b : KlineRow} (h : a.key = b.key) : a.partition = b.partition := by
  unfold KlineRow.key at h
  simp only [Prod.mk.injEq] at h
  obtain ⟨htimestamp, hsymbol, htimeframe⟩ := h
  unfold KlineRow.partition
  rw [htimestamp, hsymbol, htimeframe]

/-- The first rows of a partition are those of its group. -/
theorem isFirst_group (df : List KlineRow) :
    IsFirst (df.filter fun x => decide (x.partition = r.partition)) r ↔ IsFirst df r := by
  unfold IsFirst
  rw [List.find?_filter]
  have hsame : (fun x : KlineRow => decide (decide (x.partition = r.partition) = true ∧
      decide (x.key = r.key) = true)) = fun x => decide (x.key = r.key) := by
    funext x
    simp only [decide_eq_true_eq]
    exact decide_eq_decide.mpr ⟨fun h => h.2, fun h => ⟨partition_of_key h, h⟩⟩
  rw [hsame]

/-! ## What a call writes -/

theorem partitionRows_writeKlinePartition (store : KlineStore) (p q : KlinePartition)
    (group : List KlineRow) : partitionRows (writeKlinePartition store p group) q =
      if q = p then some (mergedInto (partitionRows store p) group) else partitionRows store q := by
  unfold writeKlinePartition
  rw [partitionRows, Table.find_upsert]
  split
  · rfl
  · rfl

/-- Groups of distinct partitions are written without regard to each other. -/
theorem partitionRows_writeAll {q : KlinePartition} :
    ∀ (grouped : List (KlinePartition × List KlineRow)) (store : KlineStore),
    (grouped.map Prod.fst).Nodup →
    let written := grouped.foldl (fun store (p, group) => writeKlinePartition store p group) store
    (∀ group, (q, group) ∈ grouped →
      partitionRows written q = some (mergedInto (partitionRows store q) group)) ∧
    (q ∉ grouped.map Prod.fst → partitionRows written q = partitionRows store q)
  | [], store, _ => ⟨fun _ h => absurd h List.not_mem_nil, fun _ => rfl⟩
  | (p, group) :: rest, store, hnodup => by
    rw [List.map_cons, List.nodup_cons] at hnodup
    obtain ⟨hwritten, hother⟩ :=
      partitionRows_writeAll (q := q) rest (writeKlinePartition store p group) hnodup.2
    simp only [partitionRows_writeKlinePartition] at hwritten hother
    refine ⟨fun group' hmem => ?_, fun hq => ?_⟩
    · rcases List.mem_cons.mp hmem with heq | hmem
      · cases heq
        exact (hother hnodup.1).trans (if_pos rfl)
      · have hne : q ≠ p := fun heq => hnodup.1 (List.mem_map.mpr ⟨_, hmem, heq⟩)
        rw [if_neg hne] at hwritten
        exact hwritten group' hmem
    · rw [List.map_cons, List.mem_cons, not_or] at hq
      rw [if_neg hq.1] at hother
      exact hother hq.2

/-- What a call leaves of a partition. -/
theorem partitionRows_writeKlines (store : KlineStore) (df : List KlineRow) (q : KlinePartition) :
    partitionRows (writeKlines store df).2 q =
      if q ∈ keysOf KlineRow.partition df then
        some (mergedInto (partitionRows store q) (df.filter fun x => decide (x.partition = q)))
      else partitionRows store q := by
  have hkeys : (groups KlineRow.partition df).map Prod.fst = keysOf KlineRow.partition df := by
    unfold groups
    rw [List.map_map]
    exact List.map_id _
  have hnodup : ((groups KlineRow.partition df).map Prod.fst).Nodup := by
    rw [hkeys]
    exact (pairwise_keysOf KlineRow.partition df).imp ne_of_lt
  obtain ⟨hwritten, hother⟩ := partitionRows_writeAll (q := q) _ store hnodup
  rw [hkeys] at hother
  unfold writeKlines
  split
  · next hq => exact hwritten _ (mem_groups.mpr ⟨mem_keysOf.mp hq, rfl⟩)
  · next hq => exact hother hq

/-! ## What is kept -/

/-- Each partition has, once, the first rows of the history that are of it. -/
structure Kept (store : KlineStore) (history : List KlineRow) : Prop where
  distinct : ∀ p rows, partitionRows store p = some rows → (rows.map KlineRow.key).Nodup
  first : ∀ p rows r, partitionRows store p = some rows →
    (r ∈ rows ↔ r.partition = p ∧ IsFirst history r)
  absent : ∀ p, partitionRows store p = none → ∀ r ∈ history, r.partition ≠ p

theorem kept_empty : Kept Table.empty [] where
  distinct _ _ h := by cases h
  first _ _ _ h := by cases h
  absent _ _ _ hr := absurd hr List.not_mem_nil

/-- No partition is written for the first time with a key twice. -/
def FreshDistinct (store : KlineStore) (df : List KlineRow) : Prop :=
  ∀ r ∈ df, partitionRows store r.partition = none →
    ((df.filter fun x => decide (x.partition = r.partition)).map KlineRow.key).Nodup

instance (store : KlineStore) (df : List KlineRow) : Decidable (FreshDistinct store df) :=
  inferInstanceAs (Decidable (∀ r ∈ df, _))

section Step

variable {store : KlineStore} {history df : List KlineRow} {p : KlinePartition}

/-- Rows of a partition that is there: the history has no others with their keys. -/
theorem Kept.not_earlier (h : Kept store history) {existing : List KlineRow}
    (hp : partitionRows store p = some existing) {r : KlineRow} (hr : r.partition = p) :
    (∀ x ∈ existing, x.key ≠ r.key) ↔ ∀ x ∈ history, x.key ≠ r.key := by
  constructor
  · intro hnone x hx hkey
    cases hfind : history.find? (fun y => decide (y.key = r.key)) with
    | none => exact absurd (decide_eq_true hkey) (List.find?_eq_none.mp hfind x hx)
    | some y =>
      have hy : y.key = r.key := by simpa using List.find?_some hfind
      refine hnone y ((h.first p existing y hp).mpr ⟨(partition_of_key hy).trans hr, ?_⟩) hy
      unfold IsFirst
      rw [hy]
      exact hfind
  · exact fun hnone x hx => hnone x ((h.first p existing x hp).mp hx).2.mem

theorem nodup_byTimestamp {rows : List KlineRow} :
    ((byTimestamp rows).map KlineRow.key).Nodup ↔ (rows.map KlineRow.key).Nodup :=
  ((List.perm_insertionSort _ rows).map _).nodup_iff

/-- **A call keeps one row a key**, the first one. -/
theorem Kept.write (h : Kept store history) (hfresh : FreshDistinct store df) :
    Kept (writeKlines store df).2 (history ++ df) := by
  have hkey {q : KlinePartition} : q ∈ keysOf KlineRow.partition df ↔ ∃ r ∈ df, r.partition = q :=
    mem_keysOf
  constructor
  · intro q rows hrows
    rw [partitionRows_writeKlines] at hrows
    split at hrows
    · next hq =>
      cases hrows
      cases hexisting : partitionRows store q with
      | none =>
        obtain ⟨r, hr, rfl⟩ := hkey.mp hq
        exact hfresh r hr hexisting
      | some existing => exact nodup_byTimestamp.mpr (nodup_dropDuplicates _)
    · exact h.distinct q rows hrows
  · intro q rows r hrows
    rw [partitionRows_writeKlines] at hrows
    split at hrows
    · next hq =>
      cases hrows
      cases hexisting : partitionRows store q with
      | none =>
        obtain ⟨x, hx, rfl⟩ := hkey.mp hq
        have hdistinct := hfresh x hx hexisting
        rw [mergedInto, List.mem_filter, decide_eq_true_eq, and_comm]
        refine and_congr_right fun hr => ?_
        have hnone : ∀ y ∈ history, y.key ≠ r.key := fun y hy heq =>
          h.absent _ hexisting y hy ((partition_of_key heq).trans hr)
        rw [isFirst_append, ← isFirst_group df, hr, isFirst_iff_mem hdistinct,
          List.mem_filter, decide_eq_true_eq]
        constructor
        · exact fun hmem => .inr ⟨hnone, hmem, hr⟩
        · rintro (hfirst | ⟨-, hmem, -⟩)
          · exact absurd rfl (hnone r hfirst.mem)
          · exact hmem
      | some existing =>
        rw [mergedInto, byTimestamp, mem_sorted, mem_dropDuplicates, isFirst_append, isFirst_append,
          isFirst_iff_mem (h.distinct q existing hexisting), h.first q existing r hexisting]
        constructor
        · rintro (⟨hr, hfirst⟩ | ⟨hnone, hfirst⟩)
          · exact ⟨hr, .inl hfirst⟩
          · have hr : r.partition = q := by simpa using (List.mem_filter.mp hfirst.mem).2
            refine ⟨hr, .inr ⟨(h.not_earlier hexisting hr).mp hnone, ?_⟩⟩
            rw [← hr] at hfirst
            exact (isFirst_group df).mp hfirst
        · rintro ⟨hr, hfirst | ⟨hnone, hfirst⟩⟩
          · exact .inl ⟨hr, hfirst⟩
          · refine .inr ⟨(h.not_earlier hexisting hr).mpr hnone, ?_⟩
            rw [← hr]
            exact (isFirst_group df).mpr hfirst
    · next hq =>
      rw [h.first q rows r hrows]
      refine and_congr_right fun hr => ?_
      rw [isFirst_append]
      refine ⟨.inl, fun hfirst => hfirst.resolve_right fun hlater => ?_⟩
      exact hq (hkey.mpr ⟨r, hlater.2.mem, hr⟩)
  · intro q hq r hr hpartition
    rw [partitionRows_writeKlines] at hq
    split at hq
    · cases hq
    · next hnot =>
      rcases List.mem_append.mp hr with hr | hr
      · exact h.absent q hq r hr hpartition
      · exact hnot (hkey.mpr ⟨r, hr, hpartition⟩)

end Step

/-! ## What is read -/

/-- Reading answers the first rows of the history that are asked for, in the order of their time
and once each. -/
def ReadsFirst (store : KlineStore) (history : List KlineRow) : Prop :=
  ∀ symbol timeframe start stop,
    (readKlineRows store symbol timeframe start stop).Pairwise
      (fun a b => a.timestamp < b.timestamp) ∧
    ∀ r, r ∈ readKlineRows store symbol timeframe start stop ↔
      (r.symbol = symbol ∧ r.timeframe = timeframe) ∧
        (start.all (· ≤ r.timestamp) && stop.all (r.timestamp ≤ ·)) = true ∧ IsFirst history r

section Read

variable {store : KlineStore} {history : List KlineRow} {symbol timeframe : String}

/-- The files that `read_klines` reads. -/
def filesOf (store : KlineStore) (symbol timeframe : String) :
    List (KlinePartition × List KlineRow) :=
  store.rows.filter fun file =>
    (ofLex file.1).1 = symbol ∧ (ofLex (ofLex file.1).2).1 = timeframe

theorem partitionRows_of_mem {file : KlinePartition × List KlineRow} (h : file ∈ store.rows) :
    partitionRows store file.1 = some file.2 := by
  rw [partitionRows, Table.find_of_mem h]
  rfl

/-- The rows that are read are those of the files. -/
theorem rows_perm (store : KlineStore) (symbol timeframe : String) :
    (byTimestamp ((sorted (fun a b => a.1 ≤ b.1) (filesOf store symbol timeframe)).map
      Prod.snd).flatten).Perm ((filesOf store symbol timeframe).flatMap Prod.snd) := by
  refine (List.perm_insertionSort _ _).trans ?_
  rw [← List.flatMap_def]
  exact (List.perm_insertionSort _ _).flatMap_right _

theorem mem_filesOf_rows (h : Kept store history) {r : KlineRow} :
    r ∈ (filesOf store symbol timeframe).flatMap Prod.snd ↔
      (r.symbol = symbol ∧ r.timeframe = timeframe) ∧ IsFirst history r := by
  rw [List.mem_flatMap]
  constructor
  · rintro ⟨file, hfile, hr⟩
    obtain ⟨hmem, hnames⟩ := List.mem_filter.mp hfile
    obtain ⟨hpartition, hfirst⟩ := (h.first _ _ r (partitionRows_of_mem hmem)).mp hr
    rw [← hpartition] at hnames
    exact ⟨of_decide_eq_true hnames, hfirst⟩
  · rintro ⟨hnames, hfirst⟩
    cases hfind : store.find r.partition with
    | none =>
      exact absurd rfl (h.absent r.partition (by rw [partitionRows, hfind]; rfl) r hfirst.mem)
    | some file =>
      have hkey : file.1 = r.partition := Table.find_key hfind
      have hmem := Table.find_mem hfind
      refine ⟨file, List.mem_filter.mpr ⟨hmem, ?_⟩, ?_⟩
      · rw [hkey]
        exact decide_eq_true hnames
      · exact (h.first _ _ r (partitionRows_of_mem hmem)).mpr ⟨hkey.symm, hfirst⟩

theorem nodup_filesOf_rows (h : Kept store history) :
    (((filesOf store symbol timeframe).flatMap Prod.snd).map KlineRow.key).Nodup := by
  rw [List.map_flatMap, List.nodup_flatMap]
  have hmem : ∀ file ∈ filesOf store symbol timeframe, file ∈ store.rows :=
    fun file hfile => (List.mem_filter.mp hfile).1
  refine ⟨fun file hfile => h.distinct _ _ (partitionRows_of_mem (hmem file hfile)), ?_⟩
  have hnodup : (filesOf store symbol timeframe).Pairwise fun a b => a.1 ≠ b.1 :=
    (List.pairwise_map.mp store.nodup).filter _
  refine hnodup.imp_of_mem fun {a b} ha hb hne => ?_
  intro key hkey hkey'
  obtain ⟨r, hr, rfl⟩ := List.mem_map.mp hkey
  obtain ⟨r', hr', hsame⟩ := List.mem_map.mp hkey'
  have hra := ((h.first _ _ r (partitionRows_of_mem (hmem a ha))).mp hr).1
  have hrb := ((h.first _ _ r' (partitionRows_of_mem (hmem b hb))).mp hr').1
  exact hne (hra.symm.trans ((partition_of_key hsame).symm.trans hrb))

/-- Rows of one symbol and timeframe, sorted, with distinct keys, have distinct times. -/
theorem ascending_byTimestamp (symbol timeframe : String) {rows : List KlineRow}
    (hnames : ∀ r ∈ rows, r.symbol = symbol ∧ r.timeframe = timeframe)
    (hnodup : (rows.map KlineRow.key).Nodup) :
    (byTimestamp rows).Pairwise fun a b => a.timestamp < b.timestamp := by
  have hsorted : (byTimestamp rows).Pairwise fun a b => a.timestamp ≤ b.timestamp :=
    (pairwise_sorted _ (fun a b => by simpa using le_total a.timestamp b.timestamp)
      (fun a b c hab hbc => by
        simpa using le_trans (of_decide_eq_true hab) (of_decide_eq_true hbc)) rows).imp
          fun h => by simpa using h
  have hkeys : (byTimestamp rows).Pairwise fun a b => a.key ≠ b.key :=
    List.pairwise_map.mp (nodup_byTimestamp.mpr hnodup)
  refine (hsorted.and hkeys).imp_of_mem fun {a b} ha hb hab => lt_of_le_of_ne hab.1 fun heq => ?_
  obtain ⟨hsa, hta⟩ := hnames a (mem_sorted.mp ha)
  obtain ⟨hsb, htb⟩ := hnames b (mem_sorted.mp hb)
  refine hab.2 ?_
  unfold KlineRow.key
  rw [heq, hsa, hsb, hta, htb]

/-- **Reading** a store that keeps one row a key. -/
theorem Kept.reads (h : Kept store history) : ReadsFirst store history := by
  intro symbol timeframe start stop
  have hperm := rows_perm store symbol timeframe
  have hflat : ((sorted (fun a b => a.1 ≤ b.1) (filesOf store symbol timeframe)).map
      Prod.snd).flatten.Perm ((filesOf store symbol timeframe).flatMap Prod.snd) :=
    (List.perm_insertionSort _ _).symm.trans hperm
  constructor
  · refine List.Pairwise.filter _ (ascending_byTimestamp symbol timeframe
      (fun r hr => ((mem_filesOf_rows h).mp (hflat.mem_iff.mp hr)).1) ?_)
    exact (hflat.map _).nodup_iff.mpr (nodup_filesOf_rows h)
  · intro r
    have hmem : r ∈ byTimestamp ((sorted (fun a b => a.1 ≤ b.1)
        (filesOf store symbol timeframe)).map Prod.snd).flatten ↔ _ :=
      hperm.mem_iff.trans (mem_filesOf_rows h)
    show r ∈ List.filter _ _ ↔ _
    rw [List.mem_filter]
    refine (and_congr_left' hmem).trans ?_
    rw [and_assoc, and_comm (a := IsFirst history r)]

/-- Two stores that read the same first rows read the same. -/
theorem readKlineRows_congr {store' : KlineStore} {history' : List KlineRow}
    (h : ReadsFirst store history) (h' : ReadsFirst store' history')
    (hsame : ∀ r, IsFirst history r ↔ IsFirst history' r) (symbol timeframe : String)
    (start stop : Option ℤ) : readKlineRows store symbol timeframe start stop =
      readKlineRows store' symbol timeframe start stop := by
  obtain ⟨hsorted, hmem⟩ := h symbol timeframe start stop
  obtain ⟨hsorted', hmem'⟩ := h' symbol timeframe start stop
  have hnodup {rows : List KlineRow} (hrows : rows.Pairwise fun a b => a.timestamp < b.timestamp) :
      rows.Nodup := hrows.imp fun hlt heq => absurd (heq ▸ hlt) (lt_irrefl _)
  refine List.Perm.eq_of_pairwise (fun a b _ _ hab hba => absurd hab hba.asymm) hsorted hsorted' ?_
  refine (List.perm_ext_iff_of_nodup (hnodup hsorted) (hnodup hsorted')).mpr fun r => ?_
  rw [hmem, hmem', hsame]

end Read

/-! ## Runs -/

/-- The store, and the rows of all calls. -/
abbrev KlineRun := KlineStore × List KlineRow

def KlineRun.step (s : KlineRun) (df : List KlineRow) : KlineRun :=
  ((writeKlines s.1 df).2, s.2 ++ df)

/-- What should hold of every state: reading answers the first rows, and a batch that is written
again changes nothing that is read. -/
def OneRowPerKey (s : KlineRun) : Prop := ReadsFirst s.1 s.2

variable {history df : List KlineRow}

/-- A batch that is written again has no key that is new. -/
theorem isFirst_again :
    IsFirst (history ++ df ++ df) r ↔ IsFirst (history ++ df) r := by
  rw [isFirst_append]
  refine ⟨fun h => h.resolve_right fun hlater => ?_, .inl⟩
  exact hlater.1 r (List.mem_append_right _ hlater.2.mem) rfl

/-- Its partitions are there. -/
theorem freshDistinct_again (store : KlineStore) (df : List KlineRow) :
    FreshDistinct (writeKlines store df).2 df := by
  intro r hr hnone
  rw [partitionRows_writeKlines, if_pos (mem_keysOf.mpr ⟨r, hr, rfl⟩)] at hnone
  cases hnone

variable {store : KlineStore}

/-- **Writing again** changes nothing that is read. -/
theorem Kept.write_again (h : Kept store history)
    (hfresh : FreshDistinct store df) (symbol timeframe : String) (start stop : Option ℤ) :
    readKlineRows (writeKlines (writeKlines store df).2 df).2 symbol timeframe start stop =
      readKlineRows (writeKlines store df).2 symbol timeframe start stop :=
  readKlineRows_congr ((h.write hfresh).write (freshDistinct_again store df)).reads
    (h.write hfresh).reads (fun _ => isFirst_again) symbol timeframe start stop

/-- A partition that is written for the first time is read as it was given. -/
theorem freshDistinct_of_reads
    (hreads : ReadsFirst (writeKlines store df).2 (history ++ df)) : FreshDistinct store df := by
  intro r hr hnone
  have hrows := partitionRows_writeKlines store df r.partition
  rw [if_pos (mem_keysOf.mpr ⟨r, hr, rfl⟩), hnone] at hrows
  obtain ⟨file, hfind, hfile⟩ := Option.map_eq_some_iff.mp hrows
  have hmem : file ∈ filesOf (writeKlines store df).2 r.symbol r.timeframe := by
    refine List.mem_filter.mpr ⟨Table.find_mem hfind, ?_⟩
    rw [Table.find_key hfind]
    exact decide_eq_true ⟨rfl, rfl⟩
  have hsub : (df.filter fun x => decide (x.partition = r.partition)).Sublist
      ((filesOf (writeKlines store df).2 r.symbol r.timeframe).flatMap Prod.snd) := by
    have hfile' : file.2 = df.filter fun x => decide (x.partition = r.partition) := hfile
    rw [← hfile', List.flatMap_def]
    exact List.sublist_flatten_of_mem (List.mem_map_of_mem hmem)
  obtain ⟨hsorted, -⟩ := hreads r.symbol r.timeframe none none
  have hall : readKlineRows (writeKlines store df).2 r.symbol r.timeframe none none =
      byTimestamp ((sorted (fun a b => a.1 ≤ b.1)
        (filesOf (writeKlines store df).2 r.symbol r.timeframe)).map Prod.snd).flatten :=
    List.filter_eq_self.mpr fun _ _ => rfl
  rw [hall] at hsorted
  have hkeys : ((byTimestamp ((sorted (fun a b => a.1 ≤ b.1)
      (filesOf (writeKlines store df).2 r.symbol r.timeframe)).map Prod.snd).flatten).map
        KlineRow.key).Nodup := by
    refine List.pairwise_map.mpr (hsorted.imp fun {a b} hlt heq => ?_)
    rw [KlineRow.key, KlineRow.key, Prod.mk.injEq] at heq
    exact absurd hlt (by rw [heq.1]; exact lt_irrefl _)
  exact (((rows_perm _ r.symbol r.timeframe).map _).nodup_iff.mp hkeys).sublist (hsub.map _)

/-- **One row a key.** In a run of calls from an empty directory every state reads the first row of
each key, in the order of time and once, exactly when no call writes a partition for the first time
with a key twice; and then a batch that is written again changes nothing that is read. -/
theorem klines_kept (batches : List (List KlineRow)) :
    (Runs.Always KlineRun.step OneRowPerKey (Table.empty, []) batches ↔
      Runs.Meets KlineRun.step (fun s df => FreshDistinct s.1 df) (Table.empty, []) batches) ∧
    (Runs.Meets KlineRun.step (fun s df => FreshDistinct s.1 df) (Table.empty, []) batches →
      ∀ before df after, batches = before ++ df :: after →
        ∀ store, store = (Runs.run KlineRun.step (Table.empty, []) before).1 →
        ∀ symbol timeframe start stop,
          readKlineRows (writeKlines (writeKlines store df).2 df).2 symbol timeframe start stop =
            readKlineRows (writeKlines store df).2 symbol timeframe start stop) := by
  have hkept : ∀ (s : KlineRun) df, Kept s.1 s.2 → FreshDistinct s.1 df →
      Kept (s.step df).1 (s.step df).2 := fun s df h hfresh => h.write hfresh
  have hreads : ∀ (s : KlineRun) df, Kept s.1 s.2 → OneRowPerKey s →
      (OneRowPerKey (s.step df) ↔ FreshDistinct s.1 df) := fun s df h _ =>
    ⟨fun h => freshDistinct_of_reads h, fun hfresh => (h.write hfresh).reads⟩
  have hempty : OneRowPerKey (Table.empty, []) := kept_empty.reads
  constructor
  · exact Runs.always_iff_meets_of (I := fun s : KlineRun => Kept s.1 s.2) hkept hreads batches
      kept_empty hempty
  · rintro hmeets before df after rfl store rfl symbol timeframe start stop
    obtain ⟨hbefore, hdf, -⟩ := Runs.meets_append.mp hmeets
    have h : Kept (Runs.run KlineRun.step (Table.empty, []) before).1
        (Runs.run KlineRun.step (Table.empty, []) before).2 :=
      Runs.Meets.invariant (I := fun s : KlineRun => Kept s.1 s.2) (fun s df hok h => hkept s df h hok)
        before hbefore kept_empty
    exact h.write_again hdf symbol timeframe start stop

/-- Two rows of one key. -/
def twiceBatch : List KlineRow :=
  [⟨0, 1, 1, 1, 1, 1, 1, "BTC", "1h"⟩, ⟨0, 2, 2, 2, 2, 2, 2, "BTC", "1h"⟩]

/-- A batch with a key twice is read with it twice, until it is written again. -/
theorem key_kept_twice :
    readKlineRows (writeKlines Table.empty twiceBatch).2 "BTC" "1h" none none = twiceBatch ∧
      readKlineRows (writeKlines (writeKlines Table.empty twiceBatch).2 twiceBatch).2 "BTC" "1h"
        none none = [twiceBatch.head (by decide)] := by
  decide +kernel

end Greenfield.Data
