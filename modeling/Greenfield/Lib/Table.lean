import Mathlib.Data.List.Nodup
import Mathlib.Data.List.Perm.Basic
import Mathlib.Algebra.BigOperators.Group.List.Basic
import Mathlib.Tactic.Abel

/-!
# Keyed tables

`Table key` is a list of rows whose keys are pairwise distinct: a relation with a
primary key, or a dictionary in insertion order. The uniqueness of keys is a field,
so no later proof has to carry it. `find` reads a row; `insert` refuses a key that is
taken; `modify` is an `UPDATE ... WHERE key = k`; `upsert` inserts or replaces in
place; `erase` deletes.
-/

namespace Keyed

/-- Two lists with the same distinct keys, and the same value at each key, have one sum. -/
theorem sum_eq_of_keys {α β κ M : Type} [DecidableEq κ] [AddCommMonoid M] {f : α → κ} {g : β → κ}
    {v : α → M} {u : β → M} {as : List α} {bs : List β} (hf : (as.map f).Nodup)
    (hg : (bs.map g).Nodup) (hkeys : ∀ k, k ∈ as.map f ↔ k ∈ bs.map g)
    (hv : ∀ a ∈ as, ∀ b ∈ bs, f a = g b → v a = u b) : (as.map v).sum = (bs.map u).sum := by
  let val : κ → M := fun k => ((bs.find? fun b => g b = k).map u).getD 0
  have hval : ∀ b ∈ bs, val (g b) = u b := by
    intro b hb
    have hfind : bs.find? (fun x => decide (g x = g b)) = some b := by
      cases hx : bs.find? (fun x => decide (g x = g b)) with
      | none => simpa using List.find?_eq_none.mp hx b hb
      | some x =>
        have hk : g x = g b := by simpa using List.find?_some hx
        rw [List.inj_on_of_nodup_map hg (List.mem_of_find?_eq_some hx) hb hk]
    simp only [val, hfind, Option.map_some, Option.getD_some]
  have has : as.map v = (as.map f).map val := by
    rw [List.map_map]
    refine List.map_congr_left fun a ha => ?_
    obtain ⟨b, hb, hk⟩ := List.mem_map.mp ((hkeys (f a)).mp (List.mem_map_of_mem ha))
    rw [hv a ha b hb hk.symm, Function.comp_apply, ← hk, hval b hb]
  have hbs : bs.map u = (bs.map g).map val := by
    rw [List.map_map]
    exact List.map_congr_left fun b hb => (hval b hb).symm
  rw [has, hbs]
  exact (((List.perm_ext_iff_of_nodup hf hg).mpr hkeys).map val).sum_eq

structure Table {κ ρ : Type} (key : ρ → κ) where
  rows : List ρ
  nodup : (rows.map key).Nodup

namespace Table

variable {κ ρ : Type} {key : ρ → κ}

@[ext] theorem ext_rows {t u : Table key} (h : t.rows = u.rows) : t = u := by
  cases t; cases u; cases h; rfl

def empty : Table key := ⟨[], List.nodup_nil⟩

variable [DecidableEq κ]

def find (t : Table key) (k : κ) : Option ρ := t.rows.find? fun r => key r = k

/-- A new row at the end, or `none` when its key is taken. -/
def insert (t : Table key) (r : ρ) : Option (Table key) :=
  if h : key r ∈ t.rows.map key then none
  else some ⟨t.rows ++ [r], by
    rw [List.map_append, List.map_singleton]
    exact t.nodup.append (List.nodup_singleton _) (by simpa using h)⟩

/-- Rewrite the row at `k`, keeping its key. -/
def modify (t : Table key) (k : κ) (f : ρ → ρ) (hf : ∀ r, key (f r) = key r) : Table key where
  rows := t.rows.map fun r => if key r = k then f r else r
  nodup := by
    have e : (key ∘ fun r => if key r = k then f r else r) = key := by
      funext r; simp only [Function.comp]; split <;> simp [hf]
    rw [List.map_map, e]; exact t.nodup

/-- Append `r`, or replace the row that has its key. -/
def upsert (t : Table key) (r : ρ) : Table key :=
  match t.insert r with
  | some u => u
  | none => t.modify (key r) (fun x => if key x = key r then r else x) fun x => by
    split <;> simp_all

def erase (t : Table key) (k : κ) : Table key where
  rows := t.rows.filter fun r => key r ≠ k
  nodup := t.nodup.sublist (List.Sublist.map key List.filter_sublist)

/-! ## Reading -/

variable {t u : Table key} {k j : κ} {r : ρ}

@[simp] theorem find_empty : (empty : Table key).find k = none := rfl

theorem find_key (h : t.find k = some r) : key r = k := by
  simpa using List.find?_some h

theorem find_mem (h : t.find k = some r) : r ∈ t.rows := List.mem_of_find?_eq_some h

theorem find_none : t.find k = none ↔ ∀ r ∈ t.rows, key r ≠ k := by
  simp [find]

theorem find_none_iff_mem : t.find k = none ↔ k ∉ t.rows.map key := by
  rw [find_none, List.mem_map]
  exact ⟨fun h ⟨r, hr, e⟩ => h r hr e, fun h r hr e => h ⟨r, hr, e⟩⟩

omit [DecidableEq κ] in
theorem eq_of_key_eq {a b : ρ} (ha : a ∈ t.rows) (hb : b ∈ t.rows) (e : key a = key b) : a = b :=
  List.inj_on_of_nodup_map t.nodup ha hb e

/-- Every row is what its key finds. -/
theorem find_of_mem (h : r ∈ t.rows) : t.find (key r) = some r := by
  cases hf : t.find (key r) with
  | none => exact absurd rfl (find_none.mp hf r h)
  | some x => rw [eq_of_key_eq (find_mem hf) h (find_key hf)]

theorem mem_iff_find : r ∈ t.rows ↔ t.find (key r) = some r :=
  ⟨find_of_mem, find_mem⟩

/-! ## Writing -/

theorem insert_eq_some : t.insert r = some u ↔ t.find (key r) = none ∧ u.rows = t.rows ++ [r] := by
  unfold insert
  rw [find_none_iff_mem]
  split
  · simp_all
  · rename_i h
    simp only [h, not_false_iff, true_and, Option.some.injEq]
    exact ⟨fun e => e ▸ rfl, fun e => ext_rows e.symm⟩

theorem insert_isSome (h : t.find (key r) = none) : ∃ u, t.insert r = some u := by
  refine ⟨⟨t.rows ++ [r], ?_⟩, insert_eq_some.mpr ⟨h, rfl⟩⟩
  rw [List.map_append, List.map_singleton]
  exact t.nodup.append (List.nodup_singleton _) (by simpa using find_none_iff_mem.mp h)

theorem find_insert (h : t.insert r = some u) :
    u.find k = if k = key r then some r else t.find k := by
  obtain ⟨hn, hrows⟩ := insert_eq_some.mp h
  unfold find at hn ⊢
  rw [hrows, List.find?_append]
  by_cases e : k = key r
  · subst e; simp [hn]
  · have e' : ¬ key r = k := fun h => e h.symm
    simp [e, e']

variable {f : ρ → ρ} {hf : ∀ r, key (f r) = key r}

theorem find_modify :
    (t.modify k f hf).find j = if j = k then (t.find k).map f else t.find j := by
  have hcomp : ((fun r => decide (key r = j)) ∘ fun r => if key r = k then f r else r) =
      fun r => decide (key r = j) := by
    funext r; simp only [Function.comp]; split <;> simp [hf]
  simp only [find, modify, List.find?_map, hcomp]
  split
  · next e =>
    subst e
    cases hr : List.find? (fun r => decide (key r = j)) t.rows with
    | none => rfl
    | some r =>
      have : key r = j := by simpa using List.find?_some hr
      simp [this]
  · next e =>
    cases hr : List.find? (fun r => decide (key r = j)) t.rows with
    | none => rfl
    | some r =>
      have : key r = j := by simpa using List.find?_some hr
      simp [this, e]

variable {x : ρ}

theorem mem_modify :
    x ∈ (t.modify k f hf).rows ↔ (x ∈ t.rows ∧ key x ≠ k) ∨ ∃ r, t.find k = some r ∧ x = f r := by
  simp only [modify, List.mem_map]
  constructor
  · rintro ⟨r, hr, rfl⟩
    by_cases e : key r = k
    · subst e; simp [find_of_mem hr]
    · simp [e, hr]
  · rintro (⟨hx, hk⟩ | ⟨r, hr, rfl⟩)
    · exact ⟨x, hx, by simp [hk]⟩
    · exact ⟨r, find_mem hr, by simp [find_key hr]⟩

variable {M : Type}

/-- Where only the row at `k` counts otherwise after a rewrite, a sum changes by that row. -/
theorem sum_modify [AddCommGroup M]
    {v v' : ρ → M} (h : t.find k = some r) (hv : ∀ x ∈ t.rows, key x ≠ k → v' x = v x) :
    ((t.modify k f hf).rows.map v').sum = (t.rows.map v).sum - v r + v' (f r) := by
  have hmem := find_mem h
  have hk := find_key h
  have hnodup := t.nodup
  simp only [modify]
  clear h
  revert hv hmem hnodup
  generalize t.rows = rows
  intro hv hmem hnodup
  induction rows with
  | nil => cases hmem
  | cons x xs ih =>
    rw [List.map_cons, List.nodup_cons] at hnodup
    simp only [List.map_cons, List.sum_cons]
    rcases List.mem_cons.mp hmem with rfl | hr
    · -- The row is at the head, so the tail has other keys.
      have hne : ∀ y ∈ xs, key y ≠ k := fun y hy e =>
        hnodup.1 (by rw [hk, ← e]; exact List.mem_map_of_mem hy)
      have htail : (xs.map fun r => if key r = k then f r else r).map v' = xs.map v := by
        rw [List.map_map]
        refine List.map_congr_left fun y hy => ?_
        rw [Function.comp_apply, if_neg (hne y hy)]
        exact hv y (List.mem_cons_of_mem r hy) (hne y hy)
      rw [htail, if_pos hk]
      abel
    · have hne : key x ≠ k := fun e =>
        hnodup.1 (by rw [e, ← hk]; exact List.mem_map_of_mem hr)
      rw [ih (fun y hy => hv y (List.mem_cons_of_mem x hy)) hr hnodup.2, if_neg hne,
        hv x List.mem_cons_self hne]
      abel

theorem find_upsert : (t.upsert r).find k = if k = key r then some r else t.find k := by
  unfold upsert
  cases hi : t.insert r with
  | some u => exact find_insert hi
  | none =>
    rw [find_modify]
    split
    · cases hf : t.find (key r) with
      | none => obtain ⟨u, hu⟩ := insert_isSome hf; rw [hi] at hu; cases hu
      | some x => simp [find_key hf]
    · rfl

theorem upsert_rows (h : t.find (key r) = none) : (t.upsert r).rows = t.rows ++ [r] := by
  obtain ⟨u, hu⟩ := insert_isSome h
  unfold upsert
  rw [hu]
  exact (insert_eq_some.mp hu).2

theorem mem_upsert (h : x ∈ (t.upsert r).rows) : x = r ∨ x ∈ t.rows := by
  have hfind := find_of_mem h
  rw [find_upsert] at hfind
  split at hfind
  · exact .inl (Option.some.inj hfind).symm
  · exact .inr (find_mem hfind)

theorem length_upsert_le (t : Table key) (r : ρ) :
    (t.upsert r).rows.length ≤ t.rows.length + 1 := by
  unfold upsert
  split
  · next u hu => simp [(insert_eq_some.mp hu).2]
  · simp [modify]

theorem find_erase : (t.erase k).find j = if j = k then none else t.find j := by
  unfold find erase
  rw [List.find?_filter]
  split
  · next e => subst e; simp
  · next e =>
    congr 1
    funext x
    by_cases hx : key x = j <;> simp [hx, e]

/-- A key has one row. -/
theorem filter_key (h : r ∈ t.rows) : t.rows.filter (fun x => key x = key r) = [r] := by
  have hnodup : t.rows.Nodup := List.Nodup.of_map key t.nodup
  refine List.perm_singleton.mp ((List.perm_ext_iff_of_nodup (hnodup.filter _)
    (List.nodup_singleton r)).mpr fun x => ?_)
  rw [List.mem_filter, List.mem_singleton, decide_eq_true_eq]
  constructor
  · rintro ⟨hx, hk⟩
    exact eq_of_key_eq hx h hk
  · rintro rfl
    exact ⟨h, rfl⟩

/-- A sum without a row. -/
theorem sum_erase [AddCommMonoid M] (v : ρ → M) (h : r ∈ t.rows) :
    (t.rows.map v).sum = ((t.erase (key r)).rows.map v).sum + v r := by
  have hperm := List.filter_append_perm (fun x => decide (key x = key r)) t.rows
  rw [filter_key h] at hperm
  rw [← (hperm.map v).sum_eq, List.map_append, List.sum_append, List.map_singleton,
    List.sum_singleton, add_comm]
  congr 3
  exact List.filter_congr fun x _ => by simp

/-- A sum without what is at a key. -/
theorem sum_erase_find [AddCommGroup M] (v : ρ → M) : ((t.erase k).rows.map v).sum =
    (t.rows.map v).sum - ((t.find k).map v).getD 0 := by
  cases hfind : t.find k with
  | none =>
    have hall : (t.erase k).rows = t.rows :=
      List.filter_eq_self.mpr fun r hr => by simpa using find_none.mp hfind r hr
    simp [hall]
  | some r =>
    obtain rfl := find_key hfind
    rw [sum_erase v (find_mem hfind)]
    simp

/-- What is written replaces what was at its key. -/
theorem sum_upsert [AddCommGroup M] (v : ρ → M) : ((t.upsert r).rows.map v).sum =
    (t.rows.map v).sum - ((t.find (key r)).map v).getD 0 + v r := by
  cases hfind : t.find (key r) with
  | none =>
    rw [upsert_rows hfind]
    simp
  | some x =>
    have hkey := find_key hfind
    have htaken : t.insert r = none := by
      cases hi : t.insert r with
      | none => rfl
      | some u =>
        rw [(insert_eq_some.mp hi).1] at hfind
        cases hfind
    unfold upsert
    simp only [htaken]
    rw [sum_modify hfind fun _ _ _ => rfl, if_pos hkey]
    rfl

theorem mem_erase : x ∈ (t.erase k).rows ↔ x ∈ t.rows ∧ key x ≠ k := by
  simp [erase]

end Table

end Keyed
