import Greenfield.Lib.Effect
import Greenfield.Lib.Table

/-!
# Files

A store of files by path, and the operations of programs on it. A file is filled by appending,
and an append can stop anywhere; a file takes the place of another at once. Any operation can
fail before it does anything. `Event` records what a program has read, renamed and removed.
-/

namespace Files

open Effects Keyed

variable {π β ω ε : Type} [DecidableEq π]

/-- The files, each with its bytes. -/
abbrev Store (π β : Type) := Table (Prod.fst : π × List β → π)

namespace Store

def read (s : Store π β) (p : π) : Option (List β) := (s.find p).map Prod.snd

def put (s : Store π β) (p : π) (c : List β) : Store π β := s.upsert (p, c)

def remove (s : Store π β) (p : π) : Store π β := s.erase p

def paths (s : Store π β) : List π := s.rows.map Prod.fst

variable {s : Store π β} {p q : π} {c : List β}

@[simp] theorem read_put : (s.put p c).read q = if q = p then some c else s.read q := by
  unfold read put
  rw [Table.find_upsert]
  split <;> rfl

@[simp] theorem read_remove : (s.remove p).read q = if q = p then none else s.read q := by
  unfold read remove
  rw [Table.find_erase]
  split <;> rfl

theorem mem_paths : p ∈ s.paths ↔ ∃ c, s.read p = some c := by
  unfold paths read
  rw [← Option.isSome_iff_exists, Option.isSome_map, Option.isSome_iff_ne_none, ne_eq,
    Table.find_none_iff_mem, not_not]

theorem remove_absent (h : s.read p = none) : s.remove p = s := by
  apply Table.ext_rows
  refine List.filter_eq_self.mpr fun r hr => decide_eq_true ?_
  exact Table.find_none.mp (Option.map_eq_none_iff.mp h) r hr

theorem put_rows_new (h : s.read p = none) : (s.put p c).rows = s.rows ++ [(p, c)] :=
  Table.upsert_rows (Option.map_eq_none_iff.mp h)

theorem put_rows_old (h : s.read p ≠ none) :
    (s.put p c).rows = s.rows.map fun r => if r.1 = p then (p, c) else r := by
  unfold put Table.upsert
  split
  · next u hu =>
    exact absurd (congrArg (Option.map Prod.snd) (Table.insert_eq_some.mp hu).1) h
  · refine List.map_congr_left fun r _ => ?_
    by_cases hr : r.1 = p
    · simp only [hr, if_pos]
    · simp only [hr, if_false]

/-- What was put is not in the rest. -/
theorem remove_put : (s.put p c).remove p = s.remove p := by
  apply Table.ext_rows
  show (s.put p c).rows.filter (fun r => decide (r.1 ≠ p)) = s.rows.filter fun r => decide (r.1 ≠ p)
  by_cases h : s.read p = none
  · rw [put_rows_new h, List.filter_append]
    simp
  · rw [put_rows_old h, List.filter_map]
    have hcongr : ∀ r ∈ s.rows, ((fun r => decide (r.1 ≠ p)) ∘ fun r => if r.1 = p then (p, c) else r) r =
        decide (r.1 ≠ p) := by
      intro r _
      by_cases hr : r.1 = p
      · simp [hr]
      · simp [hr]
    rw [List.filter_congr hcongr]
    refine (List.map_congr_left fun r hr => ?_).trans (List.map_id _)
    exact if_neg (of_decide_eq_true (List.mem_filter.mp hr).2)

/-- What was put first is gone. -/
theorem put_put {c' : List β} : (s.put p c).put p c' = s.put p c' := by
  have hne : (s.put p c).read p ≠ none := by
    rw [read_put, if_pos rfl]
    exact Option.some_ne_none c
  apply Table.ext_rows
  rw [put_rows_old hne]
  by_cases h : s.read p = none
  · rw [put_rows_new h, put_rows_new h, List.map_append, List.map_singleton, if_pos rfl]
    congr 1
    refine (List.map_congr_left fun r hr => ?_).trans (List.map_id _)
    exact if_neg (Table.find_none.mp (Option.map_eq_none_iff.mp h) r hr)
  · rw [put_rows_old h, put_rows_old h, List.map_map]
    refine List.map_congr_left fun r _ => ?_
    by_cases hr : r.1 = p
    · simp [hr]
    · simp [hr]

/-- The store without the files at `ps`. -/
def removeAll (s : Store π β) (ps : List π) : Store π β := ps.foldl remove s

theorem removeAll_cons (ps : List π) : s.removeAll (p :: ps) = (s.remove p).removeAll ps := rfl

theorem read_removeAll {ps : List π} : (s.removeAll ps).read q = if q ∈ ps then none else s.read q := by
  induction ps generalizing s with
  | nil => simp [removeAll]
  | cons p ps ih =>
    rw [removeAll_cons, ih, read_remove]
    by_cases hq : q = p
    · simp [hq]
    · simp [hq]

theorem rows_removeAll {ps : List π} :
    (s.removeAll ps).rows = s.rows.filter fun r => decide (r.1 ∉ ps) := by
  induction ps generalizing s with
  | nil => simp [removeAll]
  | cons p ps ih =>
    rw [removeAll_cons, ih]
    show (s.rows.filter fun r => decide (r.1 ≠ p)).filter _ = _
    rw [List.filter_filter]
    refine List.filter_congr fun r _ => ?_
    by_cases hr : r.1 = p
    · simp [hr]
    · simp [hr]

/-! ### Sums over the files -/

section Sums

variable {M : Type} [AddCommMonoid M] (v : π × List β → M)

def sum (s : Store π β) : M := (s.rows.map v).sum

theorem sum_remove (h : s.read p = some c) : s.sum v = (s.remove p).sum v + v (p, c) := by
  obtain ⟨⟨p', c'⟩, hfind, hc⟩ := Option.map_eq_some_iff.mp h
  cases Table.find_key hfind
  cases hc
  exact Table.sum_erase v (Table.find_mem hfind)

theorem sum_put (p : π) (c : List β) (s : Store π β) :
    (s.put p c).sum v = (s.remove p).sum v + v (p, c) := by
  rw [sum_remove v (p := p) (c := c) (by rw [read_put, if_pos rfl]), remove_put]

/-- A sum without the files at `ps`, which are there. -/
theorem sum_removeAll {ps : List π} (hnodup : ps.Nodup) {f : π → List β}
    (hread : ∀ p ∈ ps, s.read p = some (f p)) :
    s.sum v = (s.removeAll ps).sum v + (ps.map fun p => v (p, f p)).sum := by
  induction ps generalizing s with
  | nil => simp [removeAll]
  | cons p ps ih =>
    obtain ⟨hp, hps⟩ := List.forall_mem_cons.mp hread
    have hrest : ∀ q ∈ ps, (s.remove p).read q = some (f q) := by
      intro q hq
      have hne : q ≠ p := fun heq => (List.nodup_cons.mp hnodup).1 (heq ▸ hq)
      rw [read_remove, if_neg hne]
      exact hps q hq
    rw [sum_remove v hp, ih (List.nodup_cons.mp hnodup).2 hrest, removeAll_cons, List.map_cons,
      List.sum_cons, add_assoc, add_comm (List.sum _)]

end Sums

end Store

/-! ## Operations -/

/-- `ω` is what a program asks besides the files. -/
inductive Op (π β ω : Type) where
  | list
  | isFile (p : π)
  | read (p : π)
  /-- Open a file that must not exist. -/
  | create (p : π)
  | truncate (p : π)
  | append (p : π) (data : List β)
  | replace (p q : π)
  | unlink (p : π) (missingOk : Bool)
  | ask (o : ω)

/-- What an operation answers. -/
abbrev Res (π β : Type) {ω : Type} (Ans : ω → Type) : Op π β ω → Type
  | .list => List π
  | .isFile _ => Bool
  | .read _ => List β
  | .ask o => Ans o
  | _ => Unit

variable {Ans : ω → Type}

/-- What an operation can do. -/
inductive Exec (Ans : ω → Type) (osError : ε) : (o : Op π β ω) → Store π β → Except ε (Res π β Ans o) →
    Store π β → Prop where
  | list {s : Store π β} : Exec Ans osError .list s (.ok s.paths) s
  | isFile {s : Store π β} {p : π} : Exec Ans osError (.isFile p) s (.ok (s.read p).isSome) s
  | read {s : Store π β} {p : π} {c : List β} (h : s.read p = some c) :
      Exec Ans osError (.read p) s (.ok c) s
  | create {s : Store π β} {p : π} (h : s.read p = none) :
      Exec Ans osError (.create p) s (.ok ()) (s.put p [])
  | truncate {s : Store π β} {p : π} : Exec Ans osError (.truncate p) s (.ok ()) (s.put p [])
  | append {s : Store π β} {p : π} {c data : List β} (h : s.read p = some c) :
      Exec Ans osError (.append p data) s (.ok ()) (s.put p (c ++ data))
  /-- The append stops after a part of the data. -/
  | cut {s : Store π β} {p : π} {c data part : List β} (h : s.read p = some c)
      (hpart : part <+: data) : Exec Ans osError (.append p data) s (.error osError) (s.put p (c ++ part))
  | replace {s : Store π β} {p q : π} {c : List β} (h : s.read p = some c) :
      Exec Ans osError (.replace p q) s (.ok ()) ((s.remove p).put q c)
  | unlink {s : Store π β} {p : π} {missingOk : Bool} (h : missingOk = true ∨ s.read p ≠ none) :
      Exec Ans osError (.unlink p missingOk) s (.ok ()) (s.remove p)
  | ask {s : Store π β} {o : ω} (a : Ans o) : Exec Ans osError (.ask o) s (.ok a) s
  | fails {s : Store π β} {o : Op π β ω} : Exec Ans osError o s (.error osError) s

/-- The operations when none fails by itself, and `answers` is what is answered. -/
def handle (osError : ε) (answers : (o : ω) → Ans o) :
    (o : Op π β ω) → Store π β → Except ε (Res π β Ans o) × Store π β
  | .list, s => (.ok s.paths, s)
  | .isFile p, s => (.ok (s.read p).isSome, s)
  | .read p, s =>
    match s.read p with
    | some c => (.ok c, s)
    | none => (.error osError, s)
  | .create p, s =>
    match s.read p with
    | some _ => (.error osError, s)
    | none => (.ok (), s.put p [])
  | .truncate p, s => (.ok (), s.put p [])
  | .append p data, s =>
    match s.read p with
    | some c => (.ok (), s.put p (c ++ data))
    | none => (.error osError, s)
  | .replace p q, s =>
    match s.read p with
    | some c => (.ok (), (s.remove p).put q c)
    | none => (.error osError, s)
  | .unlink p missingOk, s =>
    if missingOk || (s.read p).isSome then (.ok (), s.remove p) else (.error osError, s)
  | .ask o, s => (.ok (answers o), s)

theorem exec_handle (osError : ε) (answers : (o : ω) → Ans o) (o : Op π β ω) (s : Store π β) :
    Exec Ans osError o s (handle osError answers o s).1 (handle osError answers o s).2 := by
  cases o with
  | list => exact .list
  | isFile p => exact .isFile
  | read p =>
    cases h : s.read p with
    | some c =>
      simp only [handle, h]
      exact .read h
    | none =>
      simp only [handle, h]
      exact .fails
  | create p =>
    cases h : s.read p with
    | some c =>
      simp only [handle, h]
      exact .fails
    | none =>
      simp only [handle, h]
      exact .create h
  | truncate p => exact .truncate
  | append p data =>
    cases h : s.read p with
    | some c =>
      simp only [handle, h]
      exact .append h
    | none =>
      simp only [handle, h]
      exact .fails
  | replace p q =>
    cases h : s.read p with
    | some c =>
      simp only [handle, h]
      exact .replace h
    | none =>
      simp only [handle, h]
      exact .fails
  | unlink p missingOk =>
    simp only [handle]
    split
    · next h =>
      refine .unlink ?_
      rw [Bool.or_eq_true, Option.isSome_iff_ne_none] at h
      exact h
    · exact .fails
  | ask o => exact .ask _

/-! ## Operations that fail -/

/-- What an operation that fails leaves: of an append a part of its data. -/
def cut (part : ℕ) : Op π β ω → Store π β → Store π β
  | .append p data, s =>
    match s.read p with
    | some c => s.put p (c ++ data.take part)
    | none => s
  | _, s => s

/-- The operations with their number, of which those that `faults` names fail. -/
def faulty (osError : ε) (answers : ℕ → (o : ω) → Ans o) (faults : ℕ → Option ℕ) (o : Op π β ω)
    (w : ℕ × Store π β) : Except ε (Res π β Ans o) × ℕ × Store π β :=
  match faults w.1 with
  | none => ((handle osError (answers w.1) o w.2).1, w.1 + 1, (handle osError (answers w.1) o w.2).2)
  | some part => (.error osError, w.1 + 1, cut part o w.2)

/-- The operations as they are answered, where any may fail. -/
def Failing (osError : ε) (answers : (o : ω) → Ans o) : Sem (Op π β ω) (Res π β Ans) ε (Store π β) :=
  fun o s r s' => (r, s') = handle osError answers o s ∨ ∃ part, r = .error osError ∧ s' = cut part o s

section Failing

variable {osError : ε} {answers : (o : ω) → Ans o} {faults : ℕ → Option ℕ} {α : Type}
  {I : Store π β → Prop} {Q : α → Store π β → Prop} {E : ε → Store π β → Prop}
  {p : Prog (Op π β ω) (Res π β Ans) ε α} {s : Store π β}

theorem failing_faulty (n : ℕ) (o : Op π β ω) (s : Store π β) :
    Failing osError answers o s (faulty osError (fun _ => answers) faults o (n, s)).1
      (faulty osError (fun _ => answers) faults o (n, s)).2.2 := by
  unfold faulty
  split
  · exact .inl rfl
  · exact .inr ⟨_, rfl, rfl⟩

variable (faults) in
/-- What a program leaves of which operations fail. -/
theorem wp_run_faulty (h : wp (Failing osError answers) I p Q E s) (n : ℕ) :
    (∀ a w, p.run (faulty osError (fun _ => answers) faults) (n, s) = (.ok a, w) → Q a w.2) ∧
      ∀ e w, p.run (faulty osError (fun _ => answers) faults) (n, s) = (.error e, w) → E e w.2 := by
  induction p generalizing n s with
  | ret a =>
    constructor
    · rintro _ _ ⟨⟩
      exact h
    · rintro _ _ ⟨⟩
  | raise e =>
    constructor
    · rintro _ _ ⟨⟩
    · rintro _ _ ⟨⟩
      exact h
  | call o k ih => exact ih _ (h.2 _ _ (failing_faulty n o s)) _

/-- What it leaves where it is stopped. -/
theorem wp_stopped_faulty (h : wp (Failing osError answers) I p (fun _ => I) (fun _ => I) s) (n : ℕ) :
    ∀ k, I (stopped (faulty osError (fun _ => answers) faults) k p (n, s)).2 := by
  intro k
  induction p generalizing n s k with
  | ret a =>
    rw [stopped_ret]
    exact h
  | raise e =>
    rw [stopped_raise]
    exact h
  | call o next ih =>
    cases k with
    | zero =>
      rw [stopped_zero]
      exact h.1
    | succ k => exact ih _ (h.2 _ _ (failing_faulty n o s)) _ k

variable {o : Op π β ω}

variable {f : Res π β Ans o → Prog (Op π β ω) (Res π β Ans) ε α}

theorem run_faulty_some
    {n part : ℕ} (h : faults n = some part) :
    (Prog.perform o >>= f).run (faulty osError (fun _ => answers) faults) (n, s) =
      (.error osError, n + 1, cut part o s) := by
  simp [Prog.run_bind, faulty, h]

variable {s' : Store π β}

theorem run_faulty_none
    {n : ℕ} {a : Res π β Ans o} (h : faults n = none)
    (ho : handle osError answers o s = (.ok a, s')) :
    (Prog.perform o >>= f).run (faulty osError (fun _ => answers) faults) (n, s) =
      (f a).run (faulty osError (fun _ => answers) faults) (n + 1, s') := by
  simp [Prog.run_bind, faulty, h, ho]

/-- What an operation that raises leaves. -/
theorem handle_error {e : ε}
    (h : handle osError answers o s = (.error e, s')) : s' = s := by
  cases o with
  | read p | create p | append p data | replace p q =>
    simp only [handle] at h
    split at h
    · cases h <;> rfl
    · cases h <;> rfl
  | unlink p missingOk =>
    simp only [handle] at h
    split at h
    · cases h
    · cases h
      rfl
  | _ => cases h

theorem handle_read_ok {p : π} {c : List β}
    (h : handle osError answers (.read p) s = (.ok c, s')) : s.read p = some c ∧ s' = s := by
  simp only [handle] at h
  split at h
  · next hread =>
    cases h
    exact ⟨hread, rfl⟩
  · cases h

theorem handle_append_ok {p : π} {data : List β} {u : Unit}
    (h : handle osError answers (.append p data) s = (.ok u, s')) :
    ∃ c, s.read p = some c ∧ s' = s.put p (c ++ data) := by
  simp only [handle] at h
  split at h
  · next c hread =>
    cases h
    exact ⟨c, hread, rfl⟩
  · cases h

theorem handle_replace_ok {p q : π} {u : Unit}
    (h : handle osError answers (.replace p q) s = (.ok u, s')) :
    ∃ c, s.read p = some c ∧ s' = (s.remove p).put q c := by
  simp only [handle] at h
  split at h
  · next c hread =>
    cases h
    exact ⟨c, hread, rfl⟩
  · cases h

/-- An operation that answers, or fails and leaves what the crash condition asks for. -/
theorem wp_failing_op {Q : Res π β Ans o → Store π β → Prop} (hI : I s)
    (hcut : ∀ part, I (cut part o s))
    (hok : ∀ a s', handle osError answers o s = (.ok a, s') → Q a s') :
    wp (Failing osError answers) I (Prog.perform o) Q (fun _ => I) s := by
  refine wp_perform.mpr ⟨hI, fun r s' hx => ?_⟩
  rcases hx with hx | ⟨part, rfl, rfl⟩
  · constructor
    · rintro a rfl
      exact hok a s' hx.symm
    · rintro e rfl
      rw [handle_error hx.symm]
      exact hI
  · exact answer_error (hcut part)

theorem wp_failing (hI : I s)
    (hcut : ∀ part, I (cut part o s))
    (hok : ∀ a s', handle osError answers o s = (.ok a, s') →
      wp (Failing osError answers) I (f a) Q (fun _ => I) s') :
    wp (Failing osError answers) I (Prog.perform o >>= f) Q (fun _ => I) s :=
  (wp_bind f).mpr (wp_failing_op hI hcut hok)

end Failing

/-! ## What was done -/

/-- A file that was read, one that took the place of another, one that was removed. -/
inductive Event (π β : Type) where
  | read (p : π) (c : List β)
  | replaced (p q : π)
  | unlinked (p : π)

/-- The record of the operations that did something. -/
def record : (o : Op π β ω) → Store π β → Except ε (Res π β Ans o) → Store π β →
    List (Event π β) → List (Event π β)
  | .read p, _, .ok c, _, log => log ++ [.read p c]
  | .replace p q, _, .ok (), _, log => log ++ [.replaced p q]
  | .unlink p _, _, .ok (), _, log => log ++ [.unlinked p]
  | _, _, _, _, log => log

/-- The operations, with the record of them. -/
abbrev Traced (Ans : ω → Type) (osError : ε) : Sem (Op π β ω) (Res π β Ans) ε (Store π β × List (Event π β)) :=
  withGhost (Exec Ans osError) record

/-- The operations as `handle` answers them, with the record. -/
def handleTraced (osError : ε) (answers : (o : ω) → Ans o) (o : Op π β ω)
    (w : Store π β × List (Event π β)) :
    Except ε (Res π β Ans o) × Store π β × List (Event π β) :=
  let r := handle osError answers o w.1
  (r.1, r.2, record o w.1 r.1 r.2 w.2)

theorem traced_handle (osError : ε) (answers : (o : ω) → Ans o) (o : Op π β ω)
    (w : Store π β × List (Event π β)) :
    Traced Ans osError o w (handleTraced osError answers o w).1
      (handleTraced osError answers o w).2 :=
  ⟨exec_handle osError answers o w.1, rfl⟩

section Answers

variable {osError : ε} {answers : (o : ω) → Ans o} {s : Store π β} {log : List (Event π β)} {p q : π}
  {c data : List β}

theorem handleTraced_isFile :
    handleTraced osError answers (.isFile p) (s, log) = (.ok (s.read p).isSome, s, log) := rfl

theorem handleTraced_truncate :
    handleTraced osError answers (.truncate p) (s, log) = (.ok (), s.put p [], log) := rfl

theorem handleTraced_ask (o : ω) :
    handleTraced osError answers (.ask o) (s, log) = (.ok (answers o), s, log) := rfl

theorem handleTraced_read (h : s.read p = some c) :
    handleTraced osError answers (.read p) (s, log) = (.ok c, s, log ++ [.read p c]) := by
  simp only [handleTraced, handle, h, record]

theorem handleTraced_append (h : s.read p = some c) :
    handleTraced osError answers (.append p data) (s, log) =
      (.ok (), s.put p (c ++ data), log) := by
  simp only [handleTraced, handle, h, record]

theorem handleTraced_replace (h : s.read p = some c) :
    handleTraced osError answers (.replace p q) (s, log) =
      (.ok (), (s.remove p).put q c, log ++ [.replaced p q]) := by
  simp only [handleTraced, handle, h, record]

theorem handleTraced_unlink :
    handleTraced osError answers (.unlink p true) (s, log) =
      (.ok (), s.remove p, log ++ [.unlinked p]) := by
  simp only [handleTraced, handle, Bool.true_or, if_true, record]

end Answers

omit [DecidableEq π] in
theorem record_append (o : Op π β ω) (s s' : Store π β) (r : Except ε (Res π β Ans o))
    (log : List (Event π β)) : record o s r s' log = log ++ record o s r s' [] := by
  cases o <;> cases r <;> simp [record]

/-- What a program does is recorded after what was recorded before. -/
theorem steps_log {osError : ε} {α : Type} {p p' : Prog (Op π β ω) (Res π β Ans) ε α}
    {w w' : Store π β × List (Event π β)} (h : Steps (Traced Ans osError) p w p' w') :
    ∃ new, w'.2 = w.2 ++ new ∧
      ∀ log, Steps (Traced Ans osError) p (w.1, log) p' (w'.1, log ++ new) := by
  induction h with
  | refl p w => exact ⟨[], (List.append_nil _).symm, fun log => by
      rw [List.append_nil]
      exact .refl p _⟩
  | @head o k r w w₁ w₂ p hx _ ih =>
    obtain ⟨new, hnew, hsteps⟩ := ih
    refine ⟨record o w.1 r w₁.1 [] ++ new, ?_, fun log => ?_⟩
    · rw [hnew, hx.2, record_append, List.append_assoc]
    · rw [← List.append_assoc, ← record_append]
      have hhead : Traced Ans osError o (w.1, log) r (w₁.1, record o w.1 r w₁.1 log) := ⟨hx.1, rfl⟩
      exact .head hhead (hsteps _)

section Rules

variable {osError : ε} {s : Store π β} {log : List (Event π β)}
  {I : Store π β × List (Event π β) → Prop} {E : ε → Store π β × List (Event π β) → Prop}

theorem wp_list {Q : List π → Store π β × List (Event π β) → Prop} (hI : I (s, log))
    (hok : Q s.paths (s, log)) (herr : E osError (s, log)) :
    wp (Traced Ans osError) I (Prog.perform .list) Q E (s, log) := by
  refine wp_perform_ghost.mpr ⟨hI, fun r s' hx => ?_⟩
  cases hx with
  | list => exact answer_ok hok
  | fails => exact answer_error herr

variable {p : π}

theorem wp_isFile {Q : Bool → Store π β × List (Event π β) → Prop} (hI : I (s, log))
    (hok : Q (s.read p).isSome (s, log)) (herr : E osError (s, log)) :
    wp (Traced Ans osError) I (Prog.perform (.isFile p)) Q E (s, log) := by
  refine wp_perform_ghost.mpr ⟨hI, fun r s' hx => ?_⟩
  cases hx with
  | isFile => exact answer_ok hok
  | fails => exact answer_error herr

theorem wp_read {Q : List β → Store π β × List (Event π β) → Prop} (hI : I (s, log))
    (hok : ∀ c, s.read p = some c → Q c (s, log ++ [.read p c])) (herr : E osError (s, log)) :
    wp (Traced Ans osError) I (Prog.perform (.read p)) Q E (s, log) := by
  refine wp_perform_ghost.mpr ⟨hI, fun r s' hx => ?_⟩
  cases hx with
  | read h => exact answer_ok (hok _ h)
  | fails => exact answer_error herr

variable {Q : Unit → Store π β × List (Event π β) → Prop}

theorem wp_create (hI : I (s, log))
    (hok : s.read p = none → Q () (s.put p [], log)) (herr : E osError (s, log)) :
    wp (Traced Ans osError) I (Prog.perform (.create p)) Q E (s, log) := by
  refine wp_perform_ghost.mpr ⟨hI, fun r s' hx => ?_⟩
  cases hx with
  | create h => exact answer_ok (hok h)
  | fails => exact answer_error herr

theorem wp_truncate (hI : I (s, log))
    (hok : Q () (s.put p [], log)) (herr : E osError (s, log)) :
    wp (Traced Ans osError) I (Prog.perform (.truncate p)) Q E (s, log) := by
  refine wp_perform_ghost.mpr ⟨hI, fun r s' hx => ?_⟩
  cases hx with
  | truncate => exact answer_ok hok
  | fails => exact answer_error herr

/-- The data is appended, or a part of it when the operation fails. -/
theorem wp_append {data : List β}
    (hI : I (s, log)) (hok : ∀ c, s.read p = some c → Q () (s.put p (c ++ data), log))
    (hcut : ∀ c, E osError (s.put p c, log)) (herr : E osError (s, log)) :
    wp (Traced Ans osError) I (Prog.perform (.append p data)) Q E (s, log) := by
  refine wp_perform_ghost.mpr ⟨hI, fun r s' hx => ?_⟩
  cases hx with
  | append h => exact answer_ok (hok _ h)
  | cut h hpart => exact answer_error (hcut _)
  | fails => exact answer_error herr

theorem wp_replace {p q : π} (hI : I (s, log))
    (hok : ∀ c, s.read p = some c → Q () ((s.remove p).put q c, log ++ [.replaced p q]))
    (herr : E osError (s, log)) :
    wp (Traced Ans osError) I (Prog.perform (.replace p q)) Q E (s, log) := by
  refine wp_perform_ghost.mpr ⟨hI, fun r s' hx => ?_⟩
  cases hx with
  | replace h => exact answer_ok (hok _ h)
  | fails => exact answer_error herr

theorem wp_unlink {missingOk : Bool}
    (hI : I (s, log)) (hok : Q () (s.remove p, log ++ [.unlinked p])) (herr : E osError (s, log)) :
    wp (Traced Ans osError) I (Prog.perform (.unlink p missingOk)) Q E (s, log) := by
  refine wp_perform_ghost.mpr ⟨hI, fun r s' hx => ?_⟩
  cases hx with
  | unlink h => exact answer_ok hok
  | fails => exact answer_error herr

theorem wp_ask {o : ω} {Q : Ans o → Store π β × List (Event π β) → Prop} (hI : I (s, log))
    (hok : ∀ a, Q a (s, log)) (herr : E osError (s, log)) :
    wp (Traced Ans osError) I (Prog.perform (.ask o)) Q E (s, log) := by
  refine wp_perform_ghost.mpr ⟨hI, fun r s' hx => ?_⟩
  cases hx with
  | ask a => exact answer_ok (hok _)
  | fails => exact answer_error herr

end Rules

end Files
