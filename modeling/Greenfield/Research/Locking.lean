import Greenfield.Lib.Run
import Mathlib.Algebra.Order.Ring.Rat
import Mathlib.Tactic.Linarith
import Mathlib.Tactic.NormNum

/-!
# The cycle lock

The lock file of `src/research/locking.py`, one file-system step at a time. A process that
finds the file checks its age, unlinks it and creates its own in three steps, and a process
that releases unlinks whatever is there. So two processes exclude each other exactly as long
as nobody unlinks a file that it has not checked, and nobody keeps its lock until it is stale
(`cycle_lock_excludes`, `two_stealers`).
-/

namespace Greenfield.Research

/-- The file at the path of the lock. -/
structure LockFile where
  /-- Which of the files created so far it is. -/
  serial : Nat
  mtime : ℚ
  deriving DecidableEq

/-- Where a process is in `with CycleLock(path)`. -/
inductive LockStage where
  | outside
  /-- The first `os.open` raised `FileExistsError`. -/
  | checking
  /-- The age of the file `seen` was stale. -/
  | stealing (seen : Nat)
  /-- The second `os.open` is next. -/
  | retrying
  /-- The file was created, at `since`, and is still to be written. -/
  | writing (serial : Nat) (since : ℚ)
  | inside (serial : Nat) (since : ℚ)
  deriving DecidableEq

structure LockState where
  /-- `time.time()`. -/
  now : ℚ
  file : Option LockFile
  /-- How many files were created. -/
  created : Nat
  stage : Nat → LockStage

namespace LockState

def init : LockState := ⟨0, none, 0, fun _ => .outside⟩

variable (s : LockState) (p : Nat)

def goTo (stage : LockStage) : LockState :=
  { s with stage := fun q => if q = p then stage else s.stage q }

/-- `os.open` with `O_CREAT | O_EXCL`, which leaves the process at `otherwise` if it raises. -/
def create (otherwise : LockStage) : LockState :=
  match s.file with
  | some _ => s.goTo p otherwise
  | none =>
    { s.goTo p (.writing s.created s.now) with
      file := some ⟨s.created, s.now⟩
      created := s.created + 1 }

end LockState

/-- A step of process `p`, or time that passes. -/
inductive LockOp where
  | openFirst (p : Nat)
  | checkAge (p : Nat)
  /-- `stat` raises some other `OSError`. -/
  | statFails (p : Nat)
  | unlinkStale (p : Nat)
  | openAgain (p : Nat)
  | write (p : Nat)
  | release (p : Nat)
  /-- The process dies, or a call of the file system raises. -/
  | crash (p : Nat)
  | wait (seconds : ℚ)

section

variable (staleAfterSeconds : ℚ)

/-- A step, which does nothing if the process is elsewhere. -/
def LockOp.step (s : LockState) : LockOp → LockState
  | openFirst p =>
    match s.stage p with
    | .outside => s.create p .checking
    | _ => s
  | checkAge p =>
    match s.stage p, s.file with
    | .checking, none => s.goTo p .retrying
    | .checking, some file =>
      -- `CycleLockHeld` is raised for a file that is not stale
      if s.now - file.mtime < staleAfterSeconds then s.goTo p .outside
      else s.goTo p (.stealing file.serial)
    | _, _ => s
  | statFails p =>
    match s.stage p with
    | .checking => s.goTo p .retrying
    | _ => s
  | unlinkStale p =>
    match s.stage p with
    | .stealing _ => { s.goTo p .retrying with file := none }
    | _ => s
  | openAgain p =>
    match s.stage p with
    | .retrying => s.create p .outside
    | _ => s
  | write p =>
    match s.stage p with
    | .writing serial since =>
      { s.goTo p (.inside serial since) with
        file := s.file.map fun file =>
          if file.serial = serial then { file with mtime := s.now } else file }
    | _ => s
  | release p =>
    match s.stage p with
    | .inside _ _ => { s.goTo p .outside with file := none }
    | _ => s
  | crash p => s.goTo p .outside
  | wait seconds => if 0 ≤ seconds then { s with now := s.now + seconds } else s

/-- The process is in the cycle with a lock that is not stale. -/
def InCycle (s : LockState) (p : Nat) : Prop :=
  ∃ serial since, s.stage p = .inside serial since ∧ s.now - since < staleAfterSeconds

/-- At most one process is in the cycle with a lock that is not stale. -/
def Exclusive (s : LockState) : Prop :=
  ∀ p q, InCycle staleAfterSeconds s p → InCycle staleAfterSeconds s q → p = q

/-- A release removes the file that the process has created, or none. -/
def RemovesOwn (s : LockState) : LockOp → Prop
  | .release p => ∀ serial since, s.stage p = .inside serial since →
      ∀ file, s.file = some file → file.serial = serial
  | _ => True

/-- A process that steals unlinks the file that it has checked, or none, and a process that
releases does so before its lock is stale. -/
def InTime (s : LockState) : LockOp → Prop
  | .unlinkStale p => ∀ seen, s.stage p = .stealing seen →
      ∀ file, s.file = some file → file.serial = seen
  | .release p => ∀ serial since, s.stage p = .inside serial since →
      s.now - since < staleAfterSeconds
  | _ => True

/-! ## The invariant -/

/-- The process has created the file `serial`, at `since`. -/
def Holds (s : LockState) (p serial : Nat) (since : ℚ) : Prop :=
  s.stage p = .writing serial since ∨ s.stage p = .inside serial since

/-- A lock that is not stale is the file at the path, and a file that was found stale is the lock
of nobody, or of a process that keeps it too long. -/
structure Locked (s : LockState) : Prop where
  known : ∀ p serial since, Holds s p serial since → serial < s.created ∧ since ≤ s.now
  unique : ∀ p q serial since since', Holds s p serial since → Holds s q serial since' → p = q
  owned : ∀ p serial since, Holds s p serial since → s.now - since < staleAfterSeconds →
    ∃ file, s.file = some file ∧ file.serial = serial
  current : ∀ file, s.file = some file → file.serial < s.created ∧
    ∀ p since, Holds s p file.serial since → since ≤ file.mtime
  stolen : ∀ p seen, s.stage p = .stealing seen → seen < s.created ∧
    ∀ q since, Holds s q seen since → staleAfterSeconds ≤ s.now - since

variable {staleAfterSeconds} {s s' : LockState} {p : Nat}

theorem locked_init : Locked staleAfterSeconds .init := by
  have hnone : ∀ {q serial since}, ¬ Holds .init q serial since := by
    rintro q serial since (h | h)
    · cases h
    · cases h
  constructor
  · exact fun _ _ _ h => (hnone h).elim
  · exact fun _ _ _ _ _ h => (hnone h).elim
  · exact fun _ _ _ h => (hnone h).elim
  · intro file h
    cases h
  · intro p seen h
    cases h

/-- A step by which nobody gets a lock. -/
theorem Locked.keeps (h : Locked staleAfterSeconds s) (hnow : s'.now = s.now)
    (hcreated : s'.created = s.created)
    (hholds : ∀ q serial since, Holds s' q serial since → Holds s q serial since)
    (hsteals : ∀ q seen, s'.stage q = .stealing seen → seen < s.created ∧
      ∀ q since, Holds s q seen since → staleAfterSeconds ≤ s.now - since)
    (hfile : ∀ file', s'.file = some file' → ∃ file, s.file = some file ∧
      file.serial = file'.serial ∧ ∀ since ≤ s.now, since ≤ file.mtime → since ≤ file'.mtime)
    (howned : ∀ q serial since, Holds s' q serial since → s.now - since < staleAfterSeconds →
      ∃ file, s'.file = some file ∧ file.serial = serial) : Locked staleAfterSeconds s' where
  known q serial since hq := by
    rw [hcreated, hnow]
    exact h.known q serial since (hholds q serial since hq)
  unique q r serial since since' hq hr :=
    h.unique q r serial since since' (hholds _ _ _ hq) (hholds _ _ _ hr)
  owned q serial since hq hfresh := howned q serial since hq (hnow ▸ hfresh)
  current file' hf := by
    obtain ⟨file, hold, hserial, hmtime⟩ := hfile file' hf
    obtain ⟨hlt, hsince⟩ := h.current file hold
    rw [hcreated, ← hserial]
    refine ⟨hlt, fun q since hq => ?_⟩
    have hq := hholds q _ since hq
    exact hmtime since (h.known q _ since hq).2 (hsince q since hq)
  stolen q seen hq := by
    obtain ⟨hlt, hstale⟩ := hsteals q seen hq
    rw [hcreated, hnow]
    exact ⟨hlt, fun r since hr => hstale r since (hholds _ _ _ hr)⟩

/-- A stage without a lock. -/
def LockStage.free : LockStage → Bool
  | .writing .. | .inside .. => false
  | _ => true

variable {stage : LockStage} {since : ℚ}

theorem goTo_holds (hfree : stage.free = true) {q serial : Nat}
    (h : Holds (s.goTo p stage) q serial since) : q ≠ p ∧ Holds s q serial since := by
  unfold Holds LockState.goTo at h
  simp only at h
  split at h
  · rcases h with rfl | rfl
    · cases hfree
    · cases hfree
  · next hq => exact ⟨hq, h⟩

theorem goTo_steals {q seen : Nat}
    (h : (s.goTo p stage).stage q = .stealing seen) :
    stage = .stealing seen ∨ s.stage q = .stealing seen := by
  unfold LockState.goTo at h
  simp only at h
  split at h
  · exact .inl h
  · exact .inr h

/-- A process that gets no lock. -/
theorem Locked.goTo (h : Locked staleAfterSeconds s)
    (hfree : stage.free = true)
    (hsteals : ∀ seen, stage = .stealing seen → seen < s.created ∧
      ∀ q since, Holds s q seen since → staleAfterSeconds ≤ s.now - since) :
    Locked staleAfterSeconds (s.goTo p stage) := by
  refine h.keeps rfl rfl (fun q serial since hq => (goTo_holds hfree hq).2) ?_ ?_ ?_
  · intro q seen hq
    rcases goTo_steals hq with hq | hq
    · exact hsteals seen hq
    · exact h.stolen q seen hq
  · exact fun file hf => ⟨file, hf, rfl, fun _ _ hle => hle⟩
  · exact fun q serial since hq hfresh => h.owned q serial since (goTo_holds hfree hq).2 hfresh

/-- A process that unlinks the file, when no other process has a lock that is not stale. -/
theorem Locked.unlink (h : Locked staleAfterSeconds s)
    (hfree : stage.free = true) (hsteals : ∀ seen, stage ≠ .stealing seen)
    (hstale : ∀ q serial since, q ≠ p → Holds s q serial since →
      staleAfterSeconds ≤ s.now - since) :
    Locked staleAfterSeconds { s.goTo p stage with file := none } := by
  have hholds : ∀ q serial since, Holds { s.goTo p stage with file := none } q serial since →
      q ≠ p ∧ Holds s q serial since := fun q serial since hq => goTo_holds hfree hq
  refine h.keeps rfl rfl (fun q serial since hq => (hholds q serial since hq).2) ?_ ?_ ?_
  · intro q seen hq
    rcases goTo_steals hq with hq | hq
    · exact absurd hq (hsteals seen)
    · exact h.stolen q seen hq
  · exact fun file hf => by cases hf
  · intro q serial since hq hfresh
    obtain ⟨hne, hq⟩ := hholds q serial since hq
    exact absurd (hstale q serial since hne hq) (not_le.mpr hfresh)

/-- A process that creates the file. -/
theorem Locked.create (h : Locked staleAfterSeconds s) {otherwise : LockStage}
    (hfree : otherwise.free = true) (hsteals : ∀ seen, otherwise ≠ .stealing seen) :
    Locked staleAfterSeconds (s.create p otherwise) := by
  unfold LockState.create
  split
  · exact h.goTo hfree fun seen hseen => absurd hseen (hsteals seen)
  · next hnone =>
    -- without a file, every lock is stale
    have hstale : ∀ q serial since, Holds s q serial since →
        staleAfterSeconds ≤ s.now - since := by
      intro q serial since hq
      by_contra hfresh
      obtain ⟨file, hf, -⟩ := h.owned q serial since hq (not_le.mp hfresh)
      rw [hnone] at hf
      cases hf
    set t : LockState := { s.goTo p (.writing s.created s.now) with
      file := some ⟨s.created, s.now⟩
      created := s.created + 1 } with ht
    have hholds : ∀ q serial since, Holds t q serial since →
        (q = p ∧ serial = s.created ∧ since = s.now) ∨ Holds s q serial since := by
      intro q serial since hq
      by_cases hqp : q = p
      · subst hqp
        simp only [ht, Holds, LockState.goTo, if_pos, LockStage.writing.injEq, reduceCtorEq,
          or_false] at hq
        exact .inl ⟨rfl, hq.1.symm, hq.2.symm⟩
      · simp only [ht, Holds, LockState.goTo, if_neg hqp] at hq
        exact .inr hq
    constructor
    · intro q serial since hq
      rcases hholds q serial since hq with ⟨-, rfl, rfl⟩ | hq
      · exact ⟨Nat.lt_succ_self _, le_refl _⟩
      · obtain ⟨hlt, hle⟩ := h.known q serial since hq
        exact ⟨Nat.lt_succ_of_lt hlt, hle⟩
    · intro q r serial since since' hq hr
      rcases hholds q serial since hq with ⟨rfl, rfl, -⟩ | hq
      · rcases hholds r s.created since' hr with ⟨rfl, -⟩ | hr
        · rfl
        · exact absurd (h.known r _ since' hr).1 (Nat.lt_irrefl _)
      · rcases hholds r serial since' hr with ⟨-, rfl, -⟩ | hr
        · exact absurd (h.known q _ since hq).1 (Nat.lt_irrefl _)
        · exact h.unique q r serial since since' hq hr
    · intro q serial since hq hfresh
      rcases hholds q serial since hq with ⟨-, rfl, -⟩ | hq
      · exact ⟨_, rfl, rfl⟩
      · exact absurd (hstale q serial since hq) (not_le.mpr hfresh)
    · intro file hf
      cases Option.some.inj hf
      refine ⟨Nat.lt_succ_self _, fun q since hq => ?_⟩
      rcases hholds q _ since hq with ⟨-, -, rfl⟩ | hq
      · exact le_refl _
      · exact absurd (h.known q _ since hq).1 (Nat.lt_irrefl _)
    · intro q seen hq
      have hseen : s.stage q = .stealing seen := by
        rcases goTo_steals (show (s.goTo p (.writing s.created s.now)).stage q = _ from hq) with hq |
          hq
        · cases hq
        · exact hq
      obtain ⟨hlt, hold⟩ := h.stolen q seen hseen
      refine ⟨Nat.lt_succ_of_lt hlt, fun r since hr => ?_⟩
      rcases hholds r seen since hr with ⟨-, rfl, -⟩ | hr
      · exact absurd hlt (Nat.lt_irrefl _)
      · exact hold r since hr

/-- A process that writes its file. -/
theorem Locked.write (h : Locked staleAfterSeconds s) {serial : Nat}
    (hstage : s.stage p = .writing serial since) : Locked staleAfterSeconds
      { s.goTo p (.inside serial since) with
        file := s.file.map fun file =>
          if file.serial = serial then { file with mtime := s.now } else file } := by
  set t : LockState := { s.goTo p (.inside serial since) with
    file := s.file.map fun file =>
      if file.serial = serial then { file with mtime := s.now } else file } with ht
  have hholds : ∀ q k since', Holds t q k since' → Holds s q k since' := by
    intro q k since' hq
    by_cases hqp : q = p
    · subst hqp
      simp only [ht, Holds, LockState.goTo, if_pos, LockStage.inside.injEq, reduceCtorEq,
        false_or] at hq
      obtain ⟨rfl, rfl⟩ := hq
      exact .inl hstage
    · simp only [ht, Holds, LockState.goTo, if_neg hqp] at hq
      exact hq
  refine h.keeps rfl rfl hholds ?_ ?_ ?_
  · intro q seen hq
    rcases goTo_steals (show (s.goTo p (.inside serial since)).stage q = _ from hq) with hq | hq
    · cases hq
    · exact h.stolen q seen hq
  · intro file' hf
    obtain ⟨file, hold, rfl⟩ := Option.map_eq_some_iff.mp hf
    refine ⟨file, hold, ?_, fun since' hnow hle => ?_⟩
    · split
      · rfl
      · rfl
    · split
      · exact hnow
      · exact hle
  · intro q k since' hq hfresh
    obtain ⟨file, hf, hserial⟩ := h.owned q k since' (hholds q k since' hq) hfresh
    refine ⟨_, by rw [ht]; simp only [hf, Option.map_some]; rfl, ?_⟩
    split
    · exact hserial
    · exact hserial

theorem Locked.wait (h : Locked staleAfterSeconds s) {seconds : ℚ} (hseconds : 0 ≤ seconds) :
    Locked staleAfterSeconds { s with now := s.now + seconds } where
  known q serial since hq := by
    obtain ⟨hlt, hle⟩ := h.known q serial since hq
    exact ⟨hlt, by show since ≤ s.now + seconds; linarith⟩
  unique := h.unique
  owned q serial since hq hfresh := by
    apply h.owned q serial since hq
    have hlt : s.now + seconds - since < staleAfterSeconds := hfresh
    linarith
  current := h.current
  stolen q seen hq := by
    obtain ⟨hlt, hstale⟩ := h.stolen q seen hq
    refine ⟨hlt, fun r since hr => ?_⟩
    have hold := hstale r since hr
    show staleAfterSeconds ≤ s.now + seconds - since
    linarith

/-! ## Runs -/

/-- A step in time keeps the invariant, and removes only what the process has created. -/
theorem locked_step (s : LockState) (op : LockOp) (hop : InTime staleAfterSeconds s op)
    (h : Locked staleAfterSeconds s) : Locked staleAfterSeconds (op.step staleAfterSeconds s) := by
  cases op with
  | openFirst p =>
    simp only [LockOp.step]
    split
    · exact h.create rfl fun seen hseen => by cases hseen
    · exact h
  | checkAge p =>
    simp only [LockOp.step]
    split
    · exact h.goTo rfl fun seen hseen => by cases hseen
    · next file hstage hfile =>
      split
      · exact h.goTo rfl fun seen hseen => by cases hseen
      · next hage =>
        refine h.goTo rfl fun seen hseen => ?_
        cases hseen
        obtain ⟨hlt, hsince⟩ := h.current file hfile
        refine ⟨hlt, fun q since hq => ?_⟩
        have hle := hsince q since hq
        linarith [not_lt.mp hage]
    · exact h
  | statFails p =>
    simp only [LockOp.step]
    split
    · exact h.goTo rfl fun seen hseen => by cases hseen
    · exact h
  | unlinkStale p =>
    simp only [LockOp.step]
    split
    · next seen hstage =>
      -- whoever holds a lock that is not stale holds the file that was found stale
      refine h.unlink rfl (fun seen hseen => by cases hseen) fun q serial since _ hq => ?_
      by_contra hfresh
      obtain ⟨file, hfile, hserial⟩ := h.owned q serial since hq (not_le.mp hfresh)
      have hseen : serial = seen := hserial.symm.trans (hop seen hstage file hfile)
      rw [hseen] at hq
      exact hfresh ((h.stolen p seen hstage).2 q since hq)
    · exact h
  | openAgain p =>
    simp only [LockOp.step]
    split
    · exact h.create rfl fun seen hseen => by cases hseen
    · exact h
  | write p =>
    simp only [LockOp.step]
    split
    · next serial since hstage => exact h.write hstage
    · exact h
  | release p =>
    simp only [LockOp.step]
    split
    · next serial since hstage =>
      -- the file is the process's own, so no other process has a lock that is not stale
      refine h.unlink rfl (fun seen hseen => by cases hseen) fun q serial' since' hne hq => ?_
      by_contra hfresh
      obtain ⟨file, hfile, hserial⟩ := h.owned p serial since (.inr hstage) (hop serial since hstage)
      obtain ⟨file', hfile', hserial'⟩ := h.owned q serial' since' hq (not_le.mp hfresh)
      have hsame : file' = file := Option.some.inj (hfile'.symm.trans hfile)
      rw [hsame] at hserial'
      rw [← hserial', hserial] at hq
      exact hne (h.unique q p serial since' since hq (.inr hstage))
    · exact h
  | crash p => exact h.goTo rfl fun seen hseen => by cases hseen
  | wait seconds =>
    simp only [LockOp.step]
    split
    · next hseconds => exact h.wait hseconds
    · exact h

theorem Locked.exclusive (h : Locked staleAfterSeconds s) : Exclusive staleAfterSeconds s := by
  rintro p q ⟨serial, since, hp, hfresh⟩ ⟨serial', since', hq, hfresh'⟩
  obtain ⟨file, hfile, hserial⟩ := h.owned p serial since (.inr hp) hfresh
  obtain ⟨file', hfile', hserial'⟩ := h.owned q serial' since' (.inr hq) hfresh'
  have hsame : file = file' := Option.some.inj (hfile.symm.trans hfile')
  rw [← hserial', ← hsame, hserial] at hq
  exact h.unique p q serial since since' (.inr hp) (.inr hq)

theorem Locked.removesOwn (h : Locked staleAfterSeconds s) {op : LockOp}
    (hop : InTime staleAfterSeconds s op) : RemovesOwn s op := by
  cases op with
  | release p =>
    intro serial since hstage file hfile
    obtain ⟨own, hown, hserial⟩ := h.owned p serial since (.inr hstage) (hop serial since hstage)
    rw [Option.some.inj (hfile.symm.trans hown), hserial]
  | _ => trivial

theorem Locked.run (h : Locked staleAfterSeconds s) {ops : List LockOp}
    (hops : Runs.Meets (LockOp.step staleAfterSeconds) (InTime staleAfterSeconds) s ops) :
    Runs.Always (LockOp.step staleAfterSeconds) (Exclusive staleAfterSeconds) s ops ∧
      Runs.Meets (LockOp.step staleAfterSeconds) RemovesOwn s ops := by
  induction ops generalizing s with
  | nil => exact ⟨h.exclusive, trivial⟩
  | cons op ops ih =>
    obtain ⟨hrest, hremoves⟩ := ih (locked_step s op hops.1 h) hops.2
    exact ⟨⟨h.exclusive, hrest⟩, h.removesOwn hops.1, hremoves⟩

end

/-- **The cycle lock.** In every run of file-system steps in which no process unlinks another
file than the stale one that it has checked, and every release is before the lock is stale, at
most one process is in the cycle with a lock that is not stale, and every release removes only
the file that the process has created. -/
theorem cycle_lock_excludes (staleAfterSeconds : ℚ) (ops : List LockOp)
    (hops : Runs.Meets (LockOp.step staleAfterSeconds) (InTime staleAfterSeconds) .init ops) :
    Runs.Always (LockOp.step staleAfterSeconds) (Exclusive staleAfterSeconds) .init ops ∧
      Runs.Meets (LockOp.step staleAfterSeconds) RemovesOwn .init ops :=
  locked_init.run hops

/-- A process that crashes in the cycle, and one that takes its lock over. -/
def takeover : List LockOp :=
  [.openFirst 0, .write 0, .crash 0, .wait 28800, .openFirst 1, .checkAge 1, .unlinkStale 1,
    .openAgain 1, .write 1, .release 1]

theorem cycle_lock_excludes_takeover :
    Runs.Meets (LockOp.step 28800) RemovesOwn .init takeover := by
  have hseen : (Runs.run (LockOp.step 28800) .init (takeover.take 6)).stage 1 = .stealing 0 := by
    decide +kernel
  have hfile : (Runs.run (LockOp.step 28800) .init (takeover.take 6)).file = some ⟨0, 0⟩ := by
    decide +kernel
  have hinside : (Runs.run (LockOp.step 28800) .init (takeover.take 9)).stage 1 =
      .inside 1 28800 := by decide +kernel
  have hnow : (Runs.run (LockOp.step 28800) .init (takeover.take 9)).now = 28800 := by
    decide +kernel
  refine (cycle_lock_excludes 28800 takeover ⟨trivial, trivial, trivial, trivial, trivial, trivial,
    fun seen hstage file hf => ?_, trivial, trivial, fun serial since hstage => ?_, trivial⟩).2
  · cases hseen.symm.trans hstage
    cases hfile.symm.trans hf
    rfl
  · cases hinside.symm.trans hstage
    refine lt_of_eq_of_lt (congrArg (· - (28800 : ℚ)) hnow) ?_
    norm_num

/-- Two processes that find the lock of a crashed one stale: the second unlinks the file that the
first has created, and both are in the cycle. -/
def stealers : List LockOp :=
  [.openFirst 0, .write 0, .crash 0, .wait 28800, .openFirst 1, .checkAge 1, .openFirst 2,
    .checkAge 2, .unlinkStale 1, .openAgain 1, .write 1, .unlinkStale 2, .openAgain 2, .write 2]

theorem two_stealers : ¬ ∀ (staleAfterSeconds : ℚ) (ops : List LockOp),
    Runs.Always (LockOp.step staleAfterSeconds) (Exclusive staleAfterSeconds) .init ops ∧
      Runs.Meets (LockOp.step staleAfterSeconds) RemovesOwn .init ops := by
  intro hclaim
  have hexclusive := (hclaim 28800 stealers).1.run
  have hfirst : (Runs.run (LockOp.step 28800) .init stealers).stage 1 = .inside 1 28800 := by
    decide +kernel
  have hsecond : (Runs.run (LockOp.step 28800) .init stealers).stage 2 = .inside 2 28800 := by
    decide +kernel
  have hnow : (Runs.run (LockOp.step 28800) .init stealers).now = 28800 := by decide +kernel
  have hfresh : (Runs.run (LockOp.step 28800) .init stealers).now - 28800 < 28800 := by
    rw [hnow]
    norm_num
  have hsame := hexclusive 1 2 ⟨1, 28800, hfirst, hfresh⟩ ⟨2, 28800, hsecond, hfresh⟩
  cases hsame

end Greenfield.Research
