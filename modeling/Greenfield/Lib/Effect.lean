import Mathlib.Logic.Relation

/-!
# Programs over atomic operations

A program performs operations one at a time; each is answered by a value or raises.
`Steps` is execution up to any point, so a crash is a program that is stopped there.
`wp` is the weakest precondition with a crash condition `I`: it holds wherever the
program can be stopped. Programs that share a state interleave in a pool (`PoolStep`).
-/

namespace Effects

/-- A program that returns an `α`. `Res o` is what the operation `o` answers. -/
inductive Prog (Op : Type) (Res : Op → Type) (ε α : Type) : Type where
  | ret (a : α)
  | raise (e : ε)
  | call (o : Op) (k : Except ε (Res o) → Prog Op Res ε α)

variable {Op : Type} {Res : Op → Type} {ε α β σ : Type}

namespace Prog

def bind : Prog Op Res ε α → (α → Prog Op Res ε β) → Prog Op Res ε β
  | ret a, f => f a
  | raise e, _ => raise e
  | call o k, f => call o fun r => (k r).bind f

instance : Monad (Prog Op Res ε) where
  pure := ret
  bind := bind

/-- The program's outcome as a value: the body of a `try`. -/
def attempt : Prog Op Res ε α → Prog Op Res ε (Except ε α)
  | ret a => ret (.ok a)
  | raise e => ret (.error e)
  | call o k => call o fun r => (k r).attempt

def lift : Except ε α → Prog Op Res ε α
  | .ok a => ret a
  | .error e => raise e

/-- Do one operation and return its answer. -/
def perform (o : Op) : Prog Op Res ε (Res o) := call o lift

def check (c : Bool) (e : ε) : Prog Op Res ε Unit := if c then ret () else raise e

@[simp] theorem lift_ok_bind (a : α) (f : α → Prog Op Res ε β) :
    (lift (.ok a) >>= f) = f a := rfl

@[simp] theorem check_true_bind (e : ε) (f : Unit → Prog Op Res ε β) :
    (check true e >>= f) = f () := rfl

end Prog

open Prog

/-- `exec o s r s'`: the operation `o` in the state `s` can answer `r` and leave `s'`. -/
abbrev Sem (Op : Type) (Res : Op → Type) (ε σ : Type) : Type :=
  (o : Op) → σ → Except ε (Res o) → σ → Prop

variable {exec : Sem Op Res ε σ}

/-! ## Operations of a program -/

/-- Every operation that `p` can come to satisfies `I`. -/
def Prog.All (I : Op → Prop) : Prog Op Res ε α → Prop
  | ret _ | raise _ => True
  | call o k => I o ∧ ∀ r, (k r).All I

section

variable {J : Op → Prop}

theorem Prog.All.bind {f : α → Prog Op Res ε β} :
    ∀ {p : Prog Op Res ε α}, p.All J → (∀ a, (f a).All J) → (p >>= f).All J
  | ret a, _, hf => hf a
  | raise _, _, _ => trivial
  | call _ _, hp, hf => ⟨hp.1, fun r => Prog.All.bind (hp.2 r) hf⟩

theorem Prog.All.attempt : ∀ {p : Prog Op Res ε α}, p.All J → p.attempt.All J
  | ret _, _ => trivial
  | raise _, _ => trivial
  | call _ _, hp => ⟨hp.1, fun r => Prog.All.attempt (hp.2 r)⟩

theorem Prog.All.lift {x : Except ε α} : (lift x : Prog Op Res ε α).All J := by
  cases x <;> trivial

theorem Prog.All.perform {o : Op} (h : J o) : (perform o : Prog Op Res ε (Res o)).All J :=
  ⟨h, fun _ => Prog.All.lift⟩

end

/-! ## Execution -/

/-- `p` in `s` can get to `p'` in `s'`. -/
inductive Steps (exec : Sem Op Res ε σ) :
    Prog Op Res ε α → σ → Prog Op Res ε α → σ → Prop where
  | refl (p : Prog Op Res ε α) (s : σ) : Steps exec p s p s
  | head {o : Op} {k : Except ε (Res o) → Prog Op Res ε α} {r : Except ε (Res o)} {s s' s'' : σ}
      {p : Prog Op Res ε α} (h : exec o s r s') (hs : Steps exec (k r) s' p s'') :
      Steps exec (call o k) s p s''

/-- A property that every operation keeps is kept up to every point. -/
theorem Steps.invariant {I : σ → Prop} (hI : ∀ o s r s', exec o s r s' → I s → I s')
    {p p' : Prog Op Res ε α} {s s' : σ} (h : Steps exec p s p' s') (hs : I s) : I s' := by
  induction h with
  | refl p s => exact hs
  | head h _ ih => exact ih (hI _ _ _ _ h hs)

/-- A run of `p` is a run of `p >>= f`. -/
theorem Steps.bind {p p' : Prog Op Res ε α} {s s' : σ} (h : Steps exec p s p' s')
    (f : α → Prog Op Res ε β) : Steps exec (p.bind f) s (p'.bind f) s' := by
  induction h with
  | refl p s => exact .refl _ s
  | head h _ ih => exact .head h ih

theorem Steps.trans {p p' p'' : Prog Op Res ε α} {s s' s'' : σ} (h : Steps exec p s p' s')
    (h' : Steps exec p' s' p'' s'') : Steps exec p s p'' s'' := by
  induction h with
  | refl p s => exact h'
  | head h _ ih => exact .head h (ih h')

/-! ### Runs made of parts -/

theorem Steps.andThen {p : Prog Op Res ε α} {f : α → Prog Op Res ε β} {a : α}
    {q : Prog Op Res ε β} {s s' s'' : σ} (h : Steps exec p s (ret a) s')
    (hf : Steps exec (f a) s' q s'') : Steps exec (p >>= f) s q s'' := (h.bind f).trans hf

theorem Steps.perform {o : Op} {a : Res o} {s s' : σ} (h : exec o s (.ok a) s') :
    Steps exec (Prog.perform o) s (ret a) s' := .head h (.refl _ _)

theorem Steps.lift {x : Except ε α} {a : α} (h : x = .ok a) (s : σ) :
    Steps exec (Prog.lift x) s (ret a) s := by
  subst h
  exact .refl _ s

theorem Steps.check {c : Bool} (h : c = true) (e : ε) (s : σ) :
    Steps exec (Prog.check c e : Prog Op Res ε Unit) s (ret ()) s := by
  subst h
  exact .refl _ s

theorem Steps.attempt {p p' : Prog Op Res ε α} {s s' : σ} (h : Steps exec p s p' s') :
    Steps exec p.attempt s p'.attempt s' := by
  induction h with
  | refl p s => exact .refl _ s
  | head h _ ih => exact .head h ih

/-- `n` operations of `p`, answered by `handle`. -/
def runOps (handle : (o : Op) → σ → Except ε (Res o) × σ) :
    Nat → Prog Op Res ε α → σ → Prog Op Res ε α × σ
  | n + 1, call o k, s => runOps handle n (k (handle o s).1) (handle o s).2
  | _, p, s => (p, s)

theorem steps_runOps {handle : (o : Op) → σ → Except ε (Res o) × σ}
    (hx : ∀ o s, exec o s (handle o s).1 (handle o s).2) :
    ∀ (n : Nat) (p : Prog Op Res ε α) (s : σ),
      Steps exec p s (runOps handle n p s).1 (runOps handle n p s).2
  | 0, p, s => .refl p s
  | _ + 1, ret a, s => .refl (ret a) s
  | _ + 1, raise e, s => .refl (raise e) s
  | n + 1, call o _, s => .head (hx o s) (steps_runOps hx n _ _)

/-- `n` operations of `p`, as long as `ok` lets them be answered by `handle`. -/
def runOpsWhile (ok : Op → σ → Bool) (handle : (o : Op) → σ → Except ε (Res o) × σ) :
    Nat → Prog Op Res ε α → σ → Prog Op Res ε α × σ
  | n + 1, call o k, s =>
    if ok o s then runOpsWhile ok handle n (k (handle o s).1) (handle o s).2 else (call o k, s)
  | _, p, s => (p, s)

theorem steps_runOpsWhile {ok : Op → σ → Bool} {handle : (o : Op) → σ → Except ε (Res o) × σ}
    (hx : ∀ o s, ok o s = true → exec o s (handle o s).1 (handle o s).2) :
    ∀ (n : Nat) (p : Prog Op Res ε α) (s : σ),
      Steps exec p s (runOpsWhile ok handle n p s).1 (runOpsWhile ok handle n p s).2
  | 0, p, s => .refl p s
  | _ + 1, ret a, s => .refl (ret a) s
  | _ + 1, raise e, s => .refl (raise e) s
  | n + 1, call o k, s => by
    unfold runOpsWhile
    split
    · next hok => exact .head (hx o s hok) (steps_runOpsWhile hx n _ _)
    · exact .refl (call o k) s

/-! ## Runs that are stopped -/

section Stopped

variable (handle : (o : Op) → σ → Except ε (Res o) × σ)

/-- The outcome of the whole program, and the state that it leaves. -/
def Prog.run : Prog Op Res ε α → σ → Except ε α × σ
  | ret a, s => (.ok a, s)
  | raise e, s => (.error e, s)
  | call o k, s => (k (handle o s).1).run (handle o s).2

/-- How many operations the program performs. -/
def Prog.count : Prog Op Res ε α → σ → Nat
  | call o k, s => (k (handle o s).1).count (handle o s).2 + 1
  | _, _ => 0

/-- What the program leaves when it is stopped after `n` operations. -/
def stopped (n : Nat) (p : Prog Op Res ε α) (s : σ) : σ := (runOps handle n p s).2

variable {handle}

@[simp] theorem stopped_zero (p : Prog Op Res ε α) (s : σ) : stopped handle 0 p s = s := by
  cases p <;> rfl

@[simp] theorem stopped_ret (n : Nat) (a : α) (s : σ) :
    stopped handle n (ret a : Prog Op Res ε α) s = s := by
  cases n <;> rfl

@[simp] theorem stopped_raise (n : Nat) (e : ε) (s : σ) :
    stopped handle n (raise e : Prog Op Res ε α) s = s := by
  cases n <;> rfl

theorem stopped_call (n : Nat) (o : Op) (k : Except ε (Res o) → Prog Op Res ε α) (s : σ) :
    stopped handle (n + 1) (call o k) s = stopped handle n (k (handle o s).1) (handle o s).2 := rfl

theorem Prog.run_bind (f : α → Prog Op Res ε β) : ∀ (p : Prog Op Res ε α) (s : σ),
    (p >>= f).run handle s =
      match p.run handle s with
      | (.ok a, s') => (f a).run handle s'
      | (.error e, s') => (.error e, s')
  | ret _, _ => rfl
  | raise _, _ => rfl
  | call _ k, _ => Prog.run_bind f (k _) _

theorem Prog.count_bind (f : α → Prog Op Res ε β) : ∀ (p : Prog Op Res ε α) (s : σ),
    (p >>= f).count handle s = p.count handle s +
      match p.run handle s with
      | (.ok a, s') => (f a).count handle s'
      | (.error _, _) => 0
  | ret a, s => (Nat.zero_add ((f a).count handle s)).symm
  | raise _, _ => rfl
  | call o k, s => by
    show ((k (handle o s).1) >>= f).count handle (handle o s).2 + 1 = _
    rw [Prog.count_bind f]
    exact Nat.add_right_comm ..

/-- A program that was stopped in its second part has done its first. -/
theorem stopped_bind (f : α → Prog Op Res ε β) : ∀ (n : Nat) (p : Prog Op Res ε α) (s : σ),
    stopped handle n (p >>= f) s =
      if n ≤ p.count handle s then stopped handle n p s
      else match p.run handle s with
        | (.ok a, s') => stopped handle (n - p.count handle s) (f a) s'
        | (.error _, s') => s'
  | 0, p, s => by simp
  | n + 1, ret a, s => by simp [Prog.count, Prog.run]; rfl
  | n + 1, raise e, s => by
    simp only [stopped_raise, Prog.run, ite_self]
    rfl
  | n + 1, call o k, s => by
    show stopped handle n ((k (handle o s).1) >>= f) (handle o s).2 = _
    rw [stopped_bind f n]
    simp only [Prog.count, Prog.run, Nat.add_le_add_iff_right, Nat.add_sub_add_right, stopped_call]

/-- Stopped after it was done. -/
theorem stopped_of_count_le : ∀ {n : Nat} {p : Prog Op Res ε α} {s : σ}, p.count handle s ≤ n →
    stopped handle n p s = (p.run handle s).2
  | n, ret a, s, _ => stopped_ret n a s
  | n, raise e, s, _ => stopped_raise n e s
  | 0, call _ _, _, h => absurd h (Nat.not_succ_le_zero _)
  | n + 1, call o k, s, h => by
    rw [Prog.count] at h
    rw [stopped_call, Prog.run]
    exact stopped_of_count_le (Nat.le_of_succ_le_succ h)

@[simp] theorem Prog.run_perform (o : Op) (s : σ) :
    (Prog.perform o : Prog Op Res ε (Res o)).run handle s = handle o s := by
  show (lift (handle o s).1).run handle (handle o s).2 = handle o s
  cases h : handle o s with
  | mk r s' => cases r <;> rfl

@[simp] theorem Prog.count_perform (o : Op) (s : σ) :
    (Prog.perform o : Prog Op Res ε (Res o)).count handle s = 1 := by
  show (lift (handle o s).1).count handle (handle o s).2 + 1 = 1
  cases h : (handle o s).1 <;> rfl

@[simp] theorem stopped_perform (n : Nat) (o : Op) (s : σ) :
    stopped handle n (Prog.perform o : Prog Op Res ε (Res o)) s =
      if n = 0 then s else (handle o s).2 := by
  split
  · next h => rw [h, stopped_zero]
  · next h =>
    rw [stopped_of_count_le (by rw [count_perform]; exact Nat.pos_of_ne_zero h), run_perform]

/-- A run of the whole program that returns. -/
theorem steps_run (hx : ∀ o s, exec o s (handle o s).1 (handle o s).2) {a : α} {s' : σ} :
    ∀ {p : Prog Op Res ε α} {s : σ}, p.run handle s = (.ok a, s') → Steps exec p s (ret a) s'
  | ret _, _, h => by
    cases h
    exact .refl _ _
  | raise _, _, h => by cases h
  | call o _, s, h => .head (hx o s) (steps_run hx h)

theorem Prog.run_attempt : ∀ (p : Prog Op Res ε α) (s : σ),
    p.attempt.run handle s = (.ok (p.run handle s).1, (p.run handle s).2)
  | ret _, _ => rfl
  | raise _, _ => rfl
  | call _ k, _ => Prog.run_attempt (k _) _

theorem Prog.count_attempt : ∀ (p : Prog Op Res ε α) (s : σ),
    p.attempt.count handle s = p.count handle s
  | ret _, _ => rfl
  | raise _, _ => rfl
  | call _ k, _ => congrArg (· + 1) (Prog.count_attempt (k _) _)

theorem stopped_attempt : ∀ (n : Nat) (p : Prog Op Res ε α) (s : σ),
    stopped handle n p.attempt s = stopped handle n p s
  | 0, p, s => (stopped_zero _ s).trans (stopped_zero p s).symm
  | _ + 1, ret _, s => (stopped_ret _ _ s).trans (stopped_ret _ _ s).symm
  | _ + 1, raise _, s => (stopped_ret _ _ s).trans (stopped_raise _ _ s).symm
  | n + 1, call _ k, _ => stopped_attempt n (k _) _

end Stopped

/-! ## Weakest preconditions -/

/-- Every execution of `p` from `s` ends in `Q` or raises in `E`, and `I` holds before
each of its operations. -/
def wp (exec : Sem Op Res ε σ) (I : σ → Prop) :
    Prog Op Res ε α → (α → σ → Prop) → (ε → σ → Prop) → σ → Prop
  | ret a, Q, _, s => Q a s
  | raise e, _, E, s => E e s
  | call o k, Q, E, s => I s ∧ ∀ r s', exec o s r s' → wp exec I (k r) Q E s'

variable {I : σ → Prop} {Q Q' : α → σ → Prop} {E E' : ε → σ → Prop} {s s' : σ}

@[simp] theorem wp_pure (a : α) : wp exec I (pure a : Prog Op Res ε α) Q E s ↔ Q a s := .rfl

@[simp] theorem wp_ret (a : α) : wp exec I (ret a : Prog Op Res ε α) Q E s ↔ Q a s := .rfl

@[simp] theorem wp_raise (e : ε) : wp exec I (raise e : Prog Op Res ε α) Q E s ↔ E e s := .rfl

theorem wp_bind {Q : β → σ → Prop} (f : α → Prog Op Res ε β) :
    ∀ {p : Prog Op Res ε α} {s : σ}, wp exec I (p >>= f) Q E s ↔
      wp exec I p (fun a s => wp exec I (f a) Q E s) E s
  | ret _, _ => .rfl
  | raise _, _ => .rfl
  | call _ _, _ => and_congr_right fun _ =>
      forall_congr' fun _ => forall_congr' fun _ => imp_congr_right fun _ => wp_bind f

theorem wp_attempt {Q : Except ε α → σ → Prop} : ∀ {p : Prog Op Res ε α} {s : σ},
    wp exec I p.attempt Q E s ↔
      wp exec I p (fun a s => Q (.ok a) s) (fun e s => Q (.error e) s) s
  | ret _, _ => .rfl
  | raise _, _ => .rfl
  | call _ _, _ => and_congr_right fun _ =>
      forall_congr' fun _ => forall_congr' fun _ => imp_congr_right fun _ => wp_attempt

theorem wp_lift {x : Except ε α} : wp exec I (lift x : Prog Op Res ε α) Q E s ↔
    (∀ a, x = .ok a → Q a s) ∧ ∀ e, x = .error e → E e s := by
  cases x <;> simp [lift]

theorem wp_perform {o : Op} {Q : Res o → σ → Prop} : wp exec I (perform o) Q E s ↔
    I s ∧ ∀ r s', exec o s r s' → (∀ a, r = .ok a → Q a s') ∧ ∀ e, r = .error e → E e s' := by
  simp only [perform, wp, wp_lift]

/-- What is asked of an answer, of one that returns and of one that raises. -/
theorem answer_ok {a : α} (h : Q a s) :
    (∀ b, (.ok a : Except ε α) = .ok b → Q b s) ∧ ∀ e, (.ok a : Except ε α) = .error e → E e s := by
  constructor
  · rintro b ⟨⟩
    exact h
  · rintro e ⟨⟩

theorem answer_error {e : ε} (h : E e s) :
    (∀ b, (.error e : Except ε α) = .ok b → Q b s) ∧
      ∀ e', (.error e : Except ε α) = .error e' → E e' s := by
  constructor
  · rintro b ⟨⟩
  · rintro e' ⟨⟩
    exact h

theorem wp_check {c : Bool} {e : ε} {Q : Unit → σ → Prop} :
    wp exec I (check c e : Prog Op Res ε Unit) Q E s ↔
      (c = true → Q () s) ∧ (c = false → E e s) := by
  cases c <;> simp [check]

/-- Weaker conditions, also on the states where a crash can happen. -/
theorem wp_mono {I' : σ → Prop} (hI : ∀ s, I s → I' s) (hQ : ∀ a s, Q a s → Q' a s)
    (hE : ∀ e s, E e s → E' e s) :
    ∀ {p : Prog Op Res ε α} {s : σ}, wp exec I p Q E s → wp exec I' p Q' E' s
  | ret a, s, h => hQ a s h
  | raise e, s, h => hE e s h
  | call _ _, s, h => ⟨hI s h.1, fun r s' hs => wp_mono hI hQ hE (h.2 r s' hs)⟩

/-- What holds of one program for two reasons. -/
theorem wp_and {I' : σ → Prop} : ∀ {p : Prog Op Res ε α} {s : σ}, wp exec I p Q E s →
    wp exec I' p Q' E' s → wp exec (fun s => I s ∧ I' s) p (fun a s => Q a s ∧ Q' a s)
      (fun e s => E e s ∧ E' e s) s
  | ret _, _, h, h' => ⟨h, h'⟩
  | raise _, _, h, h' => ⟨h, h'⟩
  | call _ _, _, h, h' => ⟨⟨h.1, h'.1⟩, fun r s' hx => wp_and (h.2 r s' hx) (h'.2 r s' hx)⟩

/-- What every operation keeps is kept by the program. -/
theorem wp_invariant (hI : ∀ o s r s', exec o s r s' → I s → I s') :
    ∀ {p : Prog Op Res ε α} {s : σ}, I s → wp exec I p (fun _ => I) (fun _ => I) s
  | ret _, _, h => h
  | raise _, _, h => h
  | call _ _, s, h => ⟨h, fun r s' hs => wp_invariant hI (hI _ s r s' hs h)⟩

/-- Execution keeps the precondition of the rest of the program. -/
theorem wp_steps {p p' : Prog Op Res ε α} (hs : Steps exec p s p' s')
    (h : wp exec I p Q E s) : wp exec I p' Q E s' := by
  induction hs with
  | refl p s => exact h
  | head hx _ ih => exact ih (h.2 _ _ hx)

/-- **Soundness at crashes.** Wherever the program is stopped, the crash condition holds. -/
theorem wp_crash {p p' : Prog Op Res ε α} (hs : Steps exec p s p' s')
    (h : wp exec I p (fun _ => I) (fun _ => I) s) : I s' := by
  have h' := wp_steps hs h
  cases p' with
  | ret a => exact h'
  | raise e => exact h'
  | call o k => exact h'.1

/-- Of fewer executions no less is so. -/
theorem wp_of_exec {exec' : Sem Op Res ε σ} (hx : ∀ o s r s', exec' o s r s' → exec o s r s') :
    ∀ {p : Prog Op Res ε α} {s : σ}, wp exec I p Q E s → wp exec' I p Q E s
  | ret _, _, h => h
  | raise _, _, h => h
  | call _ _, _, h => ⟨h.1, fun r s' hs => wp_of_exec hx (h.2 r s' (hx _ _ r s' hs))⟩

/-- A program of operations that leave the state. -/
theorem wp_leaves {J : Op → Prop} (hJ : ∀ o s r s', J o → exec o s r s' → s' = s) (hI : I s)
    (hQ : ∀ a, Q a s) (hE : ∀ e, E e s) : ∀ {p : Prog Op Res ε α}, p.All J → wp exec I p Q E s
  | ret a, _ => hQ a
  | raise e, _ => hE e
  | call o _, hp => ⟨hI, fun r s' hs => by
      cases hJ o s r s' hp.1 hs
      exact wp_leaves hJ hI hQ hE (hp.2 r)⟩

/-! ### Programs that keep a property -/

/-- The program keeps `P`, wherever it is stopped. -/
def Keeps (exec : Sem Op Res ε σ) (P : σ → Prop) (p : Prog Op Res ε α) : Prop :=
  ∀ s, P s → wp exec P p (fun _ => P) (fun _ => P) s

section Keeping

variable {P : σ → Prop}

theorem keeps_ret (a : α) : Keeps exec P (ret a : Prog Op Res ε α) := fun _ h => h

theorem keeps_raise (e : ε) : Keeps exec P (raise e : Prog Op Res ε α) := fun _ h => h

theorem keeps_lift (x : Except ε α) : Keeps exec P (lift x : Prog Op Res ε α) := by
  cases x with
  | ok a => exact keeps_ret a
  | error e => exact keeps_raise e

theorem keeps_check (c : Bool) (e : ε) : Keeps exec P (check c e : Prog Op Res ε Unit) :=
  fun _ h => wp_check.mpr ⟨fun _ => h, fun _ => h⟩

theorem keeps_perform {o : Op} (ho : ∀ s r s', exec o s r s' → P s → P s') :
    Keeps exec P (perform o : Prog Op Res ε (Res o)) :=
  fun s h => wp_perform.mpr ⟨h, fun r s' hx => ⟨fun _ _ => ho s r s' hx h, fun _ _ => ho s r s' hx h⟩⟩

theorem Keeps.bind {p : Prog Op Res ε α} {f : α → Prog Op Res ε β} (hp : Keeps exec P p)
    (hf : ∀ a, Keeps exec P (f a)) : Keeps exec P (p >>= f) := fun s h =>
  (wp_bind f).mpr (wp_mono (fun _ => id) (fun a s' h' => hf a s' h') (fun _ _ => id) (hp s h))

/-- A program that starts with one that keeps `P`. -/
theorem wp_bind_keeps {p : Prog Op Res ε α} {f : α → Prog Op Res ε β} {Q : β → σ → Prop}
    (hp : Keeps exec P p) (h : P s) (hI : ∀ s, P s → I s) (hE : ∀ e s, P s → E e s)
    (hf : ∀ a s, P s → wp exec I (f a) Q E s) : wp exec I (p >>= f) Q E s :=
  (wp_bind f).mpr (wp_mono hI (fun a s' h' => hf a s' h') (fun e s' h' => hE e s' h') (hp s h))

theorem Keeps.attempt {p : Prog Op Res ε α} (hp : Keeps exec P p) : Keeps exec P p.attempt :=
  fun s h => wp_attempt.mpr (hp s h)

/-- What the operations of a program keep. -/
theorem keeps_all {J : Op → Prop} (hJ : ∀ o s r s', J o → exec o s r s' → P s → P s') :
    ∀ {p : Prog Op Res ε α}, p.All J → Keeps exec P p
  | ret a, _ => keeps_ret a
  | raise e, _ => keeps_raise e
  | call o _, hp => fun s h => ⟨h, fun r s' hx => keeps_all hJ (hp.2 r) s' (hJ o s r s' hp.1 hx h)⟩

theorem Keeps.steps {p p' : Prog Op Res ε α} (hp : Keeps exec P p) (hs : Steps exec p s p' s')
    (h : P s) : P s' := wp_crash hs (hp s h)

end Keeping

/-! ### Operations among more -/

section Among

variable {Op' : Type} {Res' : Op' → Type}

/-- The program, where there are more operations. -/
def Prog.inl : Prog Op Res ε α → Prog (Op ⊕ Op') (Sum.elim Res Res') ε α
  | ret a => ret a
  | raise e => raise e
  | call o k => call (.inl o) fun r => (k r).inl

/-- Operations of either kind, on one state. -/
def Sem.sum (exec : Sem Op Res ε σ) (exec' : Sem Op' Res' ε σ) :
    Sem (Op ⊕ Op') (Sum.elim Res Res') ε σ
  | .inl o, s, r, s' => exec o s r s'
  | .inr o, s, r, s' => exec' o s r s'

variable {exec' : Sem Op' Res' ε σ}

theorem wp_inl : ∀ {p : Prog Op Res ε α} {s : σ},
    wp (Sem.sum exec exec') I p.inl Q E s ↔ wp exec I p Q E s
  | ret _, _ => .rfl
  | raise _, _ => .rfl
  | call _ _, _ => and_congr_right fun _ =>
      forall_congr' fun _ => forall_congr' fun _ => imp_congr_right fun _ => wp_inl

theorem Keeps.inl {P : σ → Prop} {p : Prog Op Res ε α} (h : Keeps exec P p) :
    Keeps (Sem.sum exec exec') P p.inl := fun s hs => wp_inl.mpr (h s hs)

theorem Steps.inl {p p' : Prog Op Res ε α} {s s' : σ} (h : Steps exec p s p' s') :
    Steps (Sem.sum exec exec') p.inl s p'.inl s' := by
  induction h with
  | refl p s => exact .refl _ s
  | head h _ ih => exact .head h ih

end Among

/-! ### Operations that are answered by a function -/

section Handled

variable {handle : (o : Op) → σ → Except ε (Res o) × σ}

/-- The operations, where each has one answer. -/
def Handled (handle : (o : Op) → σ → Except ε (Res o) × σ) : Sem Op Res ε σ :=
  fun o s r s' => handle o s = (r, s')

/-- An operation that answers, and then the rest. -/
theorem wp_answers {o : Op} {a : Res o} {f : Res o → Prog Op Res ε α} {Q : α → σ → Prop}
    (ho : handle o s = (.ok a, s')) (hI : I s) (h : wp (Handled handle) I (f a) Q E s') :
    wp (Handled handle) I (perform o >>= f) Q E s := by
  refine (wp_bind f).mpr (wp_perform.mpr ⟨hI, fun r t hx => ?_⟩)
  obtain ⟨rfl, rfl⟩ := Prod.mk.inj (hx.symm.trans ho)
  exact answer_ok h

/-- What the whole program leaves. -/
theorem wp_run {Q : α → σ → Prop} : ∀ {p : Prog Op Res ε α} {s : σ},
    wp (Handled handle) I p Q E s →
      (∀ a s', p.run handle s = (.ok a, s') → Q a s') ∧
        ∀ e s', p.run handle s = (.error e, s') → E e s'
  | ret _, _, h => by
    constructor
    · rintro _ _ ⟨⟩
      exact h
    · rintro _ _ ⟨⟩
  | raise _, _, h => by
    constructor
    · rintro _ _ ⟨⟩
    · rintro _ _ ⟨⟩
      exact h
  | call o k, s, h => wp_run (p := k (handle o s).1) (s := (handle o s).2) (h.2 _ _ rfl)

/-- What the program leaves where it is stopped. -/
theorem wp_stopped {p : Prog Op Res ε α} (h : wp (Handled handle) I p (fun _ => I) (fun _ => I) s)
    (n : Nat) : I (stopped handle n p s) :=
  wp_crash (steps_runOps (fun _ _ => rfl) n p s) h

end Handled

/-! ## Loops -/

/-- The fold of a program over a list. -/
def foldEach {γ : Type} (f : γ → α → Prog Op Res ε γ) : γ → List α → Prog Op Res ε γ
  | g, [] => ret g
  | g, a :: as => f g a >>= fun g' => foldEach f g' as

/-- The rule of a loop, with an invariant over what was done and what was folded. -/
theorem wp_foldEach {γ : Type} {f : γ → α → Prog Op Res ε γ} {l : List α}
    {J : List α → γ → σ → Prop}
    (hstep : ∀ done a rest g s, l = done ++ a :: rest → J done g s →
      wp exec I (f g a) (J (done ++ [a])) E s) {g : γ} (h : J [] g s) :
    wp exec I (foldEach f g l) (J l) E s := by
  have hfrom : ∀ (rest done : List α) (g : γ) (s : σ), l = done ++ rest → J done g s →
      wp exec I (foldEach f g rest) (J l) E s := by
    intro rest
    induction rest with
    | nil =>
      intro done g s hl hJ
      rw [List.append_nil] at hl
      exact hl ▸ hJ
    | cons a rest ih =>
      intro done g s hl hJ
      refine (wp_bind _).mpr (wp_mono (fun _ => id) (fun g' s' hJ' => ?_) (fun _ _ => id)
        (hstep done a rest g s hl hJ))
      exact ih (done ++ [a]) g' s' (by rw [hl, List.append_assoc]; rfl) hJ'
  exact hfrom l [] g s rfl h

/-! ## Ghost state -/

/-- `exec`, where `upd` keeps a record of the operations beside the state. -/
def withGhost {γ : Type} (exec : Sem Op Res ε σ)
    (upd : (o : Op) → σ → Except ε (Res o) → σ → γ → γ) : Sem Op Res ε (σ × γ) :=
  fun o s r s' => exec o s.1 r s'.1 ∧ s'.2 = upd o s.1 r s'.1 s.2

/-- What an operation answers and leaves, with its record. -/
theorem wp_perform_ghost {γ : Type} {upd : (o : Op) → σ → Except ε (Res o) → σ → γ → γ} {o : Op}
    {I : σ × γ → Prop} {Q : Res o → σ × γ → Prop} {E : ε → σ × γ → Prop} {s : σ} {g : γ} :
    wp (withGhost exec upd) I (perform o) Q E (s, g) ↔ I (s, g) ∧ ∀ r s', exec o s r s' →
      (∀ a, r = .ok a → Q a (s', upd o s r s' g)) ∧
        ∀ e, r = .error e → E e (s', upd o s r s' g) := by
  refine wp_perform.trans (and_congr_right fun _ => ⟨fun h r s' hx => h r (s', _) ⟨hx, rfl⟩, ?_⟩)
  intro h r s' hx
  have hr := h r s'.1 hx.1
  rw [← hx.2] at hr
  exact hr

/-! ## Pools -/

/-- One step of a pool: a program joins, or one of them does its next operation. A crashed
program is one that is not scheduled again. -/
inductive PoolStep (exec : Sem Op Res ε σ) (Spawn : Prog Op Res ε α → Prop) :
    σ × List (Prog Op Res ε α) → σ × List (Prog Op Res ε α) → Prop where
  | spawn {s : σ} {ps : List (Prog Op Res ε α)} {p : Prog Op Res ε α} (h : Spawn p) :
      PoolStep exec Spawn (s, ps) (s, p :: ps)
  | op {s s' : σ} {o : Op} {k : Except ε (Res o) → Prog Op Res ε α} {r : Except ε (Res o)}
      {ps qs : List (Prog Op Res ε α)} (h : exec o s r s') :
      PoolStep exec Spawn (s, ps ++ call o k :: qs) (s', ps ++ k r :: qs)

/-- The pools reached from no program and the state `init`. -/
def PoolReach (exec : Sem Op Res ε σ) (Spawn : Prog Op Res ε α → Prop) (init : σ)
    (c : σ × List (Prog Op Res ε α)) : Prop :=
  Relation.ReflTransGen (PoolStep exec Spawn) (init, []) c

theorem PoolReach.invariant {Spawn : Prog Op Res ε α → Prop} {init : σ}
    {J : σ × List (Prog Op Res ε α) → Prop} (h0 : J (init, []))
    (hJ : ∀ c c', PoolStep exec Spawn c c' → J c → J c') {c : σ × List (Prog Op Res ε α)}
    (h : PoolReach exec Spawn init c) : J c := by
  induction h with
  | refl => exact h0
  | tail _ hs ih => exact hJ _ _ hs ih

/-- Program `i` does its next operation, answered by `handle`, when `ok` lets it. -/
def poolOp (ok : Op → σ → Bool) (handle : (o : Op) → σ → Except ε (Res o) × σ) :
    Nat → σ → List (Prog Op Res ε α) → σ × List (Prog Op Res ε α)
  | 0, s, call o k :: qs =>
    if ok o s then ((handle o s).2, k (handle o s).1 :: qs) else (s, call o k :: qs)
  | i + 1, s, p :: qs => ((poolOp ok handle i s qs).1, p :: (poolOp ok handle i s qs).2)
  | _, s, ps => (s, ps)

/-- The programs `ps` take turns as `schedule` says. -/
def runPool (ok : Op → σ → Bool) (handle : (o : Op) → σ → Except ε (Res o) × σ)
    (schedule : List Nat) (s : σ) (ps : List (Prog Op Res ε α)) : σ × List (Prog Op Res ε α) :=
  schedule.foldl (fun c i => poolOp ok handle i c.1 c.2) (s, ps)

variable {Spawn : Prog Op Res ε α → Prop} (ok : Op → σ → Bool)
  (handle : (o : Op) → σ → Except ε (Res o) × σ)

theorem poolStep_poolOp (hx : ∀ o s, ok o s = true → exec o s (handle o s).1 (handle o s).2) :
    ∀ (i : Nat) (s : σ) (ps qs : List (Prog Op Res ε α)),
      Relation.ReflTransGen (PoolStep exec Spawn) (s, ps ++ qs)
        ((poolOp ok handle i s qs).1, ps ++ (poolOp ok handle i s qs).2)
  | 0, s, ps, call o k :: qs => by
    unfold poolOp
    split
    · next h => exact .single (.op (hx o s h))
    · exact .refl
  | 0, _, _, [] => .refl
  | 0, _, _, ret _ :: _ => .refl
  | 0, _, _, raise _ :: _ => .refl
  | _ + 1, _, _, [] => .refl
  | i + 1, s, ps, p :: qs => by
    have h := poolStep_poolOp hx i s (ps ++ [p]) qs
    simpa [poolOp] using h

theorem poolReach_spawn {init : σ} :
    ∀ (ps : List (Prog Op Res ε α)), (∀ p ∈ ps, Spawn p) → PoolReach exec Spawn init (init, ps)
  | [], _ => .refl
  | p :: ps, h =>
    (poolReach_spawn ps fun q hq => h q (List.mem_cons_of_mem _ hq)).tail
      (.spawn (h p List.mem_cons_self))

/-- Programs that take turns. -/
theorem poolSteps_runPool (hx : ∀ o s, ok o s = true → exec o s (handle o s).1 (handle o s).2)
    (schedule : List Nat) (s : σ) (ps : List (Prog Op Res ε α)) :
    Relation.ReflTransGen (PoolStep exec Spawn) (s, ps) (runPool ok handle schedule s ps) := by
  have hrun : ∀ (schedule : List Nat) (c : σ × List (Prog Op Res ε α)),
      Relation.ReflTransGen (PoolStep exec Spawn) c
        (schedule.foldl (fun c i => poolOp ok handle i c.1 c.2) c) := by
    intro schedule
    induction schedule with
    | nil => exact fun c => .refl
    | cons i is ih => exact fun c => (poolStep_poolOp ok handle hx i c.1 [] c.2).trans (ih _)
  exact hrun schedule (s, ps)

/-- Programs that join at the start and take turns reach what `runPool` computes. -/
theorem poolReach_runPool {init : σ} {ps : List (Prog Op Res ε α)}
    (hx : ∀ o s, ok o s = true → exec o s (handle o s).1 (handle o s).2)
    (hps : ∀ p ∈ ps, Spawn p) (schedule : List Nat) :
    PoolReach exec Spawn init (runPool ok handle schedule init ps) :=
  (poolReach_spawn ps hps).trans (poolSteps_runPool ok handle hx schedule init ps)

/-! ## Crashes -/

/-- One step of a pool whose programs can also crash, which ends them. `ok` is what is asked
of an operation, of the state before it and of the other programs. -/
inductive CrashStep (exec : Sem Op Res ε σ) (Spawn : Prog Op Res ε α → Prop)
    (ok : (o : Op) → σ → Except ε (Res o) → List (Prog Op Res ε α) → Prop) :
    σ × List (Prog Op Res ε α) → σ × List (Prog Op Res ε α) → Prop where
  | spawn {s : σ} {ps : List (Prog Op Res ε α)} {p : Prog Op Res ε α} (h : Spawn p) :
      CrashStep exec Spawn ok (s, ps) (s, p :: ps)
  | crash {s : σ} {ps qs : List (Prog Op Res ε α)} {p : Prog Op Res ε α} :
      CrashStep exec Spawn ok (s, ps ++ p :: qs) (s, ps ++ qs)
  | op {s s' : σ} {o : Op} {k : Except ε (Res o) → Prog Op Res ε α} {r : Except ε (Res o)}
      {ps qs : List (Prog Op Res ε α)} (h : exec o s r s') (hok : ok o s r (ps ++ qs)) :
      CrashStep exec Spawn ok (s, ps ++ call o k :: qs) (s', ps ++ k r :: qs)

/-- The pools reached from no program and the state `init`, where programs can crash. -/
def CrashReach (exec : Sem Op Res ε σ) (Spawn : Prog Op Res ε α → Prop)
    (ok : (o : Op) → σ → Except ε (Res o) → List (Prog Op Res ε α) → Prop) (init : σ)
    (c : σ × List (Prog Op Res ε α)) : Prop :=
  Relation.ReflTransGen (CrashStep exec Spawn ok) (init, []) c

section

variable {ok : (o : Op) → σ → Except ε (Res o) → List (Prog Op Res ε α) → Prop}

theorem CrashReach.invariant {init : σ} {J : σ × List (Prog Op Res ε α) → Prop}
    (h0 : J (init, [])) (hJ : ∀ c c', CrashStep exec Spawn ok c c' → J c → J c')
    {c : σ × List (Prog Op Res ε α)} (h : CrashReach exec Spawn ok init c) : J c := by
  induction h with
  | refl => exact h0
  | tail _ hs ih => exact hJ _ _ hs ih

/-- What every program satisfies when it joins, keeps over its own operations, and keeps over
those of the others, every program satisfies. -/
theorem CrashStep.programs {K : σ → Prog Op Res ε α → Prop} (hspawn : ∀ s p, Spawn p → K s p)
    (hown : ∀ {o k r s s'}, exec o s r s' → K s (call o k) → K s' (k r))
    (hother : ∀ {o r s s' ps p}, exec o s r s' → ok o s r ps → p ∈ ps → K s p → K s' p)
    {c c' : σ × List (Prog Op Res ε α)} (hs : CrashStep exec Spawn ok c c')
    (h : ∀ p ∈ c.2, K c.1 p) : ∀ p ∈ c'.2, K c'.1 p := by
  have hmem : ∀ {ps qs : List (Prog Op Res ε α)} {p q : Prog Op Res ε α}, p ∈ ps ++ qs →
      p ∈ ps ++ q :: qs := by
    intro ps qs p q hp
    rcases List.mem_append.mp hp with hp | hp
    · exact List.mem_append_left _ hp
    · exact List.mem_append_right _ (List.mem_cons_of_mem _ hp)
  cases hs with
  | spawn hp =>
    intro p hq
    rcases List.mem_cons.mp hq with rfl | hq
    · exact hspawn _ _ hp
    · exact h p hq
  | crash => exact fun p hp => h p (hmem hp)
  | op hx hok =>
    intro p hp
    have hkept := fun hp => hother hx hok hp (h p (hmem hp))
    rcases List.mem_append.mp hp with hp | hp
    · exact hkept (List.mem_append_left _ hp)
    · rcases List.mem_cons.mp hp with rfl | hp
      · exact hown hx (h _ (List.mem_append_right _ List.mem_cons_self))
      · exact hkept (List.mem_append_right _ hp)

/-- A pool where no program crashes and every operation meets `ok`. -/
theorem crashReach_of_pool {exec' : Sem Op Res ε σ}
    (hx : ∀ o s r s' ps, exec' o s r s' → exec o s r s' ∧ ok o s r ps) {init : σ}
    {c : σ × List (Prog Op Res ε α)} (h : PoolReach exec' Spawn init c) :
    CrashReach exec Spawn ok init c := by
  induction h with
  | refl => exact .refl
  | tail _ hs ih =>
    cases hs with
    | spawn hp => exact ih.tail (.spawn hp)
    | op h =>
      obtain ⟨hexec, hok⟩ := hx _ _ _ _ _ h
      exact ih.tail (.op hexec hok)

/-- A program that runs beside programs that stand still. -/
theorem crashSteps_of_steps {p p' : Prog Op Res ε α} {s s' : σ} (h : Steps exec p s p' s')
    {qs : List (Prog Op Res ε α)} (hok : ∀ o s r, ok o s r qs) :
    Relation.ReflTransGen (CrashStep exec Spawn ok) (s, p :: qs) (s', p' :: qs) := by
  induction h with
  | refl p s => exact .refl
  | @head o k r s s' _ _ hx _ ih =>
    have hop : CrashStep exec Spawn ok (s, [] ++ call o k :: qs) (s', [] ++ k r :: qs) :=
      .op hx (hok _ _ _)
    exact .head hop ih

end

end Effects
