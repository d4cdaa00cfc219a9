import Greenfield.Lib.Effect

/-!
# Programs beside an environment

Between the operations of a program an environment takes steps of its own. `among` has them
before and after every operation, so a weakest precondition over it is one in spite of the
environment, and `wpAmong` is the part of it that the steps of both keep.
-/

namespace Effects

open Prog Relation

variable {Op : Type} {Res : Op → Type} {ε α σ : Type} {exec : Sem Op Res ε σ}
  {env : σ → σ → Prop} {I P : σ → Prop} {Q : α → σ → Prop} {E : ε → σ → Prop} {s s' : σ}

/-- The environment keeps `P`. -/
def Stable (env : σ → σ → Prop) (P : σ → Prop) : Prop := ∀ s s', env s s' → P s → P s'

theorem Stable.run (hP : Stable env P) (h : ReflTransGen env s s') (hs : P s) : P s' := by
  induction h with
  | refl => exact hs
  | tail _ hstep ih => exact hP _ _ hstep ih

/-- `exec`, with steps of the environment before and after. -/
def among (env : σ → σ → Prop) (exec : Sem Op Res ε σ) : Sem Op Res ε σ := fun o s r s' =>
  ∃ t t', ReflTransGen env s t ∧ exec o t r t' ∧ ReflTransGen env t' s'

/-- An operation from `P` leaves `R`, if the environment keeps both. -/
theorem wp_perform_among {o : Op} {R : Except ε (Res o) → σ → Prop} {Q : Res o → σ → Prop}
    (hP : Stable env P) (hR : ∀ r, Stable env (R r))
    (hstep : ∀ s r s', P s → exec o s r s' → R r s') (hI : I s) (hs : P s)
    (hok : ∀ a s', R (.ok a) s' → Q a s') (herr : ∀ e s', R (.error e) s' → E e s') :
    wp (among env exec) I (perform o) Q E s := by
  refine wp_perform.mpr ⟨hI, ?_⟩
  rintro r s' ⟨t, t', hbefore, hx, hafter⟩
  have hr : R r s' := (hR r).run hafter (hstep t r t' (hP.run hbefore hs) hx)
  constructor
  · rintro a rfl
    exact hok a s' hr
  · rintro e rfl
    exact herr e s' hr

variable {p : Prog Op Res ε α}

/-- A program whose operations and environment keep `P`. -/
theorem wp_keeps_among (hP : Stable env P) (hx : ∀ o s r s', exec o s r s' → P s → P s')
    (hI : ∀ s, P s → I s) (hQ : ∀ a s, P s → Q a s) (hE : ∀ e s, P s → E e s)
    (hs : P s) : wp (among env exec) I p Q E s := by
  refine wp_mono hI hQ hE (wp_invariant ?_ hs)
  rintro o s r s' ⟨t, t', hbefore, hop, hafter⟩ hs
  exact hP.run hafter (hx o t r t' hop (hP.run hbefore hs))

/-- The precondition, whatever the environment does first. -/
def wpAmong (env : σ → σ → Prop) (exec : Sem Op Res ε σ) (I : σ → Prop) (p : Prog Op Res ε α)
    (Q : α → σ → Prop) (E : ε → σ → Prop) (s : σ) : Prop :=
  ∀ s', ReflTransGen env s s' → wp (among env exec) I p Q E s'

theorem wpAmong.beside (h : wpAmong env exec I p Q E s) (hs : env s s') :
    wpAmong env exec I p Q E s' := fun t ht => h t (.head hs ht)

theorem wpAmong.op {o : Op} {k : Except ε (Res o) → Prog Op Res ε α} {r : Except ε (Res o)}
    (h : wpAmong env exec I (call o k) Q E s) (hs : exec o s r s') :
    wpAmong env exec I (k r) Q E s' := fun t ht => (h s .refl).2 r t ⟨s, s', .refl, hs, ht⟩

/-- The crash condition holds where the program stands. -/
theorem wpAmong.crash (h : wpAmong env exec I p Q E s)
    (hQ : ∀ a s, Q a s → I s) (hE : ∀ e s, E e s → I s) : I s := by
  have h := h s .refl
  cases p with
  | ret a => exact hQ a s h
  | raise e => exact hE e s h
  | call o k => exact h.1

end Effects
