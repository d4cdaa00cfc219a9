import Mathlib.Data.List.Forall2
import Mathlib.Algebra.BigOperators.Group.List.Basic
import Mathlib.Tactic.Abel

/-!
# Batches

A feeder takes items one at a time and in rising rank. It holds the items of one batch; an item
of another batch closes the batch that is held, and `flush` closes the last one. What an item
does is said once, for two feeders that differ in how they close a batch (`feed_alike`): they
differ only where a close does.
-/

namespace Batches

structure Held (α κ ι β : Type) where
  pending : List α := []
  batch : Option κ := none
  last : Option ι := none
  state : β

structure Feeder (α κ ι β ω ε : Type) where
  check : α → Except ε Unit
  rank : α → ι
  unordered : ε
  batchOf : α → κ
  close : Held α κ ι β → Except ε ω × Held α κ ι β

variable {α κ ι β γ ω ω' ε : Type}

def Held.clear (h : Held α κ ι β) : Held α κ ι β := { h with pending := [], batch := none }

namespace Feeder

def push (f : Feeder α κ ι β ω ε) (h : Held α κ ι β) (x : α) : Held α κ ι β :=
  { h with
    pending := h.pending ++ [x]
    batch := if h.pending.isEmpty then some (f.batchOf x) else h.batch }

/-- What is done with an item once the batch before it is closed. -/
def pushAfter (f : Feeder α κ ι β ω ε) (x : α) :
    Except ε ω × Held α κ ι β → Except ε (List ω) × Held α κ ι β
  | (.error e, next) => (.error e, next)
  | (.ok out, next) => (.ok [out], f.push next x)

/-- Does the item close the batch that is held? -/
def closes [DecidableEq κ] (f : Feeder α κ ι β ω ε) (h : Held α κ ι β) (x : α) : Bool :=
  h.batch.any (· ≠ f.batchOf x)

def ranked (f : Feeder α κ ι β ω ε) (h : Held α κ ι β) (x : α) : Held α κ ι β :=
  { h with last := some (f.rank x) }

variable [DecidableEq κ] [LE ι] [DecidableLE ι]

/-- Does the item come after the last one? -/
def rises (f : Feeder α κ ι β ω ε) (h : Held α κ ι β) (x : α) : Bool :=
  h.last.all fun last => ¬ f.rank x ≤ last

def feed (f : Feeder α κ ι β ω ε) (h : Held α κ ι β) (x : α) :
    Except ε (List ω) × Held α κ ι β :=
  match f.check x with
  | .error e => (.error e, h)
  | .ok () =>
    if !f.rises h x then (.error f.unordered, h)
    else if f.closes h x then f.pushAfter x (f.close (f.ranked h x))
    else (.ok [], f.push (f.ranked h x) x)

def feedAll (f : Feeder α κ ι β ω ε) (h : Held α κ ι β) :
    List α → Except ε (List ω) × Held α κ ι β
  | [] => (.ok [], h)
  | x :: xs =>
    match f.feed h x with
    | (.error e, next) => (.error e, next)
    | (.ok out, next) =>
      match feedAll f next xs with
      | (.error e, last) => (.error e, last)
      | (.ok outs, last) => (.ok (out ++ outs), last)

omit [DecidableEq κ] [LE ι] [DecidableLE ι] in
/-- What `flush` answers of a batch that is closed. -/
def only : Except ε ω × Held α κ ι β → Except ε (List ω) × Held α κ ι β
  | (.error e, next) => (.error e, next)
  | (.ok out, next) => (.ok [out], next)

omit [DecidableEq κ] [LE ι] [DecidableLE ι] in
def flush (f : Feeder α κ ι β ω ε) (h : Held α κ ι β) : Except ε (List ω) × Held α κ ι β :=
  if h.pending.isEmpty then (.ok [], h) else only (f.close h)

/-- An item, or the end. -/
def input (f : Feeder α κ ι β ω ε) (h : Held α κ ι β) :
    Option α → Except ε (List ω) × Held α κ ι β
  | some x => f.feed h x
  | none => f.flush h

/-- Does the input close a batch? -/
def closing (f : Feeder α κ ι β ω ε) (h : Held α κ ι β) : Option α → Bool
  | some x => (f.check x).toBool && f.rises h x && f.closes h x
  | none => !h.pending.isEmpty

omit [DecidableEq κ] [LE ι] [DecidableLE ι] in
/-- What is held when the input closes the batch. -/
def before (f : Feeder α κ ι β ω ε) (h : Held α κ ι β) : Option α → Held α κ ι β
  | some x => f.ranked h x
  | none => h

omit [DecidableEq κ] [LE ι] [DecidableLE ι] in
/-- What is done once the batch is closed. -/
def after (f : Feeder α κ ι β ω ε) :
    Option α → Except ε ω × Held α κ ι β → Except ε (List ω) × Held α κ ι β
  | some x => f.pushAfter x
  | none => only

variable {f : Feeder α κ ι β ω ε} {h : Held α κ ι β} {i : Option α} {x : α}

theorem feed_closes (hcheck : f.check x = .ok ()) (hrises : f.rises h x = true)
    (hcloses : f.closes h x = true) : f.feed h x = f.pushAfter x (f.close (f.ranked h x)) := by
  unfold feed
  simp only [hcheck, hrises, hcloses, Bool.not_true, Bool.false_eq_true, if_false, if_true]

theorem feed_holds (hcheck : f.check x = .ok ()) (hrises : f.rises h x = true)
    (hcloses : f.closes h x = false) : f.feed h x = (.ok [], f.push (f.ranked h x) x) := by
  unfold feed
  simp only [hcheck, hrises, hcloses, Bool.not_true, Bool.false_eq_true, if_false]

theorem input_closing (hc : f.closing h i = true) :
    f.input h i = f.after i (f.close (f.before h i)) := by
  cases i with
  | none =>
    have hpending : h.pending.isEmpty = false := by simpa [closing] using hc
    unfold input flush
    simp only [hpending, Bool.false_eq_true, if_false]
    rfl
  | some x =>
    simp only [closing, Bool.and_eq_true] at hc
    obtain ⟨⟨hcheck, hrises⟩, hcloses⟩ := hc
    cases hx : f.check x with
    | error e => simp [hx, Except.toBool] at hcheck
    | ok _ => exact feed_closes hx hrises hcloses

omit [DecidableEq κ] [LE ι] [DecidableLE ι] in
omit [DecidableEq κ] [LE ι] [DecidableLE ι] in
theorem before_state : (f.before h i).state = h.state := by
  cases i with
  | none => rfl
  | some x => rfl

omit [DecidableEq κ] [LE ι] [DecidableLE ι] in
theorem before_pending : (f.before h i).pending = h.pending := by
  cases i with
  | none => rfl
  | some x => rfl

omit [DecidableEq κ] [LE ι] [DecidableLE ι] in
theorem after_state (r : Except ε ω × Held α κ ι β) : (f.after i r).2.state = r.2.state := by
  obtain ⟨answer, next⟩ := r
  cases i with
  | none =>
    cases answer with
    | error e => rfl
    | ok out => rfl
  | some x =>
    cases answer with
    | error e => rfl
    | ok out => rfl

variable {y : α}

omit [DecidableEq κ] [LE ι] [DecidableLE ι] in
theorem mem_push (hy : y ∈ (f.push h x).pending) : y ∈ h.pending ∨ y = x := by
  rcases List.mem_append.mp hy with hy | hy
  · exact .inl hy
  · exact .inr (List.mem_singleton.mp hy)

theorem mem_feed (hclose : ∀ h, ∀ y ∈ (f.close h).2.pending, y ∈ h.pending)
    (hy : y ∈ (f.feed h x).2.pending) : y ∈ h.pending ∨ y = x := by
  unfold feed at hy
  split at hy
  · exact .inl hy
  · split at hy
    · exact .inl hy
    · split at hy
      · have hclosed := hclose (f.ranked h x)
        unfold pushAfter at hy
        split at hy
        · next heq =>
          rw [heq] at hclosed
          exact .inl (hclosed y hy)
        · next heq =>
          rw [heq] at hclosed
          exact (mem_push (f := f) hy).imp_left (hclosed y)
      · exact mem_push (f := f) hy

/-- What is held after an input was held before it, or is the item. -/
theorem mem_input (hclose : ∀ h, ∀ y ∈ (f.close h).2.pending, y ∈ h.pending)
    (hy : y ∈ (f.input h i).2.pending) : y ∈ h.pending ∨ i = some y := by
  cases i with
  | none =>
    left
    simp only [input, flush] at hy
    split at hy
    · exact hy
    · apply hclose
      unfold only at hy
      split at hy
      · next heq => rwa [heq]
      · next heq => rwa [heq]
  | some x => exact (mem_feed hclose hy).imp_right fun heq => by rw [heq]

/-- The items of the batch that is held are held with it. -/
theorem feedAll_held {k : κ} : ∀ (xs : List α) {h : Held α κ ι β}, h.batch = some k →
    h.pending ≠ [] → (∀ y ∈ xs, f.check y = .ok () ∧ f.batchOf y = k) →
    (∀ last, h.last = some last → ∀ y ∈ xs, ¬ f.rank y ≤ last) →
    xs.Pairwise (fun y z => ¬ f.rank z ≤ f.rank y) →
    ∃ last, f.feedAll h xs = (.ok [], { h with pending := h.pending ++ xs, last })
  | [], h, _, _, _, _, _ => ⟨h.last, by simp [feedAll]⟩
  | y :: xs, h, hbatch, hne, hitems, hlast, hrise => by
    obtain ⟨hy, hxs⟩ := List.pairwise_cons.mp hrise
    obtain ⟨hcheck, hk⟩ := hitems y List.mem_cons_self
    have hrises : f.rises h y = true := by
      unfold rises
      cases hl : h.last with
      | none => rfl
      | some last => simpa using hlast last hl y List.mem_cons_self
    have hcloses : f.closes h y = false := by
      unfold closes
      simp [hbatch, hk]
    have hpush : f.push (f.ranked h y) y =
        { h with pending := h.pending ++ [y], last := some (f.rank y) } := by
      unfold push ranked
      simp [hne]
    have hfeed := feed_holds hcheck hrises hcloses
    obtain ⟨last, hrest⟩ := feedAll_held xs
      (h := { h with pending := h.pending ++ [y], last := some (f.rank y) }) hbatch
      (by simp) (fun z hz => hitems z (List.mem_cons_of_mem _ hz))
      (fun last hl z hz => Option.some.inj hl ▸ hy z hz) hxs
    refine ⟨last, ?_⟩
    unfold feedAll
    rw [hfeed, hpush]
    simp only [hrest, List.append_assoc, List.singleton_append, List.append_nil]

/-- The items of a new batch are held, and the batch before it is closed. -/
theorem feedAll_batch {k : κ} {xs : List α} {outs : List ω} {state : β}
    (hitems : ∀ y ∈ x :: xs, f.check y = .ok () ∧ f.batchOf y = k)
    (hrise : (x :: xs).Pairwise fun y z => ¬ f.rank z ≤ f.rank y)
    (hfeed : f.feed h x = (.ok outs, { pending := [x], batch := some k, last := some (f.rank x),
                                       state })) :
    ∃ last, f.feedAll h (x :: xs) =
      (.ok outs, { pending := x :: xs, batch := some k, last, state }) := by
  obtain ⟨hx, hxs⟩ := List.pairwise_cons.mp hrise
  obtain ⟨last, hrest⟩ := feedAll_held (f := f) xs
    (h := { pending := [x], batch := some k, last := some (f.rank x), state }) rfl (by simp)
    (fun y hy => hitems y (List.mem_cons_of_mem x hy))
    (fun last hl y hy => Option.some.inj hl ▸ hx y hy) hxs
  refine ⟨last, ?_⟩
  unfold feedAll
  rw [hfeed]
  simp only [hrest, List.append_nil, List.singleton_append]

/-! ### Results of a stream -/

/-- What is answered for items and the end after them. -/
def results (f : Feeder α κ ι β ω ε) (h : Held α κ ι β) (xs : List α) : Except ε (List ω) :=
  match f.feedAll h xs with
  | (.error e, _) => .error e
  | (.ok outs, next) =>
    match (f.flush next).1 with
    | .error e => .error e
    | .ok rest => .ok (outs ++ rest)

theorem results_eq_ok {xs : List α} {w : List ω} : f.results h xs = .ok w ↔
    ∃ outs next rest, f.feedAll h xs = (.ok outs, next) ∧ (f.flush next).1 = .ok rest ∧
      w = outs ++ rest := by
  unfold results
  constructor
  · intro hw
    split at hw
    · cases hw
    · next outs next hfeed =>
      split at hw
      · cases hw
      · next rest hflush =>
        cases hw
        exact ⟨outs, next, rest, hfeed, hflush, rfl⟩
  · rintro ⟨outs, next, rest, hfeed, hflush, rfl⟩
    simp only [hfeed, hflush]

variable {outs : List ω} {last : Held α κ ι β}

theorem feedAll_cons {xs : List α} :
    f.feedAll h (x :: xs) = (.ok outs, last) ↔ ∃ first next rest,
      f.feed h x = (.ok first, next) ∧ f.feedAll next xs = (.ok rest, last) ∧
        outs = first ++ rest := by
  constructor
  · intro hall
    unfold feedAll at hall
    split at hall
    · cases hall
    · next first next hfeed =>
      split at hall
      · cases hall
      · next rest last' hrest =>
        cases hall
        exact ⟨first, next, rest, hfeed, hrest, rfl⟩
  · rintro ⟨first, next, rest, hfeed, hrest, rfl⟩
    unfold feedAll
    simp only [hfeed, hrest]

theorem feedAll_append {xs ys : List α} :
    ∀ {h : Held α κ ι β} {outs : List ω}, f.feedAll h (xs ++ ys) = (.ok outs, last) →
      ∃ first next rest, f.feedAll h xs = (.ok first, next) ∧
        f.feedAll next ys = (.ok rest, last) ∧ outs = first ++ rest := by
  induction xs with
  | nil => exact fun hall => ⟨[], _, _, rfl, hall, rfl⟩
  | cons x xs ih =>
    intro h outs hall
    obtain ⟨first, next, rest, hfeed, hrest, rfl⟩ := feedAll_cons.mp hall
    obtain ⟨first', next', rest', hfeed', hrest', rfl⟩ := ih hrest
    exact ⟨first ++ first', next', rest', feedAll_cons.mpr ⟨first, next, first', hfeed, hfeed', rfl⟩,
      hrest', (List.append_assoc ..).symm⟩

/-! ### What is closed -/

/-- A batch that was closed: what was held, what was answered of it and what was left. -/
structure Closed (α κ ι β ω : Type) where
  held : Held α κ ι β
  out : ω
  next : Held α κ ι β

/-- Items and ends, in turn. -/
def inputAll (f : Feeder α κ ι β ω ε) (h : Held α κ ι β) :
    List (Option α) → Except ε (List ω) × Held α κ ι β
  | [] => (.ok [], h)
  | i :: is =>
    match f.input h i with
    | (.error e, next) => (.error e, next)
    | (.ok out, next) =>
      match inputAll f next is with
      | (.error e, last) => (.error e, last)
      | (.ok outs, last) => (.ok (out ++ outs), last)

/-- The batches that items and ends close. -/
def closed (f : Feeder α κ ι β ω ε) (h : Held α κ ι β) :
    List (Option α) → List (Closed α κ ι β ω)
  | [] => []
  | i :: is =>
    let later := closed f (f.input h i).2 is
    if f.closing h i then
      match f.close (f.before h i) with
      | (.error _, _) => later
      | (.ok out, next) => ⟨f.before h i, out, next⟩ :: later
    else later

omit [DecidableEq κ] [LE ι] [DecidableLE ι] in
/-- Each batch is closed in the state that the one before it left. -/
def Chained (first last : β) : List (Closed α κ ι β ω) → Prop
  | [] => first = last
  | c :: cs => c.held.state = first ∧ Chained c.next.state last cs

omit [DecidableEq κ] [LE ι] [DecidableLE ι] in
theorem chained_append {cs ds : List (Closed α κ ι β ω)} {last : β} : ∀ {first : β},
    Chained first last (cs ++ ds) → ∃ middle, Chained first middle cs ∧ Chained middle last ds := by
  induction cs with
  | nil => exact fun h => ⟨_, rfl, h⟩
  | cons c cs ih =>
    rintro first ⟨hheld, hchain⟩
    obtain ⟨middle, hcs, hds⟩ := ih hchain
    exact ⟨middle, ⟨hheld, hcs⟩, hds⟩

omit [DecidableEq κ] [LE ι] [DecidableLE ι] in
/-- **Telescoping.** If each batch reports what it changes, the reports add up to the change. -/
theorem Chained.sum_eq {M : Type} [AddCommGroup M] {v : β → M} (gain : ω → M) {last : β} :
    ∀ {cs : List (Closed α κ ι β ω)} {first : β}, Chained first last cs →
      (∀ c ∈ cs, gain c.out = v c.next.state - v c.held.state) →
      (cs.map fun c => gain c.out).sum = v last - v first
  | [], _, h, _ => by
    rw [show _ = last from h]
    simp
  | c :: cs, first, ⟨hheld, hchain⟩, hgain => by
    have hrest := hchain.sum_eq gain fun d hd => hgain d (List.mem_cons_of_mem c hd)
    rw [List.map_cons, List.sum_cons, hrest, hgain c List.mem_cons_self, hheld]
    abel

variable {next : Held α κ ι β}

/-- An input that closes no batch answers nothing and leaves the state. -/
theorem input_open (hc : f.closing h i = false)
    (hinput : f.input h i = (.ok outs, next)) : outs = [] ∧ next.state = h.state := by
  cases i with
  | none =>
    have hpending : h.pending.isEmpty = true := by simpa [closing] using hc
    unfold input flush at hinput
    simp only [hpending, if_true] at hinput
    cases hinput
    exact ⟨rfl, rfl⟩
  | some x =>
    change f.feed h x = _ at hinput
    unfold feed at hinput
    split at hinput
    · cases hinput
    · next hcheck =>
      split at hinput
      · cases hinput
      · next hr =>
        have hrises : f.rises h x = true := by simpa using hr
        have hcloses : f.closes h x = false := by
          simpa [closing, hcheck, hrises, Except.toBool] using hc
        simp only [hcloses, Bool.false_eq_true, if_false] at hinput
        cases hinput
        exact ⟨rfl, rfl⟩

/-- An input that closes a batch answers what the close answers. -/
theorem input_close (hc : f.closing h i = true)
    (hinput : f.input h i = (.ok outs, next)) :
    ∃ out left, f.close (f.before h i) = (.ok out, left) ∧ outs = [out] ∧
      next.state = left.state := by
  rw [input_closing hc] at hinput
  have hstate := after_state (f := f) (i := i) (f.close (f.before h i))
  rw [hinput] at hstate
  cases hclose : f.close (f.before h i) with
  | mk answer left =>
    rw [hclose] at hinput hstate
    cases answer with
    | error e =>
      cases i with
      | none => cases hinput
      | some x => cases hinput
    | ok out =>
      refine ⟨out, left, rfl, ?_, hstate⟩
      cases i with
      | none =>
        cases hinput
        rfl
      | some x =>
        cases hinput
        rfl

/-- The batches closed by inputs that are accepted: their answers are the answers of the run, and
they lead from its first state to its last. -/
theorem closed_spec : ∀ {is : List (Option α)} {h h' : Held α κ ι β} {outs : List ω},
    f.inputAll h is = (.ok outs, h') →
      (f.closed h is).map Closed.out = outs ∧ Chained h.state h'.state (f.closed h is) ∧
      ∀ c ∈ f.closed h is, f.close c.held = (.ok c.out, c.next)
  | [], h, h', outs, hall => by
    cases hall
    exact ⟨rfl, rfl, fun c hc => absurd hc List.not_mem_nil⟩
  | i :: is, h, h', outs, hall => by
    unfold inputAll at hall
    split at hall
    · cases hall
    · next first next hinput =>
      split at hall
      · cases hall
      · next rest last hrest =>
        cases hall
        obtain ⟨houts, hchain, hclose⟩ := closed_spec hrest
        unfold closed
        rw [hinput]
        cases hc : f.closing h i with
        | false =>
          obtain ⟨rfl, hstate⟩ := input_open hc hinput
          simp only [Bool.false_eq_true, if_false]
          exact ⟨houts, hstate ▸ hchain, hclose⟩
        | true =>
          obtain ⟨out, left, heq, rfl, hstate⟩ := input_close hc hinput
          simp only [if_true, heq]
          refine ⟨?_, ⟨before_state, hstate ▸ hchain⟩, ?_⟩
          · rw [List.map_cons, houts]
            rfl
          · intro c hmem
            rcases List.mem_cons.mp hmem with rfl | hmem
            · exact heq
            · exact hclose c hmem

/-! ### Two histories -/

/-- What is held after two histories, if the feeder answers the same after both: the same items,
and a close gives the same. -/
structure Forgets (f : Feeder α κ ι β ω ε) (Q : Held α κ ι β → Held α κ ι β → Prop) : Prop where
  clears : ∀ {h out h'}, f.close h = (.ok out, h') →
    h'.pending = [] ∧ h'.batch = none ∧ h'.last = h.last
  unranked : ∀ h x, (f.close (f.ranked h x)).1 = (f.close h).1
  pending : ∀ {h k}, Q h k → h.pending = k.pending
  batch : ∀ {h k}, Q h k → h.batch = k.batch
  last : ∀ {h k}, Q h k → h.last = k.last
  push : ∀ {h k} x, Q h k → Q (f.push h x) (f.push k x)
  ranked : ∀ {h k} x, Q h k → Q (f.ranked h x) (f.ranked k x)
  close : ∀ {h k out h'}, Q h k → f.close h = (.ok out, h') →
    ∃ k', f.close k = (.ok out, k') ∧ Q h' k'

variable {Q : Held α κ ι β → Held α κ ι β → Prop} {k : Held α κ ι β}

theorem Forgets.feed (hf : f.Forgets Q) (hq : Q h k) {h' : Held α κ ι β}
    (hfeed : f.feed h x = (.ok outs, h')) :
    ∃ k', f.feed k x = (.ok outs, k') ∧ Q h' k' := by
  have hrises : f.rises k x = f.rises h x := by
    unfold rises
    rw [hf.last hq]
  have hcloses : f.closes k x = f.closes h x := by
    unfold closes
    rw [hf.batch hq]
  unfold Feeder.feed at hfeed ⊢
  split at hfeed
  · cases hfeed
  · next hcheck =>
    rw [hrises, hcloses]
    split at hfeed
    · cases hfeed
    · next hr =>
      simp only [hr]
      split at hfeed
      · next hc =>
        simp only [hc, if_true]
        unfold pushAfter at hfeed
        split at hfeed
        · cases hfeed
        · next out next hclose =>
          cases hfeed
          obtain ⟨k', hk', hq'⟩ := hf.close (hf.ranked x hq) hclose
          exact ⟨f.push k' x, by rw [hk']; rfl, hf.push x hq'⟩
      · next hc =>
        simp only [hc]
        cases hfeed
        exact ⟨_, rfl, hf.push x (hf.ranked x hq)⟩

theorem Forgets.feedAll (hf : f.Forgets Q) : ∀ {xs : List α} {h k : Held α κ ι β}, Q h k →
    ∀ {outs : List ω} {h' : Held α κ ι β}, f.feedAll h xs = (.ok outs, h') →
      ∃ k', f.feedAll k xs = (.ok outs, k') ∧ Q h' k'
  | [], h, k, hq, outs, h', hall => by
    cases hall
    exact ⟨k, rfl, hq⟩
  | x :: xs, h, k, hq, outs, h', hall => by
    obtain ⟨first, next, rest, hfeed, hrest, rfl⟩ := feedAll_cons.mp hall
    obtain ⟨next', hfeed', hq'⟩ := hf.feed hq hfeed
    obtain ⟨k', hrest', hq''⟩ := hf.feedAll hq' hrest
    exact ⟨k', feedAll_cons.mpr ⟨first, next', rest, hfeed', hrest', rfl⟩, hq''⟩

omit [DecidableEq κ] [LE ι] [DecidableLE ι] in
theorem Forgets.flush (hf : f.Forgets Q) (hq : Q h k)
    (hflush : (f.flush h).1 = .ok outs) : (f.flush k).1 = .ok outs := by
  unfold Feeder.flush at hflush ⊢
  rw [← hf.pending hq]
  split at hflush
  · next hpending =>
    rw [if_pos hpending]
    exact hflush
  · next hpending =>
    rw [if_neg hpending]
    cases hclose : f.close h with
    | mk answer next =>
      rw [hclose] at hflush
      cases answer with
      | error e => cases hflush
      | ok out =>
        obtain ⟨k', hk', -⟩ := hf.close hq hclose
        rw [hk']
        exact hflush

omit [DecidableEq κ] [LE ι] [DecidableLE ι] in
/-- No batch is held, or one of those in `P`. -/
def Opened (P : κ → Prop) (h : Held α κ ι β) : Prop :=
  (h.batch = none ∧ h.pending = []) ∨ ∃ b, h.batch = some b ∧ h.pending ≠ [] ∧ P b

variable {P : κ → Prop}

omit [DecidableEq κ] [LE ι] [DecidableLE ι] in
theorem push_opened (hx : P (f.batchOf x)) (ho : Opened P h) :
    Opened P (f.push h x) := by
  right
  rcases ho with ⟨-, hpending⟩ | ⟨b, hb, hpending, hP⟩
  · refine ⟨f.batchOf x, ?_, by simp [push], hx⟩
    simp [push, hpending]
  · refine ⟨b, ?_, by simp [push], hP⟩
    simp [push, hpending, hb]

theorem Forgets.opened (hf : f.Forgets Q) : ∀ {xs : List α} {h : Held α κ ι β},
    Opened P h → (∀ x ∈ xs, P (f.batchOf x)) → ∀ {outs : List ω} {h' : Held α κ ι β},
      f.feedAll h xs = (.ok outs, h') → Opened P h'
  | [], h, ho, _, outs, h', hall => by
    cases hall
    exact ho
  | x :: xs, h, ho, hxs, outs, h', hall => by
    obtain ⟨first, next, rest, hfeed, hrest, rfl⟩ := feedAll_cons.mp hall
    apply hf.opened ?_ (fun y hy => hxs y (List.mem_cons_of_mem x hy)) hrest
    have hx := hxs x List.mem_cons_self
    unfold Feeder.feed at hfeed
    split at hfeed
    · cases hfeed
    · split at hfeed
      · cases hfeed
      · split at hfeed
        · unfold pushAfter at hfeed
          split at hfeed
          · cases hfeed
          · next hclose =>
            cases hfeed
            obtain ⟨hpending, hbatch, -⟩ := hf.clears hclose
            exact push_opened hx (.inl ⟨hbatch, hpending⟩)
        · cases hfeed
          exact push_opened hx ho

/-- **A restart.** What is answered after a history, from an item on that opens a batch of its own
and after which the history is forgotten, is what is answered without the history. -/
theorem Forgets.restart (hf : f.Forgets Q) {start : Held α κ ι β} {history xs : List α}
    {w : List ω} (hbatch : start.batch = none) (hpending : start.pending = [])
    (hlast : start.last = none) (hhistory : ∀ y ∈ history, f.batchOf y ≠ f.batchOf x)
    (hfirst : ∀ {h}, h.batch = none → h.pending = [] →
      Q (f.push (f.ranked h x) x) (f.push (f.ranked start x) x))
    (hw : f.results start (history ++ x :: xs) = .ok w) :
    ∃ e v, f.results start history = .ok e ∧ f.results start (x :: xs) = .ok v ∧ w = e ++ v := by
  obtain ⟨outs, end', rest, hall, hflush, rfl⟩ := results_eq_ok.mp hw
  obtain ⟨before, h, outs', hbefore, hrest, rfl⟩ := feedAll_append hall
  obtain ⟨first, next, outs'', hfeed, htail, rfl⟩ := feedAll_cons.mp hrest
  have hstart : f.closes start x = false := by simp [closes, hbatch]
  have hrises : f.rises start x = true := by simp [rises, hlast]
  -- what the restarted run answers from the second item on
  have htail' (hcheck : f.check x = .ok ()) (hq : Q next (f.push (f.ranked start x) x)) :
      f.results start (x :: xs) = .ok (outs'' ++ rest) := by
    obtain ⟨k', hk', hq'⟩ := hf.feedAll hq htail
    refine results_eq_ok.mpr ⟨outs'', k', rest, ?_, hf.flush hq' hflush, rfl⟩
    exact feedAll_cons.mpr ⟨[], _, outs'', feed_holds hcheck hrises hstart, hk', rfl⟩
  have hopened := hf.opened (P := (· ≠ f.batchOf x)) (.inl ⟨hbatch, hpending⟩) hhistory hbefore
  unfold Feeder.feed at hfeed
  split at hfeed
  · cases hfeed
  · next hcheck =>
    split at hfeed
    · cases hfeed
    · rcases hopened with ⟨hnone, hempty⟩ | ⟨b, hb, hne, hbx⟩
      · have hcloses : f.closes h x = false := by simp [closes, hnone]
        simp only [hcloses, Bool.false_eq_true, if_false] at hfeed
        cases hfeed
        refine ⟨before, outs'' ++ rest, ?_, htail' hcheck (hfirst hnone hempty), by simp⟩
        refine results_eq_ok.mpr ⟨before, h, [], hbefore, ?_, by simp⟩
        simp [Feeder.flush, hempty]
      · have hcloses : f.closes h x = true := by simp [closes, hb, hbx]
        simp only [hcloses, if_true] at hfeed
        unfold pushAfter at hfeed
        split at hfeed
        · cases hfeed
        · next out closed hclose =>
          cases hfeed
          obtain ⟨hpending', hbatch', hlast'⟩ := hf.clears hclose
          have hranked : f.ranked closed x = closed := by
            unfold Feeder.ranked
            rw [show some (f.rank x) = closed.last from hlast'.symm]
          have hq := hfirst hbatch' hpending'
          rw [hranked] at hq
          refine ⟨before ++ [out], outs'' ++ rest, ?_, htail' hcheck hq, by simp⟩
          refine results_eq_ok.mpr ⟨before, h, [out], hbefore, ?_, rfl⟩
          have hout : (f.close h).1 = .ok out := by
            rw [← hf.unranked h x, hclose]
          cases heq : f.close h with
          | mk answer last =>
            rw [heq] at hout
            cases hout
            simp [Feeder.flush, hne, heq, only]

end Feeder

/-! ## Two feeders -/

/-- The same items are held, and the states are related. -/
structure Alike (R : β → γ → Prop) (h : Held α κ ι β) (k : Held α κ ι γ) : Prop where
  pending : h.pending = k.pending
  batch : h.batch = k.batch
  last : h.last = k.last
  state : R h.state k.state

/-- Both are errors, or both are outputs that are related. -/
def Agree {ε' : Type} (S : ω → ω' → Prop) : Except ε ω → Except ε' ω' → Prop
  | .error _, .error _ => True
  | .ok a, .ok b => S a b
  | _, _ => False

/-- Two feeders that take the items of a kind in the same way. -/
structure Parallel (P : α → Prop) (f : Feeder α κ ι β ω ε) (g : Feeder α κ ι γ ω' ε) : Prop where
  check : ∀ x, P x → (f.check x).toBool = (g.check x).toBool
  rank : f.rank = g.rank
  batchOf : f.batchOf = g.batchOf

section

variable {P : α → Prop} {R : β → γ → Prop} {S : ω → ω' → Prop} {f : Feeder α κ ι β ω ε}
  {g : Feeder α κ ι γ ω' ε} {h : Held α κ ι β} {k : Held α κ ι γ} {i : Option α}

theorem Alike.push (ha : Alike R h k) (hp : Parallel P f g) (x : α) :
    Alike R (f.push h x) (g.push k x) where
  pending := by simp only [Feeder.push, ha.pending]
  batch := by simp only [Feeder.push, ha.pending, ha.batch, hp.batchOf]
  last := ha.last
  state := ha.state

theorem Alike.ranked (ha : Alike R h k) (hp : Parallel P f g) (x : α) :
    Alike R (f.ranked h x) (g.ranked k x) where
  pending := ha.pending
  batch := ha.batch
  last := by simp only [Feeder.ranked, hp.rank]
  state := ha.state

theorem Alike.before (ha : Alike R h k) (hp : Parallel P f g) :
    Alike R (f.before h i) (g.before k i) := by
  cases i with
  | none => exact ha
  | some x => exact ha.ranked hp x

variable {r' : Except ε ω' × Held α κ ι γ} {r : Except ε ω × Held α κ ι β}

/-- What follows a close is the same for both. -/
theorem agree_after :
    Agree (List.Forall₂ S) (f.after i r).1 (g.after i r').1 ↔ Agree S r.1 r'.1 := by
  obtain ⟨answer, next⟩ := r
  obtain ⟨answer', next'⟩ := r'
  cases i with
  | none =>
    cases answer with
    | error e =>
      cases answer' with
      | error e' => exact Iff.rfl
      | ok out' => exact Iff.rfl
    | ok out =>
      cases answer' with
      | error e' => exact Iff.rfl
      | ok out' => simp [Feeder.after, Feeder.only, Agree]
  | some x =>
    cases answer with
    | error e =>
      cases answer' with
      | error e' => exact Iff.rfl
      | ok out' => exact Iff.rfl
    | ok out =>
      cases answer' with
      | error e' => exact Iff.rfl
      | ok out' => simp [Feeder.after, Feeder.pushAfter, Agree]

theorem Alike.after
    (ha : Alike R r.2 r'.2) (hagree : Agree S r.1 r'.1) (hp : Parallel P f g) :
    Alike R (f.after i r).2 (g.after i r').2 := by
  obtain ⟨answer, next⟩ := r
  obtain ⟨answer', next'⟩ := r'
  cases answer with
  | error e =>
    cases answer' with
    | error e' =>
      cases i with
      | none => exact ha
      | some x => exact ha
    | ok out' => exact hagree.elim
  | ok out =>
    cases answer' with
    | error e' => exact hagree.elim
    | ok out' =>
      cases i with
      | none => exact ha
      | some x => exact ha.push hp x

variable [DecidableEq κ] [LE ι] [DecidableLE ι]

theorem Alike.closing (ha : Alike R h k) (hp : Parallel P f g) (hi : ∀ x, i = some x → P x) :
    f.closing h i = g.closing k i := by
  cases i with
  | none => simp only [Feeder.closing, ha.pending]
  | some x =>
    simp only [Feeder.closing, Feeder.rises, Feeder.closes, hp.check x (hi x rfl), ha.last,
      ha.batch, hp.rank, hp.batchOf]

/-- An input that closes no batch is taken by both, or by neither. -/
theorem Alike.input_open (ha : Alike R h k) (hp : Parallel P f g) (hi : ∀ x, i = some x → P x)
    (hc : f.closing h i = false) :
    Agree (List.Forall₂ S) (f.input h i).1 (g.input k i).1 ∧
      Alike R (f.input h i).2 (g.input k i).2 := by
  cases i with
  | none =>
    have hpending : h.pending.isEmpty = true := by simpa [Feeder.closing] using hc
    have hpending' : k.pending.isEmpty = true := by rw [← ha.pending, hpending]
    unfold Feeder.input Feeder.flush
    simp only [hpending, hpending', if_true]
    exact ⟨.nil, ha⟩
  | some x =>
    have hcheck := hp.check x (hi x rfl)
    have hrises : g.rises k x = f.rises h x := by
      simp only [Feeder.rises, ha.last, hp.rank]
    have hcloses : g.closes k x = f.closes h x := by
      simp only [Feeder.closes, ha.batch, hp.batchOf]
    cases hf : f.check x with
    | error e =>
      cases hg : g.check x with
      | error e' =>
        simp only [Feeder.input, Feeder.feed, hf, hg]
        exact ⟨trivial, ha⟩
      | ok _ => simp [hf, hg, Except.toBool] at hcheck
    | ok _ =>
      cases hg : g.check x with
      | error e' => simp [hf, hg, Except.toBool] at hcheck
      | ok _ =>
        cases hr : f.rises h x with
        | false =>
          simp only [Feeder.input, Feeder.feed, hf, hg, hrises, hr, Bool.not_false, if_true]
          exact ⟨trivial, ha⟩
        | true =>
          have hfalse : f.closes h x = false := by
            simpa [Feeder.closing, hf, hr, Except.toBool] using hc
          rw [Feeder.input, Feeder.input, Feeder.feed_holds hf hr hfalse,
            Feeder.feed_holds hg (hrises.trans hr) (hcloses.trans hfalse)]
          exact ⟨.nil, (ha.ranked hp x).push hp x⟩

end

end Batches
