import Mathlib.Algebra.BigOperators.Group.List.Basic
import Mathlib.Data.List.Chain
import Mathlib.Data.List.Dedup
import Mathlib.Data.List.Forall2
import Mathlib.Data.List.Sort
import Mathlib.Data.Prod.Lex
import Mathlib.Order.MinMax

/-!
# Buckets

The items of a list by their keys: `groups` has the keys in order, each with its items, and `runs`
the items that follow each other with one key. A stream that adds up the items of one bucket, and
emits it when an item of another comes, emits the runs (`results_eq`); where the keys do not go
down these are the groups (`groups_eq_runs`).
-/

namespace Buckets

variable {α κ ι σ τ ω ε : Type}

/-! ## Groups -/

section Groups

variable [LinearOrder κ] (key : α → κ)

/-- The keys of the items, in order. -/
def keysOf (l : List α) : List κ := (l.map key).dedup.insertionSort fun a b => a ≤ b

/-- The items of each key. -/
def groups (l : List α) : List (κ × List α) :=
  (keysOf key l).map fun k => (k, l.filter fun x => decide (key x = k))

/-- An item before others. -/
def join (x : α) : List (κ × List α) → List (κ × List α)
  | [] => [(key x, [x])]
  | (k, g) :: rest => if key x = k then (k, x :: g) :: rest else (key x, [x]) :: (k, g) :: rest

/-- The items that follow each other with one key. -/
def runs : List α → List (κ × List α)
  | [] => []
  | x :: xs => join key x (runs xs)

variable {key} {l : List α}

theorem mem_keysOf {k : κ} : k ∈ keysOf key l ↔ ∃ x ∈ l, key x = k := by
  unfold keysOf
  rw [List.mem_insertionSort, List.mem_dedup, List.mem_map]

variable (key) in
theorem pairwise_keysOf (l : List α) : (keysOf key l).Pairwise (· < ·) := by
  have hle : (keysOf key l).Pairwise (· ≤ ·) := List.pairwise_insertionSort _ _
  have hnodup : (keysOf key l).Nodup :=
    (List.perm_insertionSort _ _).nodup_iff.mpr (List.nodup_dedup _)
  exact (hle.and hnodup).imp fun h => lt_of_le_of_ne h.1 h.2

/-- Lists in order with the same elements are the same. -/
theorem eq_of_ascending {l l' : List κ} (h : l.Pairwise (· < ·)) (h' : l'.Pairwise (· < ·))
    (hmem : ∀ k, k ∈ l ↔ k ∈ l') : l = l' := by
  have hperm : l.Perm l' :=
    (List.perm_ext_iff_of_nodup (h.imp ne_of_lt) (h'.imp ne_of_lt)).mpr hmem
  exact hperm.eq_of_pairwise (fun a b _ _ hab hba => absurd hba hab.asymm) h h'

theorem mem_groups {k : κ} {g : List α} : (k, g) ∈ groups key l ↔
    (∃ x ∈ l, key x = k) ∧ g = l.filter fun x => decide (key x = k) := by
  unfold groups
  rw [List.mem_map]
  constructor
  · rintro ⟨k', hk', heq⟩
    cases heq
    exact ⟨mem_keysOf.mp hk', rfl⟩
  · rintro ⟨hk, rfl⟩
    exact ⟨k, mem_keysOf.mpr hk, rfl⟩

section Coarse

variable {κ' : Type} [LinearOrder κ'] {coarse : α → κ'}

/-- Keys that go up where the coarser keys do. -/
theorem keysOf_flatMap (hup : ∀ x ∈ l, ∀ y ∈ l, coarse x < coarse y → key x < key y) :
    keysOf key l = (keysOf coarse l).flatMap fun c =>
      keysOf key (l.filter fun x => decide (coarse x = c)) := by
  refine eq_of_ascending (pairwise_keysOf key l) (List.pairwise_flatMap.mpr ⟨?_, ?_⟩) fun k => ?_
  · exact fun c _ => pairwise_keysOf key _
  · refine (pairwise_keysOf coarse l).imp fun {c c'} hlt k hk k' hk' => ?_
    obtain ⟨x, hx, rfl⟩ := mem_keysOf.mp hk
    obtain ⟨y, hy, rfl⟩ := mem_keysOf.mp hk'
    simp only [List.mem_filter, decide_eq_true_eq] at hx hy
    exact hup x hx.1 y hy.1 (by rw [hx.2, hy.2]; exact hlt)
  · simp only [List.mem_flatMap, mem_keysOf, List.mem_filter, decide_eq_true_eq]
    constructor
    · rintro ⟨x, hx, rfl⟩
      exact ⟨coarse x, ⟨x, hx, rfl⟩, x, ⟨hx, rfl⟩, rfl⟩
    · rintro ⟨c, -, x, ⟨hx, -⟩, rfl⟩
      exact ⟨x, hx, rfl⟩

variable (coarse) in
/-- The groups are those of the coarser groups. -/
theorem groups_flatMap (hup : ∀ x ∈ l, ∀ y ∈ l, coarse x < coarse y → key x < key y) :
    groups key l = (keysOf coarse l).flatMap fun c =>
      groups key (l.filter fun x => decide (coarse x = c)) := by
  unfold groups
  rw [keysOf_flatMap hup, List.map_flatMap]
  refine List.flatMap_congr fun c _ => List.map_congr_left fun k hk => ?_
  obtain ⟨x, hx, rfl⟩ := mem_keysOf.mp hk
  simp only [List.mem_filter, decide_eq_true_eq] at hx
  obtain ⟨hx, rfl⟩ := hx
  rw [List.filter_filter]
  refine congrArg (Prod.mk (key x)) (List.filter_congr fun y hy => ?_)
  by_cases hkey : key y = key x
  · have hcoarse : coarse y = coarse x := by
      rcases lt_trichotomy (coarse y) (coarse x) with h | h | h
      · exact absurd hkey (hup y hy x hx h).ne
      · exact h
      · exact absurd hkey.symm (hup x hx y hy h).ne
    simp [hkey, hcoarse]
  · simp [hkey]

end Coarse

variable (key) in
/-- The first run has the key of the first item. -/
theorem runs_cons (x : α) (xs : List α) : ∃ g rest, runs key (x :: xs) = (key x, x :: g) :: rest := by
  show ∃ g rest, join key x (runs key xs) = _
  cases runs key xs with
  | nil => exact ⟨[], [], rfl⟩
  | cons p rest =>
    obtain ⟨k, g⟩ := p
    unfold join
    dsimp only
    split
    · next hk => exact ⟨g, rest, by rw [hk]⟩
    · exact ⟨[], (k, g) :: rest, rfl⟩

/-- The runs have the items in their order. -/
theorem runs_flatten : ∀ l : List α, (runs key l).flatMap Prod.snd = l
  | [] => rfl
  | x :: xs => by
    have ih := runs_flatten xs
    show (join key x (runs key xs)).flatMap Prod.snd = _
    cases hruns : runs key xs with
    | nil =>
      rw [hruns] at ih
      exact congrArg (x :: ·) ih
    | cons p rest =>
      obtain ⟨k, g⟩ := p
      rw [hruns] at ih
      unfold join
      dsimp only
      split
      · exact congrArg (x :: ·) ih
      · exact congrArg (x :: ·) ih

/-- The items of a run have its key. -/
theorem mem_runs {p : κ × List α} : ∀ {l : List α}, p ∈ runs key l → ∀ x ∈ p.2, key x = p.1
  | [], hp => absurd hp List.not_mem_nil
  | x :: xs, hp => by
    have ih := @mem_runs p xs
    replace hp : p ∈ join key x (runs key xs) := hp
    cases hruns : runs key xs with
    | nil =>
      rw [hruns] at hp
      rw [List.mem_singleton.mp hp]
      exact fun y hy => congrArg key (List.mem_singleton.mp hy)
    | cons q rest =>
      obtain ⟨k, g⟩ := q
      rw [hruns] at hp ih
      unfold join at hp
      dsimp only at hp
      split at hp
      · next hk =>
        rcases List.mem_cons.mp hp with rfl | hp
        · refine List.forall_mem_cons.mpr ⟨hk, ?_⟩
          have hrun := mem_runs (hruns ▸ List.mem_cons_self : (k, g) ∈ runs key xs)
          exact hrun
        · exact ih (List.mem_cons_of_mem _ hp)
      · rcases List.mem_cons.mp hp with rfl | hp
        · exact fun y hy => congrArg key (List.mem_singleton.mp hy)
        · exact ih hp

theorem mem_runs_keys {k : κ} : ∀ {l : List α}, k ∈ (runs key l).map Prod.fst ↔ ∃ x ∈ l, key x = k
  | [] => by simp [runs]
  | x :: xs => by
    have ih := mem_runs_keys (k := k) (l := xs)
    have hjoin : k ∈ (join key x (runs key xs)).map Prod.fst ↔
        k = key x ∨ k ∈ (runs key xs).map Prod.fst := by
      cases runs key xs with
      | nil => simp [join]
      | cons p rest =>
        unfold join
        dsimp only
        split
        · next hk => simp [hk]
        · simp
    show k ∈ (join key x (runs key xs)).map Prod.fst ↔ _
    rw [hjoin, ih, List.exists_mem_cons_iff, eq_comm]

variable (key) in
/-- Runs that follow each other differ, and none is empty. -/
theorem runs_chain (l : List α) :
    (runs key l).IsChain (fun p q => p.1 ≠ q.1) ∧ ∀ p ∈ runs key l, p.2 ≠ [] := by
  induction l with
  | nil => exact ⟨.nil, fun p hp => absurd hp List.not_mem_nil⟩
  | cons x xs ih =>
    show (join key x (runs key xs)).IsChain _ ∧ ∀ p ∈ join key x (runs key xs), p.2 ≠ []
    cases hruns : runs key xs with
    | nil => exact ⟨.singleton _, fun p hp => by rw [List.mem_singleton.mp hp]; simp⟩
    | cons q rest =>
      obtain ⟨k, g⟩ := q
      rw [hruns] at ih
      obtain ⟨hchain, hne⟩ := ih
      obtain ⟨hg, hrest⟩ := List.forall_mem_cons.mp hne
      unfold join
      dsimp only
      split
      · next hk =>
        exact ⟨List.isChain_cons.mpr (List.isChain_cons.mp hchain),
          List.forall_mem_cons.mpr ⟨List.cons_ne_nil _ _, hrest⟩⟩
      · next hk =>
        exact ⟨List.isChain_cons_cons.mpr ⟨hk, hchain⟩,
          List.forall_mem_cons.mpr ⟨List.cons_ne_nil _ _, hne⟩⟩

omit [LinearOrder κ] in
/-- The part that an item is in. -/
theorem exists_part {gs : List (κ × List α)} {i : ℕ} (hi : i < (gs.flatMap Prod.snd).length) :
    ∃ pre p post, gs = pre ++ p :: post ∧ (pre.flatMap Prod.snd).length ≤ i ∧
      i < (pre.flatMap Prod.snd).length + p.2.length := by
  induction gs generalizing i with
  | nil => exact absurd hi (Nat.not_lt_zero i)
  | cons p gs ih =>
    rw [List.flatMap_cons, List.length_append] at hi
    by_cases hin : i < p.2.length
    · exact ⟨[], p, gs, rfl, Nat.zero_le i, by simpa using hin⟩
    · obtain ⟨pre, q, post, rfl, hstart, hstop⟩ := ih (i := i - p.2.length) (by omega)
      refine ⟨p :: pre, q, post, rfl, ?_, ?_⟩
      · rw [List.flatMap_cons, List.length_append]
        omega
      · rw [List.flatMap_cons, List.length_append]
        omega

variable (key) in
/-- **The run of an item**: those next to it have other keys. -/
theorem exists_run {i : ℕ} (hi : i < l.length) :
    ∃ pre g post, runs key l = pre ++ (key l[i], g) :: post ∧
      (pre.flatMap Prod.snd).length ≤ i ∧ i < (pre.flatMap Prod.snd).length + g.length ∧
      l = pre.flatMap Prod.snd ++ (g ++ post.flatMap Prod.snd) ∧ (∀ x ∈ g, key x = key l[i]) ∧
      (∀ x ∈ (pre.flatMap Prod.snd).getLast?, key x ≠ key l[i]) ∧
      ∀ x ∈ (post.flatMap Prod.snd).head?, key x ≠ key l[i] := by
  have hflat : (runs key l).flatMap Prod.snd = l := runs_flatten l
  have hin : i < ((runs key l).flatMap Prod.snd).length := by rwa [hflat]
  obtain ⟨pre, p, post, hruns, hstart, hstop⟩ := exists_part hin
  have hsplit : l = pre.flatMap Prod.snd ++ (p.2 ++ post.flatMap Prod.snd) := by
    rw [← hflat, hruns, List.flatMap_append, List.flatMap_cons]
  have hkeys : ∀ q ∈ pre ++ p :: post, ∀ x ∈ q.2, key x = q.1 := fun q hq =>
    mem_runs (hruns ▸ hq)
  have hp : p ∈ pre ++ p :: post := List.mem_append_right _ List.mem_cons_self
  have hkey : key l[i] = p.1 := by
    refine hkeys p hp _ ?_
    simp only [hsplit]
    rw [List.getElem_append_right hstart, List.getElem_append_left (by omega)]
    exact List.getElem_mem _
  obtain ⟨hchain, hne⟩ := runs_chain key l
  rw [hruns] at hchain hne
  obtain ⟨-, hpost, hbefore⟩ := List.isChain_append.mp hchain
  refine ⟨pre, p.2, post, by rw [hkey, hruns], hstart, hstop, hsplit, ?_, ?_, ?_⟩
  · rw [hkey]
    exact hkeys p hp
  · intro x hx
    rw [hkey]
    rcases List.eq_nil_or_concat pre with rfl | ⟨init, q, rfl⟩
    · cases hx
    · rw [List.concat_eq_append] at hne hbefore hkeys hx
      have hq : q ∈ init ++ [q] ++ p :: post := by simp
      rw [List.flatMap_append, List.flatMap_cons, List.flatMap_nil, List.append_nil,
        List.getLast?_append_of_ne_nil _ (hne q hq)] at hx
      rw [hkeys q hq x (List.mem_of_getLast? hx)]
      exact hbefore q (by simp) p (by simp)
  · intro x hx
    rw [hkey]
    cases post with
    | nil => cases hx
    | cons q rest =>
      have hq : q ∈ pre ++ p :: q :: rest := by simp
      rw [List.flatMap_cons, List.head?_append_of_ne_nil _ (hne q hq)] at hx
      rw [hkeys q hq x (List.mem_of_head? hx)]
      exact ((List.isChain_cons_cons.mp hpost).1).symm

/-- The runs of items whose keys do not go down are in order and have all items of their key. -/
theorem runs_ascending : ∀ {l : List α}, l.Pairwise (fun x y => key x ≤ key y) →
    ((runs key l).map Prod.fst).Pairwise (· < ·) ∧
      ∀ p ∈ runs key l, p.2 = l.filter fun x => decide (key x = p.1)
  | [], _ => ⟨List.Pairwise.nil, fun p hp => absurd hp List.not_mem_nil⟩
  | x :: xs, h => by
    obtain ⟨hx, hxs⟩ := List.pairwise_cons.mp h
    obtain ⟨hkeys, hitems⟩ := runs_ascending hxs
    have hle : ∀ k ∈ (runs key xs).map Prod.fst, key x ≤ k := by
      intro k hk
      obtain ⟨y, hy, rfl⟩ := mem_runs_keys.mp hk
      exact hx y hy
    have hrest : ∀ p ∈ runs key xs, p.1 ≠ key x →
        p.2 = (x :: xs).filter fun y => decide (key y = p.1) := by
      intro p hp hne
      rw [List.filter_cons_of_neg (by simpa using hne.symm)]
      exact hitems p hp
    show ((join key x (runs key xs)).map Prod.fst).Pairwise (· < ·) ∧ _
    cases hruns : runs key xs with
    | nil =>
      have hnone : xs = [] := by
        cases xs with
        | nil => rfl
        | cons y ys =>
          obtain ⟨g, rest, hg⟩ := runs_cons key y ys
          rw [hruns] at hg
          cases hg
      subst hnone
      refine ⟨List.pairwise_singleton _ _, fun p hp => ?_⟩
      rw [runs, hruns] at hp
      rw [List.mem_singleton.mp hp]
      simp
    | cons q rest =>
      obtain ⟨k, g⟩ := q
      rw [hruns] at hkeys hitems hle hrest
      obtain ⟨hk, hrestKeys⟩ := List.pairwise_cons.mp hkeys
      have hgroup := hitems (k, g) List.mem_cons_self
      by_cases heq : key x = k
      · have hjoin : join key x ((k, g) :: rest) = (k, x :: g) :: rest := if_pos heq
        rw [hjoin]
        refine ⟨hkeys, fun p hp => ?_⟩
        rw [runs, hruns, hjoin] at hp
        rcases List.mem_cons.mp hp with rfl | hp
        · rw [List.filter_cons_of_pos (by simpa using heq)]
          exact congrArg (x :: ·) hgroup
        · refine hrest p (List.mem_cons_of_mem _ hp) ?_
          rw [heq]
          exact (hk p.1 (List.mem_map_of_mem hp)).ne'
      · have hlt : key x < k := lt_of_le_of_ne (hle k List.mem_cons_self) heq
        have hjoin : join key x ((k, g) :: rest) = (key x, [x]) :: (k, g) :: rest := if_neg heq
        rw [hjoin]
        refine ⟨?_, fun p hp => ?_⟩
        · refine List.pairwise_cons.mpr ⟨fun k' hk' => ?_, hkeys⟩
          rcases List.mem_cons.mp hk' with rfl | hk'
          · exact hlt
          · exact hlt.trans (hk k' hk')
        · rw [runs, hruns, hjoin] at hp
          rcases List.mem_cons.mp hp with rfl | hp
          · have hother : xs.filter (fun y => decide (key y = key x)) = [] := by
              refine List.filter_eq_nil_iff.mpr fun y hy => ?_
              have hmem : key y ∈ ((k, g) :: rest).map Prod.fst := by
                rw [← hruns]
                exact mem_runs_keys.mpr ⟨y, hy, rfl⟩
              have hge : k ≤ key y := by
                rcases List.mem_cons.mp hmem with heq' | hmem
                · exact heq'.ge
                · exact (hk _ hmem).le
              simpa using (hlt.trans_le hge).ne'
            rw [List.filter_cons_of_pos (by simp), hother]
          · refine hrest p hp ?_
            rcases List.mem_cons.mp hp with rfl | hp
            · exact hlt.ne'
            · exact (hlt.trans (hk p.1 (List.mem_map_of_mem hp))).ne'

/-- **Runs are groups** where the keys do not go down. -/
theorem groups_eq_runs (h : l.Pairwise fun x y => key x ≤ key y) : groups key l = runs key l := by
  obtain ⟨hkeys, hitems⟩ := runs_ascending h
  have hsame : keysOf key l = (runs key l).map Prod.fst :=
    eq_of_ascending (pairwise_keysOf key l) hkeys fun k => by rw [mem_keysOf, mem_runs_keys]
  unfold groups
  rw [hsame, List.map_map]
  refine (List.map_congr_left fun p hp => ?_).trans (List.map_id _)
  exact Prod.ext rfl (hitems p hp).symm

variable (key) in
/-- Every item is in one group. -/
theorem sum_groups {M : Type} [AddCommMonoid M] (f : α → M) (l : List α) :
    ((groups key l).map fun p => (p.2.map f).sum).sum = (l.map f).sum := by
  have hkeys : ∀ (ks : List κ) (xs : List α), ks.Nodup → (∀ x ∈ xs, key x ∈ ks) →
      (ks.map fun k => ((xs.filter fun x => decide (key x = k)).map f).sum).sum =
        (xs.map f).sum := by
    intro ks xs hnodup hxs
    induction xs with
    | nil => simp
    | cons x xs ih =>
      obtain ⟨hx, hxs⟩ := List.forall_mem_cons.mp hxs
      have hsplit : ∀ k, (((x :: xs).filter fun y => decide (key y = k)).map f).sum =
          (if key x = k then f x else 0) + ((xs.filter fun y => decide (key y = k)).map f).sum := by
        intro k
        by_cases hk : key x = k
        · simp [hk]
        · simp [hk]
      have hone : (ks.map fun k => if key x = k then f x else 0).sum = f x := by
        rw [List.sum_map_eq_nsmul_single (key x) _ fun k hk _ => if_neg (Ne.symm hk),
          List.count_eq_one_of_mem hnodup hx, one_nsmul, if_pos rfl]
      simp only [hsplit]
      rw [List.sum_map_add, hone, ih hxs, List.map_cons, List.sum_cons]
  unfold groups
  rw [List.map_map]
  exact hkeys _ _ ((pairwise_keysOf key l).imp ne_of_lt) fun x hx => mem_keysOf.mpr ⟨x, hx, rfl⟩

/-- The items of one key. -/
theorem lookup_groups [BEq κ] [LawfulBEq κ] {k : κ} (hk : k ∈ keysOf key l) :
    (groups key l).lookup k = some (l.filter fun x => decide (key x = k)) := by
  unfold groups
  generalize keysOf key l = ks at hk
  induction ks with
  | nil => exact absurd hk List.not_mem_nil
  | cons h t ih =>
    rw [List.map_cons, List.lookup_cons]
    by_cases heq : k = h
    · subst heq
      rw [beq_self_eq_true]
    · rw [beq_eq_false_iff_ne.mpr heq]
      exact ih ((List.mem_cons.mp hk).resolve_left heq)

theorem lookup_groups_none [BEq κ] [LawfulBEq κ] {k : κ} (hk : k ∉ keysOf key l) :
    (groups key l).lookup k = none := by
  unfold groups
  generalize keysOf key l = ks at hk
  induction ks with
  | nil => rfl
  | cons h t ih =>
    have hne : k ≠ h := fun heq => hk (heq ▸ List.mem_cons_self)
    rw [List.map_cons, List.lookup_cons, beq_eq_false_iff_ne.mpr hne]
    exact ih fun ht => hk (List.mem_cons_of_mem _ ht)

end Groups

/-! ## Keys of two kinds -/

section Keys

variable {α' κ' : Type} [LinearOrder κ] [LinearOrder κ']

/-- Keys that correspond, where the order of the keys is the same. -/
theorem keysOf_map {key : α → κ} {key' : α' → κ'} {l : List α} {l' : List α'} {f : κ → κ'}
    (hf : StrictMono f) (hmem : ∀ k', (∃ y ∈ l', key' y = k') ↔ ∃ x ∈ l, f (key x) = k') :
    keysOf key' l' = (keysOf key l).map f := by
  refine eq_of_ascending (pairwise_keysOf _ _)
    ((pairwise_keysOf _ _).map f fun _ _ h => hf h) fun k' => ?_
  rw [mem_keysOf, hmem, List.mem_map]
  constructor
  · rintro ⟨x, hx, rfl⟩
    exact ⟨key x, mem_keysOf.mpr ⟨x, hx, rfl⟩, rfl⟩
  · rintro ⟨k, hk, rfl⟩
    obtain ⟨x, hx, rfl⟩ := mem_keysOf.mp hk
    exact ⟨x, hx, rfl⟩

/-- **Two keys**: the second ones within each of the first. -/
theorem keysOf_lex (key : α → κ) (key' : α → κ') (l : List α) :
    keysOf (fun x => toLex (key x, key' x)) l = (keysOf key l).flatMap fun k =>
      (keysOf key' (l.filter fun x => decide (key x = k))).map fun k' => toLex (k, k') := by
  refine eq_of_ascending (pairwise_keysOf _ _) ?_ fun k => ?_
  · refine List.pairwise_flatMap.mpr ⟨fun k _ => ?_, ?_⟩
    · exact (pairwise_keysOf _ _).map _ fun a b h => Prod.Lex.toLex_lt_toLex.mpr (.inr ⟨rfl, h⟩)
    · refine (pairwise_keysOf key l).imp fun {a b} hab x hx y hy => ?_
      obtain ⟨x', _, rfl⟩ := List.mem_map.mp hx
      obtain ⟨y', _, rfl⟩ := List.mem_map.mp hy
      exact Prod.Lex.toLex_lt_toLex.mpr (.inl hab)
  · simp only [mem_keysOf, List.mem_flatMap, List.mem_map, List.mem_filter, decide_eq_true_eq]
    constructor
    · rintro ⟨x, hx, rfl⟩
      exact ⟨key x, ⟨x, hx, rfl⟩, key' x, ⟨x, ⟨hx, rfl⟩, rfl⟩, rfl⟩
    · rintro ⟨_, _, _, ⟨x, ⟨hx, rfl⟩, rfl⟩, rfl⟩
      exact ⟨x, hx, rfl⟩

end Keys

/-! ## Bucket after bucket -/

/-- What is emitted for each bucket, where `τ` is carried from one to the next. -/
def emitEach (emit : τ → κ → List α → Except ε (ω × τ)) :
    τ → List (κ × List α) → Except ε (List ω)
  | _, [] => .ok []
  | carry, (k, g) :: rest =>
    match emit carry k g with
    | .error e => .error e
    | .ok (out, carry) => (emitEach emit carry rest).map (out :: ·)

/-- A row for each key, from what is carried `before` it. -/
theorem emitEach_keys {emit : τ → κ → List α → Except ε (ω × τ)} {items : κ → List α}
    (before after : κ → τ) {row : κ → ω} : ∀ {ks : List κ} {carry : τ},
    (∀ k ∈ ks.head?, before k = carry) → (ks.IsChain fun k k' => before k' = after k) →
    (∀ k ∈ ks, emit (before k) k (items k) = .ok (row k, after k)) →
    emitEach emit carry (ks.map fun k => (k, items k)) = .ok (ks.map row)
  | [], _, _, _, _ => rfl
  | k :: ks, carry, hhead, hchain, hemit => by
    obtain ⟨hnext, hchain⟩ := List.isChain_cons.mp hchain
    obtain ⟨hk, hks⟩ := List.forall_mem_cons.mp hemit
    rw [hhead k rfl] at hk
    rw [List.map_cons, emitEach, hk]
    dsimp only
    rw [emitEach_keys before after hnext hchain hks]
    rfl

section Consecutive

variable [LinearOrder κ] {key : α → κ} {l : List α}

variable (key) in
/-- No key lies between two keys that follow each other. -/
theorem keysOf_consecutive (l : List α) :
    (keysOf key l).IsChain fun k k' => ∀ x ∈ l, key x < k' ↔ key x ≤ k := by
  have hmono := (pairwise_keysOf key l).sortedLT.strictMono_get
  refine List.isChain_iff_getElem.mpr fun i hi x hx => ?_
  have hmem : key x ∈ keysOf key l := mem_keysOf.mpr ⟨x, hx, rfl⟩
  obtain ⟨j, hj⟩ := List.get_of_mem hmem
  rw [← hj]
  have hlt := hmono.lt_iff_lt (a := j) (b := ⟨i + 1, hi⟩)
  have hle := hmono.le_iff_le (a := j) (b := ⟨i, Nat.lt_of_succ_lt hi⟩)
  rw [Fin.lt_def] at hlt
  rw [Fin.le_def] at hle
  exact hlt.trans (Nat.lt_succ_iff.trans hle.symm)

/-- The greatest key below another. -/
def keyBefore (key : α → κ) (l : List α) (k : κ) : Option κ :=
  ((l.map key).filter fun k' => decide (k' < k)).max?

theorem keyBefore_consecutive {k k' : κ} (hk : k ∈ keysOf key l)
    (h : ∀ x ∈ l, key x < k' ↔ key x ≤ k) : keyBefore key l k' = some k := by
  obtain ⟨x, hx, rfl⟩ := mem_keysOf.mp hk
  have : Std.LawfulOrderMax κ :=
    .of_max_le_iff (fun _ _ _ => max_le_iff) fun a b => max_choice a b
  unfold keyBefore
  refine List.max?_eq_some_iff.mpr ⟨?_, fun y hy => ?_⟩
  · exact List.mem_filter.mpr ⟨List.mem_map_of_mem hx, decide_eq_true ((h x hx).mpr le_rfl)⟩
  · obtain ⟨hy, hlt⟩ := List.mem_filter.mp hy
    obtain ⟨z, hz, rfl⟩ := List.mem_map.mp hy
    exact (h z hz).mp (of_decide_eq_true hlt)

theorem keyBefore_eq_none {k : κ} (h : ∀ x ∈ l, k ≤ key x) : keyBefore key l k = none := by
  unfold keyBefore
  rw [List.max?_eq_none_iff, List.filter_eq_nil_iff]
  intro k' hk'
  obtain ⟨x, hx, rfl⟩ := List.mem_map.mp hk'
  simpa using h x hx

variable (key) in
/-- A sum up to a key is the sum below it and the sum of its own items. -/
theorem sum_filter_le {M : Type} [AddCommMonoid M] (f : α → M) (l : List α) (k : κ) :
    ((l.filter fun x => decide (key x ≤ k)).map f).sum =
      ((l.filter fun x => decide (key x < k)).map f).sum +
        ((l.filter fun x => decide (key x = k)).map f).sum := by
  induction l with
  | nil => simp
  | cons x xs ih =>
    rcases lt_trichotomy (key x) k with hlt | heq | hgt
    · simp [hlt, hlt.le, hlt.ne, ih, add_assoc]
    · simp [heq, ih, add_left_comm]
    · simp [hgt.not_ge, hgt.not_gt, hgt.ne', ih]

/-- No key is below the first one. -/
theorem le_of_head_keysOf {k : κ} (hk : k ∈ (keysOf key l).head?) : ∀ x ∈ l, k ≤ key x := by
  intro x hx
  have hmem : key x ∈ keysOf key l := mem_keysOf.mpr ⟨x, hx, rfl⟩
  have hsorted := pairwise_keysOf key l
  cases hkeys : keysOf key l with
  | nil => rw [hkeys] at hk; cases hk
  | cons k' ks =>
    rw [hkeys] at hk hmem hsorted
    cases hk
    rcases List.mem_cons.mp hmem with heq | hmem
    · exact heq.ge
    · exact ((List.pairwise_cons.mp hsorted).1 _ hmem).le

end Consecutive

/-! ## Streams -/

/-- What a stream does with an item, and with a bucket that is full. `τ` is what it carries from
one bucket to the next. -/
structure Stream (α κ ι σ τ ω ε : Type) where
  check : α → Except ε Unit
  rank : α → ι
  unordered : ε
  key : α → κ
  regressed : ε
  zero : σ
  add : σ → α → σ
  emit : τ → κ → σ → Except ε (ω × τ)

structure Held (κ ι σ τ : Type) where
  bucket : Option κ
  acc : σ
  carry : τ
  last : Option ι

namespace Stream

section

variable (S : Stream α κ ι σ τ ω ε)

def start (carry : τ) : Held κ ι σ τ := ⟨none, S.zero, carry, none⟩

/-- Emit the bucket that is open. -/
def close (h : Held κ ι σ τ) (bucket : κ) : Except ε (ω × Held κ ι σ τ) :=
  (S.emit h.carry bucket h.acc).map fun (out, carry) => (out, { h with bucket := none, acc := S.zero, carry })

/-- Add an item to the bucket that is open, or open its bucket. -/
def push (h : Held κ ι σ τ) (x : α) : Held κ ι σ τ :=
  { h with bucket := some (h.bucket.getD (S.key x)), acc := S.add h.acc x, last := some (S.rank x) }

variable [LinearOrder κ] [LE ι] [DecidableLE ι]

/-- The bucket that the item closes. -/
def roll (h : Held κ ι σ τ) (x : α) : Except ε (Option ω × Held κ ι σ τ) :=
  match h.bucket with
  | none => .ok (none, h)
  | some bucket =>
    if S.key x = bucket then .ok (none, h)
    else if S.key x < bucket then .error S.regressed
    else (S.close h bucket).map fun (out, h) => (some out, h)

def step (h : Held κ ι σ τ) (x : α) : Except ε (Option ω × Held κ ι σ τ) :=
  match S.check x with
  | .error e => .error e
  | .ok () =>
    if h.last.any fun last => decide (S.rank x ≤ last) then .error S.unordered
    else (S.roll h x).map fun (out, h) => (out, S.push h x)

/-- `update`. -/
def update : Held κ ι σ τ → List α → Except ε (List ω × Held κ ι σ τ)
  | h, [] => .ok ([], h)
  | h, x :: xs =>
    match S.step h x with
    | .error e => .error e
    | .ok (out, next) => (update next xs).map fun (outs, last) => (out.toList ++ outs, last)

omit [LinearOrder κ] [LE ι] [DecidableLE ι] in
/-- `finalize`. -/
def finalize (h : Held κ ι σ τ) : Except ε (List ω) :=
  match h.bucket with
  | none => .ok []
  | some bucket => (S.close h bucket).map fun (out, _) => [out]

/-- All that is emitted for a stream of items. -/
def results (h : Held κ ι σ τ) (l : List α) : Except ε (List ω) :=
  match S.update h l with
  | .error e => .error e
  | .ok (outs, last) => (S.finalize last).map (outs ++ ·)

/-- The same, with the items in chunks. -/
def feed (h : Held κ ι σ τ) : List (List α) → Except ε (List ω)
  | [] => S.finalize h
  | chunk :: chunks =>
    match S.update h chunk with
    | .error e => .error e
    | .ok (outs, next) => (feed next chunks).map (outs ++ ·)

omit [LinearOrder κ] [LE ι] [DecidableLE ι] in
/-- Bucket after bucket. -/
def emitAll : τ → List (κ × List α) → Except ε (List ω) :=
  emitEach fun carry k g => S.emit carry k (g.foldl S.add S.zero)

omit [LinearOrder κ] [LE ι] [DecidableLE ι] in
/-- A bucket that is open, and the buckets after it. -/
def emitOpen (carry : τ) (bucket : κ) (acc : σ) (rest : List (κ × List α)) : Except ε (List ω) :=
  match S.emit carry bucket acc with
  | .error e => .error e
  | .ok (out, carry) => (S.emitAll carry rest).map (out :: ·)

/-- The first of the buckets goes on with the one that is open, if it is the same. -/
def emitOn (carry : τ) (bucket : κ) (acc : σ) : List (κ × List α) → Except ε (List ω)
  | [] => S.emitOpen carry bucket acc []
  | (k, g) :: rest =>
    if k = bucket then S.emitOpen carry bucket (g.foldl S.add acc) rest
    else S.emitOpen carry bucket acc ((k, g) :: rest)

end

variable {S : Stream α κ ι σ τ ω ε} [LinearOrder κ] {x : α}

/-- An item of the open bucket is added first. -/
theorem emitOn_join {carry : τ} {acc : σ} {bucket : κ} (hx : S.key x = bucket)
    (gs : List (κ × List α)) :
    S.emitOn carry bucket acc (join S.key x gs) = S.emitOn carry bucket (S.add acc x) gs := by
  cases gs with
  | nil => exact if_pos hx
  | cons p rest =>
    obtain ⟨k, g⟩ := p
    unfold join
    dsimp only
    by_cases hk : S.key x = k
    · have hbucket : k = bucket := hk.symm.trans hx
      rw [if_pos hk, emitOn, emitOn, if_pos hbucket, if_pos hbucket]
      rfl
    · have hbucket : ¬ k = bucket := fun h => hk (hx.trans h.symm)
      rw [if_neg hk, emitOn, emitOn, if_pos hx, if_neg hbucket]
      rfl

variable [LinearOrder ι] {h : Held κ ι σ τ} {xs : List α}

theorem results_cons :
    S.results h (x :: xs) =
      match S.step h x with
      | .error e => .error e
      | .ok (out, next) => (S.results next xs).map (out.toList ++ ·) := by
  unfold results
  rw [update]
  cases S.step h x with
  | error e => rfl
  | ok p =>
    obtain ⟨out, next⟩ := p
    dsimp only
    cases S.update next xs with
    | error e => rfl
    | ok q =>
      obtain ⟨outs, last⟩ := q
      simp only [Except.map]
      cases S.finalize last with
      | error e => rfl
      | ok rest => simp only [List.append_assoc]

theorem results_append : ∀ {l : List α} {h : Held κ ι σ τ}, S.results h (l ++ xs) =
    match S.update h l with
    | .error e => .error e
    | .ok (outs, next) => (S.results next xs).map (outs ++ ·)
  | [], h => by
    rw [update, List.nil_append]
    dsimp only
    cases S.results h xs <;> rfl
  | x :: l, h => by
    rw [List.cons_append, results_cons, update]
    cases S.step h x with
    | error e => rfl
    | ok p =>
      obtain ⟨out, next⟩ := p
      dsimp only
      rw [results_append]
      cases S.update next l with
      | error e => rfl
      | ok q =>
        obtain ⟨outs, last⟩ := q
        simp only [Except.map]
        cases S.results last xs with
        | error e => rfl
        | ok rest => simp only [List.append_assoc]

/-- **Chunks do not matter.** -/
theorem feed_eq : ∀ (chunks : List (List α)) (h : Held κ ι σ τ),
    S.feed h chunks = S.results h chunks.flatten
  | [], h => by
    rw [feed, List.flatten_nil, results, update]
    dsimp only
    cases S.finalize h <;> rfl
  | chunk :: chunks, h => by
    rw [feed, List.flatten_cons, results_append]
    cases S.update h chunk with
    | error e => rfl
    | ok p =>
      dsimp only
      rw [feed_eq]

/-- An item that comes after the last one. -/
theorem step_eq (hcheck : S.check x = .ok ())
    (hlast : ∀ r ∈ h.last, r < S.rank x) :
    S.step h x = (S.roll h x).map fun (out, h) => (out, S.push h x) := by
  have hrises : (h.last.any fun last => decide (S.rank x ≤ last)) = false := by
    cases hl : h.last with
    | none => rfl
    | some r => simpa using hlast r hl
  unfold step
  simp only [hcheck, hrises, Bool.false_eq_true, if_false]

omit [LinearOrder ι] in
/-- The runs from a first item on, which opens its bucket. -/
theorem emitAll_runs (carry : τ) (x : α) (xs : List α) :
    S.emitAll carry (runs S.key (x :: xs)) =
      S.emitOn carry (S.key x) (S.add S.zero x) (runs S.key xs) := by
  obtain ⟨g, rest, hruns⟩ := runs_cons S.key x xs
  rw [← emitOn_join rfl]
  show _ = S.emitOn carry (S.key x) S.zero (runs S.key (x :: xs))
  rw [hruns, emitOn, if_pos rfl]
  rfl

/-- **What a stream emits** from where a bucket is open. -/
theorem results_open : ∀ {l : List α} {bucket : κ} {acc : σ} {carry : τ} {last : Option ι},
    (∀ x ∈ l, S.check x = .ok ()) → (l.Pairwise fun x y => S.rank x < S.rank y) →
    (∀ r ∈ last, ∀ x ∈ l, r < S.rank x) → (l.Pairwise fun x y => S.key x ≤ S.key y) →
    (∀ x ∈ l, bucket ≤ S.key x) →
    S.results ⟨some bucket, acc, carry, last⟩ l = S.emitOn carry bucket acc (runs S.key l)
  | [], bucket, acc, carry, last, _, _, _, _, _ => by
    simp only [results, update, finalize, close, runs, emitOn, emitOpen]
    cases S.emit carry bucket acc with
    | error e => rfl
    | ok p => rfl
  | x :: xs, bucket, acc, carry, last, hcheck, hrank, hlast, hkeys, hbucket => by
    obtain ⟨hx, hxs⟩ := List.forall_mem_cons.mp hcheck
    obtain ⟨hrank, hranks⟩ := List.pairwise_cons.mp hrank
    obtain ⟨hkey, hkeys⟩ := List.pairwise_cons.mp hkeys
    have hnext : ∀ {acc carry}, S.results ⟨some (S.key x), acc, carry, some (S.rank x)⟩ xs =
        S.emitOn carry (S.key x) acc (runs S.key xs) :=
      results_open hxs hranks (fun r hr y hy => Option.some.inj hr ▸ hrank y hy) hkeys hkey
    rw [results_cons, step_eq hx fun r hr => hlast r hr x List.mem_cons_self]
    unfold roll
    by_cases heq : S.key x = bucket
    · subst heq
      show _ = S.emitOn carry (S.key x) acc (join S.key x (runs S.key xs))
      rw [emitOn_join rfl, ← hnext]
      simp only [if_true, Except.map, push, Option.getD_some, Option.toList_none, List.nil_append]
      cases S.results ⟨some (S.key x), S.add acc x, carry, some (S.rank x)⟩ xs with
      | error e => rfl
      | ok outs => rfl
    · have hle := hbucket x List.mem_cons_self
      have hopen : S.emitOn carry bucket acc (runs S.key (x :: xs)) =
          S.emitOpen carry bucket acc (runs S.key (x :: xs)) := by
        obtain ⟨g, rest, hruns⟩ := runs_cons S.key x xs
        rw [hruns]
        exact if_neg heq
      rw [hopen, emitOpen]
      simp only [if_neg heq, if_neg hle.not_gt, close]
      cases S.emit carry bucket acc with
      | error e => rfl
      | ok p =>
        obtain ⟨out, carry'⟩ := p
        dsimp only
        rw [emitAll_runs, ← hnext]
        rfl

/-- **What a stream emits**: its groups, one after the other. -/
theorem results_eq {l : List α} (hcheck : ∀ x ∈ l, S.check x = .ok ())
    (hrank : l.Pairwise fun x y => S.rank x < S.rank y)
    (hkeys : l.Pairwise fun x y => S.key x ≤ S.key y) (carry : τ) :
    S.results (S.start carry) l = S.emitAll carry (groups S.key l) := by
  rw [groups_eq_runs hkeys]
  cases l with
  | nil => rfl
  | cons x xs =>
    obtain ⟨hx, hxs⟩ := List.forall_mem_cons.mp hcheck
    obtain ⟨hrank, hranks⟩ := List.pairwise_cons.mp hrank
    obtain ⟨hkey, hkeys⟩ := List.pairwise_cons.mp hkeys
    have hnext : S.results ⟨some (S.key x), S.add S.zero x, carry, some (S.rank x)⟩ xs =
        S.emitOn carry (S.key x) (S.add S.zero x) (runs S.key xs) :=
      results_open hxs hranks (fun r hr y hy => Option.some.inj hr ▸ hrank y hy) hkeys hkey
    rw [results_cons, step_eq hx (fun r hr => by cases hr), emitAll_runs, ← hnext]
    show (S.results ⟨some (S.key x), S.add S.zero x, carry, some (S.rank x)⟩ xs).map _ = _
    cases S.results ⟨some (S.key x), S.add S.zero x, carry, some (S.rank x)⟩ xs with
    | error e => rfl
    | ok outs => rfl

end Stream

end Buckets
