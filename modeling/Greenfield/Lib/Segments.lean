import Mathlib.Data.List.Basic

/-!
# Streams of segments

A machine takes events of one connection at a time. It raises on an event of another connection
than the current one, and a snapshot of a connection that it may take leaves it as if it were
new. A segment is a snapshot and more events of its connection that a new machine accepts. So a
stream of segments ends like its last segment if all are of one connection (`replay_same`), and
raises if not (`replay_differs`).
-/

namespace Segments

structure Machine (σ ι κ ε : Type) where
  step : σ → ι → Except ε σ
  init : σ
  connection : ι → κ
  current : σ → Option κ
  Snapshot : ι → Prop
  /-- What holds of all its states. -/
  Own : σ → Prop
  own_init : Own init
  own_step : ∀ {s i s'}, Own s → step s i = .ok s' → Own s'
  current_init : current init = none
  foreign : ∀ {s i c}, Own s → current s = some c → connection i ≠ c → ∃ e, step s i = .error e
  reset : ∀ {s i}, Own s → Snapshot i → (∀ c, current s = some c → connection i = c) →
    step s i = step init i
  moves : ∀ {s i s'}, Own s → step s i = .ok s' → current s' = some (connection i)

namespace Machine

variable {σ ι κ ε : Type} (M : Machine σ ι κ ε) {s s' : σ}

def replay (s : σ) (is : List ι) : Except ε σ := is.foldlM M.step s

/-- The machine may take an event of this connection. -/
def Open (s : σ) (c : κ) : Prop := ∀ c', M.current s = some c' → c = c'

theorem open_init (c : κ) : M.Open M.init c := by
  intro c' h
  rw [M.current_init] at h
  cases h

theorem replay_cons (i : ι) (is : List ι) :
    M.replay s (i :: is) = M.step s i >>= fun s' => M.replay s' is := by
  simp [replay]

theorem replay_append (is js : List ι) :
    M.replay s (is ++ js) = M.replay s is >>= fun s' => M.replay s' js := by
  simp [replay]

variable {M}

theorem replay_own : ∀ {s : σ} {is : List ι}, M.Own s → M.replay s is = .ok s' → M.Own s'
  | _, [], hs, h => by
    cases h
    exact hs
  | s, i :: is, hs, h => by
    rw [replay_cons] at h
    cases hstep : M.step s i with
    | error e =>
      rw [hstep] at h
      cases h
    | ok t =>
      rw [hstep] at h
      exact replay_own (M.own_step hs hstep) h

/-- After events of a connection that is the current one. -/
theorem replay_current {c : κ} : ∀ {s : σ} {is : List ι}, M.Own s →
    (∀ i ∈ is, M.connection i = c) → (is = [] → M.current s = some c) → M.replay s is = .ok s' →
    M.current s' = some c
  | _, [], _, _, hnil, h => by
    cases h
    exact hnil rfl
  | s, i :: is, hs, hconn, _, h => by
    rw [replay_cons] at h
    cases hstep : M.step s i with
    | error e =>
      rw [hstep] at h
      cases h
    | ok t =>
      rw [hstep] at h
      have hmoves := M.moves hs hstep
      rw [hconn i List.mem_cons_self] at hmoves
      exact replay_current (M.own_step hs hstep) (fun j hj => hconn j (List.mem_cons_of_mem _ hj))
        (fun _ => hmoves) h

end Machine

/-- A snapshot and more events of its connection, which a new machine accepts. -/
structure Segment {σ ι κ ε : Type} (M : Machine σ ι κ ε) where
  first : ι
  rest : List ι
  snapshot : M.Snapshot first
  connected : ∀ i ∈ rest, M.connection i = M.connection first
  accepted : ∃ s, M.replay M.init (first :: rest) = .ok s

section

variable {σ ι κ ε : Type} {M : Machine σ ι κ ε} {s : σ}

def Segment.events (g : Segment M) : List ι := g.first :: g.rest

def Segment.connection (g : Segment M) : κ := M.connection g.first

/-- The events of a first segment and of more. -/
def stream (g : Segment M) (gs : List (Segment M)) : List ι := (g :: gs).flatMap Segment.events

def lastOf (g : Segment M) (gs : List (Segment M)) : Segment M := (g :: gs).getLast (by simp)

variable {g : Segment M}

theorem replay_reset (hs : M.Own s) (hopen : M.Open s g.connection) :
    M.replay s g.events = M.replay M.init g.events := by
  unfold Segment.events
  rw [M.replay_cons, M.replay_cons, M.reset hs g.snapshot hopen]

/-- A segment leaves the machine at its connection. -/
theorem replay_segment (g : Segment M) (hs : M.Own s) (hopen : M.Open s g.connection) :
    ∃ s', M.replay s g.events = .ok s' ∧ M.Own s' ∧ M.current s' = some g.connection := by
  obtain ⟨s', hs'⟩ := g.accepted
  have hreplay : M.replay s g.events = .ok s' := (replay_reset hs hopen).trans hs'
  refine ⟨s', hreplay, Machine.replay_own hs hreplay,
    Machine.replay_current hs ?_ (fun h => absurd h (List.cons_ne_nil _ _)) hreplay⟩
  intro i hi
  rcases List.mem_cons.mp hi with rfl | hi
  · rfl
  · exact g.connected i hi

theorem replay_foreign {c : κ} (hs : M.Own s) (hcurrent : M.current s = some c)
    (hne : g.connection ≠ c) : ∃ e, M.replay s g.events = .error e := by
  obtain ⟨e, hstep⟩ := M.foreign hs hcurrent hne
  refine ⟨e, ?_⟩
  unfold Segment.events
  rw [M.replay_cons, hstep]
  rfl

theorem stream_cons (g g' : Segment M) (gs : List (Segment M)) :
    stream g (g' :: gs) = g.events ++ stream g' gs := List.flatMap_cons

variable {gs : List (Segment M)}

/-- Segments of one connection end like the last of them. -/
theorem replay_same (hs : M.Own s)
    (hopen : M.Open s g.connection) (hsame : ∀ g' ∈ gs, g'.connection = g.connection) :
    M.replay s (stream g gs) = M.replay M.init (lastOf g gs).events := by
  induction gs generalizing g s with
  | nil =>
    unfold stream
    rw [List.flatMap_singleton]
    exact replay_reset hs hopen
  | cons g' gs ih =>
    obtain ⟨s', hreplay, hs', hcurrent⟩ := replay_segment g hs hopen
    obtain ⟨hnext, hsame⟩ := List.forall_mem_cons.mp hsame
    have hopen' : M.Open s' g'.connection := by
      intro c hc
      rw [hcurrent] at hc
      cases hc
      exact hnext
    rw [stream_cons, M.replay_append, hreplay]
    exact ih hs' hopen' fun g'' hg'' => (hsame g'' hg'').trans hnext.symm

/-- Segments of more than one connection raise. -/
theorem replay_differs (hs : M.Own s)
    (hopen : M.Open s g.connection) (hdiffers : ∃ g' ∈ gs, g'.connection ≠ g.connection) :
    ∃ e, M.replay s (stream g gs) = .error e := by
  induction gs generalizing g s with
  | nil =>
    obtain ⟨g', hg', -⟩ := hdiffers
    cases hg'
  | cons g' gs ih =>
    obtain ⟨s', hreplay, hs', hcurrent⟩ := replay_segment g hs hopen
    rw [stream_cons, M.replay_append, hreplay]
    show ∃ e, M.replay s' (stream g' gs) = .error e
    by_cases hnext : g'.connection = g.connection
    · have hopen' : M.Open s' g'.connection := by
        intro c hc
        rw [hcurrent] at hc
        cases hc
        exact hnext
      apply ih hs' hopen'
      obtain ⟨g'', hg'', hne⟩ := hdiffers
      rcases List.mem_cons.mp hg'' with rfl | hg''
      · exact absurd hnext hne
      · exact ⟨g'', hg'', fun h => hne (h.trans hnext)⟩
    · obtain ⟨e, herror⟩ := replay_foreign hs' hcurrent hnext
      refine ⟨e, ?_⟩
      unfold stream
      rw [List.flatMap_cons, M.replay_append, herror]
      rfl

/-- **Streams of segments.** A stream is accepted exactly if all its segments are of one
connection. -/
theorem replay_stream (g : Segment M) (gs : List (Segment M)) :
    (∃ s, M.replay M.init (stream g gs) = .ok s) ↔ ∀ g' ∈ gs, g'.connection = g.connection := by
  constructor
  · rintro ⟨s, hreplay⟩
    by_contra hno
    simp only [not_forall, exists_prop] at hno
    obtain ⟨e, herror⟩ := replay_differs M.own_init (M.open_init _) hno
    rw [hreplay] at herror
    cases herror
  · intro hsame
    obtain ⟨s, hlast⟩ := (lastOf g gs).accepted
    exact ⟨s, (replay_same M.own_init (M.open_init _) hsame).trans hlast⟩

end

end Segments
