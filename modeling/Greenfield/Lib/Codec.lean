import Greenfield.Lib.Json
import Mathlib.Data.List.Induction

/-!
# Codecs of typed values

A `Schema` of a type writes its values as JSON values and reads them back: what it reads of
what it wrote is the value in a normal form, and values with one normal form are written alike.
Schemas of options, sequences, pairs and records are put together from those of their parts, so
the writer and the reader of a record cannot drift apart. A record is a dictionary, and is read
of one with exactly its fields only (`Schema.record`).
-/

namespace Json

variable {φ ε α β : Type}

/-- A type with its writer and its reader. -/
structure Schema (φ ε α : Type) where
  toJson : α → Except ε (Value φ)
  fromJson : Value φ → Except ε α
  /-- The form in which a value is read back. -/
  norm : α → α
  /-- The values that can be written. -/
  Ready : α → Prop
  writes : ∀ {x}, Ready x → ∃ v, toJson x = .ok v
  stable : ∀ x, toJson (norm x) = toJson x
  reads : ∀ {x v}, toJson x = .ok v → Canonical v ∧ fromJson v = .ok (norm x)

namespace Schema

/-- What is written alike has one normal form. -/
theorem norm_eq (s : Schema φ ε α) {x y : α} {v : Value φ} (hx : s.toJson x = .ok v)
    (hy : s.toJson y = .ok v) : s.norm x = s.norm y := by
  have hread := (s.reads hx).2
  rw [(s.reads hy).2] at hread
  exact (Except.ok.inj hread).symm

/-- What has one normal form is written alike. -/
theorem toJson_eq (s : Schema φ ε α) {x y : α} (h : s.norm x = s.norm y) :
    s.toJson x = s.toJson y := by
  rw [← s.stable x, h, s.stable y]

/-! ## Options -/

/-- A value or `null`. -/
def option (s : Schema φ ε α) (hnull : ∀ {x v}, s.toJson x = .ok v → v ≠ .null) :
    Schema φ ε (Option α) where
  toJson
    | none => .ok .null
    | some x => s.toJson x
  fromJson
    | .null => .ok none
    | v => (s.fromJson v).map some
  norm := Option.map s.norm
  Ready x := ∀ y ∈ x, s.Ready y
  writes {x} h := by
    cases x with
    | none => exact ⟨.null, rfl⟩
    | some y => exact s.writes (h y rfl)
  stable x := by
    cases x with
    | none => rfl
    | some y => exact s.stable y
  reads {x v} h := by
    cases x with
    | none =>
      cases h
      exact ⟨.null, rfl⟩
    | some y =>
      obtain ⟨hcanonical, hread⟩ := s.reads h
      refine ⟨hcanonical, ?_⟩
      have hne := hnull h
      cases v with
      | null => exact absurd rfl hne
      | _ => simp only [hread, Except.map, Option.map_some]

/-! ## Sequences -/

theorem mapM_writes (s : Schema φ ε α) : ∀ {xs : List α}, (∀ x ∈ xs, s.Ready x) →
    ∃ vs, xs.mapM s.toJson = .ok vs
  | [], _ => ⟨[], rfl⟩
  | x :: xs, h => by
    obtain ⟨v, hv⟩ := s.writes (h x List.mem_cons_self)
    obtain ⟨vs, hvs⟩ := s.mapM_writes fun y hy => h y (List.mem_cons_of_mem x hy)
    exact ⟨v :: vs, by rw [List.mapM_cons, hv, hvs]; rfl⟩

theorem mapM_stable (s : Schema φ ε α) : ∀ xs : List α,
    (xs.map s.norm).mapM s.toJson = xs.mapM s.toJson
  | [] => rfl
  | x :: xs => by rw [List.map_cons, List.mapM_cons, List.mapM_cons, s.stable, s.mapM_stable xs]

theorem mapM_reads (s : Schema φ ε α) : ∀ {xs : List α} {vs : List (Value φ)},
    xs.mapM s.toJson = .ok vs →
      (∀ v ∈ vs, Canonical v) ∧ vs.mapM s.fromJson = .ok (xs.map s.norm)
  | [], vs, h => by
    cases h
    exact ⟨nofun, rfl⟩
  | x :: xs, vs, h => by
    rw [List.mapM_cons] at h
    cases hv : s.toJson x with
    | error err =>
      rw [hv] at h
      cases h
    | ok v =>
      cases hws : xs.mapM s.toJson with
      | error err =>
        rw [hv, hws] at h
        cases h
      | ok ws =>
        rw [hv, hws] at h
        cases h
        obtain ⟨hcanonical, hread⟩ := s.reads hv
        obtain ⟨hall, hreads⟩ := s.mapM_reads hws
        refine ⟨List.forall_mem_cons.mpr ⟨hcanonical, hall⟩, ?_⟩
        rw [List.mapM_cons, hread, hreads]
        rfl

/-- Any number of values of one type. -/
def tuple (notArray : ε) (s : Schema φ ε α) : Schema φ ε (List α) where
  toJson xs := (xs.mapM s.toJson).map .arr
  fromJson
    | .arr vs => vs.mapM s.fromJson
    | _ => .error notArray
  norm := List.map s.norm
  Ready xs := ∀ x ∈ xs, s.Ready x
  writes h := by
    obtain ⟨vs, hvs⟩ := s.mapM_writes h
    exact ⟨.arr vs, by rw [hvs]; rfl⟩
  stable xs := by rw [s.mapM_stable]
  reads {xs v} h := by
    cases hvs : xs.mapM s.toJson with
    | error err =>
      rw [hvs] at h
      cases h
    | ok vs =>
      rw [hvs] at h
      cases h
      obtain ⟨hall, hreads⟩ := s.mapM_reads hvs
      exact ⟨.arr hall, hreads⟩

/-- Two values. -/
def pair (notArray arity : ε) (s : Schema φ ε α) (t : Schema φ ε β) : Schema φ ε (α × β) where
  toJson x :=
    match s.toJson x.1, t.toJson x.2 with
    | .ok v, .ok w => .ok (.arr [v, w])
    | .error err, _ => .error err
    | _, .error err => .error err
  fromJson
    | .arr [v, w] =>
      match s.fromJson v, t.fromJson w with
      | .ok a, .ok b => .ok (a, b)
      | .error err, _ => .error err
      | _, .error err => .error err
    | .arr _ => .error arity
    | _ => .error notArray
  norm x := (s.norm x.1, t.norm x.2)
  Ready x := s.Ready x.1 ∧ t.Ready x.2
  writes h := by
    obtain ⟨v, hv⟩ := s.writes h.1
    obtain ⟨w, hw⟩ := t.writes h.2
    exact ⟨.arr [v, w], by rw [hv, hw]⟩
  stable x := by simp only [s.stable, t.stable]
  reads {x u} h := by
    cases hv : s.toJson x.1 with
    | error err =>
      rw [hv] at h
      cases h
    | ok v =>
      cases hw : t.toJson x.2 with
      | error err =>
        rw [hv, hw] at h
        cases h
      | ok w =>
        rw [hv, hw] at h
        cases h
        obtain ⟨hcv, hrv⟩ := s.reads hv
        obtain ⟨hcw, hrw⟩ := t.reads hw
        refine ⟨.arr (by simp [hcv, hcw]), ?_⟩
        simp only [hrv, hrw]

end Schema

/-! ## Dictionaries -/

variable {items : List (String × Value φ)} {k key : String} {v : Value φ}

theorem get_insertItem (k key : String) (v : Value φ) (items : List (String × Value φ)) :
    get (insertItem k v items) key = if key = k then some v else get items key := by
  induction items with
  | nil => exact get_cons k key v []
  | cons item items ih =>
    obtain ⟨j, w⟩ := item
    unfold insertItem
    split
    · exact get_cons k key v _
    · split
      · next hk =>
        rw [get_cons, get_cons]
        by_cases hkey : key = k
        · rw [if_pos hkey, if_pos hkey]
        · rw [if_neg hkey, if_neg hkey, if_neg fun hj => hkey (hj.trans hk.symm)]
      · next hk =>
        rw [get_cons, get_cons, ih]
        by_cases hkey : key = k
        · rw [if_pos hkey, if_pos hkey, if_neg fun hj => hk (hkey.symm.trans hj)]
        · rw [if_neg hkey, if_neg hkey]

/-- A dictionary of distinct keys gives each item. -/
theorem get_dict (h : (items.map Prod.fst).Nodup) {p : String × Value φ} (hp : p ∈ items) :
    get (dict items) p.1 = some p.2 := by
  induction items using List.reverseRecOn with
  | nil => cases hp
  | append_singleton items item ih =>
    have hdict : dict (items ++ [item]) = insertItem item.1 item.2 (dict items) :=
      List.foldl_append
    rw [List.map_append, List.nodup_append] at h
    rw [hdict, get_insertItem]
    rcases List.mem_append.mp hp with hp | hp
    · have hne : p.1 ≠ item.1 := h.2.2 p.1 (List.mem_map_of_mem hp) item.1 (by simp)
      rw [if_neg hne]
      exact ih h.1 hp
    · rw [List.mem_singleton.mp hp, if_pos rfl]

/-- The dictionary has these keys and no others. -/
def hasKeys (d : List (String × Value φ)) (names : List String) : Bool :=
  d.all (fun p => p.1 ∈ names) && names.all fun name => (get d name).isSome

theorem hasKeys_dict (h : (items.map Prod.fst).Nodup) :
    hasKeys (dict items) (items.map Prod.fst) = true := by
  unfold hasKeys
  rw [Bool.and_eq_true, List.all_eq_true, List.all_eq_true]
  constructor
  · intro p hp
    exact decide_eq_true (List.mem_map_of_mem (mem_dict hp))
  · intro name hname
    obtain ⟨p, hp, rfl⟩ := List.mem_map.mp hname
    rw [get_dict h hp]
    rfl

/-! ## Records -/

/-- The fields of a record, in the order of their declaration. -/
structure Fields (φ ε β : Type) where
  names : List String
  encode : β → Except ε (List (String × Value φ))
  decode : List (String × Value φ) → Except ε β
  norm : β → β
  Ready : β → Prop
  writes : ∀ {x}, Ready x → ∃ items, encode x = .ok items
  stable : ∀ x, encode (norm x) = encode x
  named : ∀ {x items}, encode x = .ok items → items.map Prod.fst = names
  reads : ∀ {x items}, encode x = .ok items → (∀ p ∈ items, Canonical p.2) ∧
    ∀ d, (∀ p ∈ items, get d p.1 = some p.2) → decode d = .ok (norm x)

namespace Fields

def nil : Fields φ ε Unit where
  names := []
  encode _ := .ok []
  decode _ := .ok ()
  norm := id
  Ready _ := True
  writes _ := ⟨[], rfl⟩
  stable _ := rfl
  named h := by
    cases h
    rfl
  reads h := by
    cases h
    exact ⟨nofun, fun _ _ => rfl⟩

/-- A field before others. -/
def cons (name : String) (s : Schema φ ε α) (fs : Fields φ ε β) : Fields φ ε (α × β) where
  names := name :: fs.names
  encode x :=
    match s.toJson x.1, fs.encode x.2 with
    | .ok v, .ok items => .ok ((name, v) :: items)
    | .error err, _ => .error err
    | _, .error err => .error err
  decode d :=
    match s.fromJson ((get d name).getD .null), fs.decode d with
    | .ok a, .ok b => .ok (a, b)
    | .error err, _ => .error err
    | _, .error err => .error err
  norm x := (s.norm x.1, fs.norm x.2)
  Ready x := s.Ready x.1 ∧ fs.Ready x.2
  writes h := by
    obtain ⟨v, hv⟩ := s.writes h.1
    obtain ⟨items, hitems⟩ := fs.writes h.2
    exact ⟨(name, v) :: items, by rw [hv, hitems]⟩
  stable x := by simp only [s.stable, fs.stable]
  named {x items} h := by
    split at h
    · next hfs =>
      cases h
      rw [List.map_cons, fs.named hfs]
    · cases h
    · cases h
  reads {x items} h := by
    split at h
    · next v rest hv hfs =>
      cases h
      obtain ⟨hcv, hrv⟩ := s.reads hv
      obtain ⟨hall, hreads⟩ := fs.reads hfs
      refine ⟨List.forall_mem_cons.mpr ⟨hcv, hall⟩, fun d hd => ?_⟩
      have hname := hd (name, v) List.mem_cons_self
      have hrest := hreads d fun p hp => hd p (List.mem_cons_of_mem _ hp)
      simp only [hname, Option.getD_some, hrv, hrest]
    · cases h
    · cases h

end Fields

/-- A record: its values are viewed as the tuple of their fields, and made of one. -/
def Schema.record (fs : Fields φ ε β) (distinct : fs.names.Nodup) (notObject otherFields : ε)
    (view : α → β) (make : β → Except ε α) (norm : α → α)
    (hmake : ∀ x, make (view x) = .ok x) (hview : ∀ x, view (norm x) = fs.norm (view x))
    (hready : ∀ x, fs.Ready (view x)) : Schema φ ε α where
  toJson x := (fs.encode (view x)).map fun items => .obj (dict items)
  fromJson
    | .obj d => if hasKeys d fs.names then fs.decode d >>= make else .error otherFields
    | _ => .error notObject
  norm := norm
  Ready _ := True
  writes {x} _ := by
    obtain ⟨items, hitems⟩ := fs.writes (hready x)
    exact ⟨.obj (dict items), by rw [hitems]; rfl⟩
  stable x := by rw [hview, fs.stable]
  reads {x v} h := by
    cases hitems : fs.encode (view x) with
    | error err =>
      rw [hitems] at h
      cases h
    | ok items =>
      rw [hitems] at h
      cases h
      have hnames := fs.named hitems
      have hnodup : (items.map Prod.fst).Nodup := hnames ▸ distinct
      obtain ⟨hall, hreads⟩ := fs.reads hitems
      refine ⟨.obj sorted_dict fun p hp => hall p (mem_dict hp), ?_⟩
      have hkeys : hasKeys (dict items) fs.names = true := hnames ▸ hasKeys_dict hnodup
      have hdecode : fs.decode (dict items) = .ok (fs.norm (view x)) :=
        hreads _ fun p hp => get_dict hnodup hp
      simp only [hkeys, if_true, hdecode, ← hview]
      exact hmake (norm x)

/-- What is written as a dictionary is not `null`. -/
theorem obj_ne_null {encoded : Except ε (List (String × Value φ))} {v : Value φ}
    (h : (encoded.map fun items => Value.obj (dict items)) = .ok v) : v ≠ .null := by
  cases encoded with
  | error err => cases h
  | ok items =>
    cases h
    nofun

end Json
