import Greenfield.Data.OrderedMerge
import Greenfield.Data.RawEvent
import Mathlib.Data.String.Basic

/-!
# The merge of the raw lake

`iter_raw_events` of `src/data/raw_store.py` orders the events of a stream by their receive
time, the receive sequence and the id, and a connection by the first two, field by field. In that
order a connection can only break where two of its events cannot be compared, so the merge
raises exactly when there are two such events, whatever parts they are in.
-/

namespace Greenfield.Data

open Py

-- the order of the integers that computes, whatever is imported
local instance rawIntLinearOrder : LinearOrder ℤ := Int.instLinearOrder

local instance rawIntPartialOrder : PartialOrder ℤ := Int.instLinearOrder.toPartialOrder

variable {D : Digests} {ε : Type}

/-- `(receive_ts_ns, receive_sequence)`. -/
def RawMarketEvent.receiveKey (e : RawMarketEvent D) : ℤ × ℤ := (e.receiveTsNs, e.receiveSequence)

/-- The keys that `iter_raw_events` merges by. -/
def rawKeys (D : Digests) :
    MergeKeys (RawMarketEvent D) String ℤ (ℤ ×ₗ String) (ℤ × ℤ) Unit where
  connectionId e := e.connectionId
  orderKey e := toLex (e.receiveTsNs, toLex (e.receiveSequence, e.eventId))
  connectionSequenceKey e := e.receiveKey
  connectionTieBreakKey := none

/-- Two events of one connection whose keys are equal, or cannot be compared field by field. -/
def Breaks (a b : RawMarketEvent D) : Prop :=
  a.connectionId = b.connectionId ∧ (a.receiveKey = b.receiveKey ∨
    ¬ a.receiveKey ≤ b.receiveKey ∧ ¬ b.receiveKey ≤ a.receiveKey)

variable {a b : RawMarketEvent D}

theorem breaks_comm (h : Breaks a b) : Breaks b a :=
  ⟨h.1.symm, h.2.imp Eq.symm And.symm⟩

/-- Events of one connection that do not break are in one of the two orders. -/
theorem breaks_iff : Breaks a b ↔ a.connectionId = b.connectionId ∧
    ¬ a.receiveKey < b.receiveKey ∧ ¬ b.receiveKey < a.receiveKey := by
  unfold Breaks RawMarketEvent.receiveKey
  simp only [Prod.lt_iff, Prod.mk_le_mk, Prod.mk.injEq]
  apply and_congr_right
  intro _
  omega

theorem precedes_raw :
    Precedes ((rawKeys D).sequence a) ((rawKeys D).sequence b) ↔ a.receiveKey < b.receiveKey := by
  simp [Precedes, MergeKeys.sequence, MergeKeys.tieBreak, rawKeys]

/-- In the order of the merge, a later event never comes before an earlier one. -/
theorem not_lt_of_orderKey (h : (rawKeys D).orderKey a ≤ (rawKeys D).orderKey b) :
    ¬ b.receiveKey < a.receiveKey := by
  intro hlt
  rw [RawMarketEvent.receiveKey, RawMarketEvent.receiveKey, Prod.lt_iff] at hlt
  simp only [rawKeys, Prod.Lex.toLex_le_toLex] at h
  omega

/-- In the order of the merge, the connections pass their checks if no two events break. -/
theorem pairwise_precedes {rows : List (RawMarketEvent D)} (h : Ascending (rawKeys D) rows) :
    (rows.Pairwise fun a b => (rawKeys D).connectionId a = (rawKeys D).connectionId b →
      Precedes ((rawKeys D).sequence a) ((rawKeys D).sequence b)) ↔
    rows.Pairwise fun a b => ¬ Breaks a b := by
  have hiff (a b : RawMarketEvent D) (hab : (rawKeys D).orderKey a ≤ (rawKeys D).orderKey b) :
      ((rawKeys D).connectionId a = (rawKeys D).connectionId b →
        Precedes ((rawKeys D).sequence a) ((rawKeys D).sequence b)) ↔ ¬ Breaks a b := by
    have hnot := not_lt_of_orderKey hab
    rw [precedes_raw, breaks_iff]
    constructor
    · rintro himp ⟨hconn, hlt, -⟩
      exact hlt (himp hconn)
    · intro hbreaks hconn
      by_contra hlt
      exact hbreaks ⟨hconn, hlt, hnot⟩
  constructor
  · apply List.Pairwise.imp₂ _ h
    exact fun a b hab => (hiff a b hab).mp
  · apply List.Pairwise.imp₂ _ h
    exact fun a b hab => (hiff a b hab).mpr

/-- An event with an empty payload. -/
def sampleRaw (connectionId eventId : String) (ts seq : ℤ) (hconn : connectionId ≠ "")
    (hts : 0 < ts) (hseq : 0 < seq) : RawMarketEvent (digestOf []) where
  schemaVersion := rawEventSchemaVersion
  ingestionVersion := rawIngestionVersion
  eventId
  exchange := "bybit"
  marketType := "linear"
  channel := "trades"
  topic := "publicTrade.BTCUSDT"
  symbol := "BTCUSDT"
  messageType := "snapshot"
  exchangeTsMs := none
  receiveTsNs := ts
  receiveSequence := seq
  matchingTsMs := none
  sequence := none
  updateId := none
  connectionId
  payloadSha256 := (digestOf []).sha256Hex "\x7b\x7d"
  payloadText := "\x7b\x7d"
  version := rfl
  received := hts
  numbered := hseq
  connected := hconn
  hashed := rfl

/-- Two messages of one connection that the clock gives the same reading. -/
def sameInstant : MergeSource ℤ Empty (RawMarketEvent (digestOf [])) :=
  ⟨1, ⟨[sampleRaw "c" "a" 1 1 sampleConnection_ne Int.one_pos Int.one_pos,
    sampleRaw "c" "b" 1 2 sampleConnection_ne Int.one_pos two_pos], none⟩⟩

theorem sameInstant_sorted : sameInstant.Sorted (rawKeys (digestOf [])) where
  ascending := by
    apply List.Pairwise.cons _ (List.pairwise_singleton _ _)
    intro b hb
    rw [List.mem_singleton.mp hb]
    decide
  bound row hrow := by
    rcases List.mem_pair.mp hrow with rfl | rfl
    · exact le_refl _
    · exact le_refl _

theorem sameInstant_merge : (mergeRowsByConnection (rawKeys (digestOf [])) [sameInstant]).raised =
    none := by decide

/-- Both fields go up. -/
def StrictlyBefore (p q : ℤ × ℤ) : Prop := p.1 < q.1 ∧ p.2 < q.2

/-- A connection may repeat a receive time: its sequence tells the two events apart. -/
theorem merge_raises_not_strictly :
    ¬ ∀ sources : List (MergeSource ℤ Empty (RawMarketEvent (digestOf []))),
      (∀ source ∈ sources, source.Sorted (rawKeys (digestOf []))) →
      (∀ source ∈ sources, source.opens.raised = none) →
      ((∃ e, (mergeRowsByConnection (rawKeys (digestOf [])) sources).raised = some (.inl e)) ↔
        ∃ a b, [a, b].Sublist (sourceRows sources) ∧ a.connectionId = b.connectionId ∧
          (a.receiveKey = b.receiveKey ∨ ¬ (StrictlyBefore a.receiveKey b.receiveKey ∨
            StrictlyBefore b.receiveKey a.receiveKey))) := by
  intro hclaim
  have hraises := hclaim [sameInstant] (List.forall_mem_singleton.mpr sameInstant_sorted)
    (List.forall_mem_singleton.mpr rfl)
  obtain ⟨e, he⟩ := hraises.mpr ⟨_, _, List.Sublist.refl _, rfl, .inr (by
    rintro (h | h)
    · exact lt_irrefl _ h.1
    · exact lt_irrefl _ h.1)⟩
  rw [sameInstant_merge] at he
  cases he

/-- **Broken connections.** The merge of parts that are in order raises exactly when two events
of one connection have equal keys, or keys that cannot be compared field by field. -/
theorem merge_raises_iff {sources : List (MergeSource ℤ ε (RawMarketEvent D))}
    (hsorted : ∀ source ∈ sources, source.Sorted (rawKeys D))
    (hreadable : ∀ source ∈ sources, source.opens.raised = none) :
    (∃ e, (mergeRowsByConnection (rawKeys D) sources).raised = some (.inl e)) ↔
      ∃ a b, [a, b].Sublist (sourceRows sources) ∧ Breaks a b := by
  obtain ⟨rows, hperm, hascending, hraises, -⟩ := merge_readable (rawKeys D) hsorted hreadable
  rw [hraises, pairwise_precedes hascending,
    hperm.pairwise_iff (fun h h' => h (breaks_comm h')), List.pairwise_iff_forall_sublist]
  simp only [not_forall, not_not, exists_prop]

theorem merge_raises_iff_sameInstant :
    (∃ e, (mergeRowsByConnection (rawKeys (digestOf [])) [sameInstant]).raised = some (.inl e)) ↔
      ∃ a b, [a, b].Sublist (sourceRows [sameInstant]) ∧ Breaks a b :=
  merge_raises_iff (List.forall_mem_singleton.mpr sameInstant_sorted)
    (List.forall_mem_singleton.mpr rfl)

end Greenfield.Data
