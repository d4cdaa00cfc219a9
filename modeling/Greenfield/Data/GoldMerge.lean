import Greenfield.Data.NormalizedEvent
import Greenfield.Data.OrderedMerge
import Greenfield.Py.Time
import Mathlib.Data.List.Pairwise
import Mathlib.Data.List.Perm.Basic
import Mathlib.Data.String.Basic

/-!
# The merge of Silver trades

The keys by which `src/features/materialization.py` merges Silver parts: rows are ordered by
the time of the exchange, and a connection by the receive time and sequence, with the row index
between the rows of one message. A connection that is received in order still breaks when the
exchange's times go down in it, because its rows are then given in another order
(`gold_merge_raises`).
-/

namespace Greenfield.Data

open Py

-- the order of the integers that computes, whatever is imported
local instance goldIntLinearOrder : LinearOrder ℤ := Int.instLinearOrder

local instance goldIntPartialOrder : PartialOrder ℤ := Int.instLinearOrder.toPartialOrder

/-- The keys of the merge. -/
def goldKeys : MergeKeys NormalizedMarketEvent String ℤ (ℤ ×ₗ ℤ ×ₗ ℤ ×ₗ String) (ℤ × ℤ) ℤ where
  connectionId row := row.connectionId
  orderKey row := toLex (row.eventTsMs, toLex (row.receiveTsNs, toLex (row.receiveSequence,
    toLex (row.rowIndex, row.normalizedId))))
  connectionSequenceKey row := (row.receiveTsNs, row.receiveSequence)
  connectionTieBreakKey := some fun row => row.rowIndex

def millisPerDay : ℤ := 86400000

/-- The rows that `_eligible_rows` keeps, with the cutoff in nanoseconds. -/
def isEligible (cutoffNs : ℤ) (utcDate : String) (row : NormalizedMarketEvent) : Bool :=
  row.recordType = "trade" ∧ row.receiveTsNs ≤ cutoffNs ∧
    dateIsoformat (row.eventTsMs / millisPerDay) = utcDate

/-- `_eligible_rows`. -/
def eligibleRows (cutoffNs : ℤ) (utcDate : String) (rows : List NormalizedMarketEvent) :
    List NormalizedMarketEvent :=
  sorted (fun a b => goldKeys.orderKey a ≤ goldKeys.orderKey b)
    (rows.filter (isEligible cutoffNs utcDate))

/-- A Silver part, with the bound that its manifest has. -/
structure SilverPart where
  minEventTsMs : ℤ
  rows : List NormalizedMarketEvent
  bound : ∀ row ∈ rows, minEventTsMs ≤ row.eventTsMs

/-- The source of a part. -/
def SilverPart.source (cutoffNs : ℤ) (utcDate : String) (part : SilverPart) :
    MergeSource ℤ Empty NormalizedMarketEvent :=
  ⟨part.minEventTsMs, ⟨eligibleRows cutoffNs utcDate part.rows, none⟩⟩

/-- `merged_rows`. -/
def mergedRows (cutoffNs : ℤ) (utcDate : String) (parts : List SilverPart) :
    RowIterator (OrderedMergeError String (ℤ × ℤ) ℤ ⊕ Empty) NormalizedMarketEvent :=
  mergeRowsByConnection goldKeys (parts.map (·.source cutoffNs utcDate))

def silverRows (parts : List SilverPart) : List NormalizedMarketEvent := parts.flatMap (·.rows)

/-- `a` was received before `b`, or as a row before it of the same message. -/
def ReceivedBefore (a b : NormalizedMarketEvent) : Prop :=
  (a.receiveTsNs, a.receiveSequence) < (b.receiveTsNs, b.receiveSequence) ∨
  (a.receiveTsNs, a.receiveSequence) = (b.receiveTsNs, b.receiveSequence) ∧ a.rowIndex < b.rowIndex

/-- Of two rows of a connection, one was received before the other. -/
def ReceivedInOrder (rows : List NormalizedMarketEvent) : Prop :=
  rows.Pairwise fun a b => a.connectionId = b.connectionId →
    ReceivedBefore a b ∨ ReceivedBefore b a

variable {a b : NormalizedMarketEvent}

theorem precedes_gold :
    Precedes (goldKeys.sequence a) (goldKeys.sequence b) ↔ ReceivedBefore a b := by
  simp [Precedes, MergeKeys.sequence, MergeKeys.tieBreak, goldKeys, ReceivedBefore]

theorem ReceivedBefore.asymm (h : ReceivedBefore a b) :
    ¬ ReceivedBefore b a := by
  unfold ReceivedBefore at h ⊢
  simp only [Prod.mk_lt_mk, Prod.mk.injEq] at h ⊢
  omega

/-- Of two rows with one event time, the merge gives the one received first. -/
theorem not_receivedBefore
    (h : goldKeys.orderKey a ≤ goldKeys.orderKey b) (hts : b.eventTsMs ≤ a.eventTsMs) :
    ¬ ReceivedBefore b a := by
  unfold ReceivedBefore
  simp only [goldKeys, Prod.Lex.toLex_le_toLex] at h
  simp only [Prod.mk_lt_mk, Prod.mk.injEq]
  omega

theorem eventTsMs_le (h : goldKeys.orderKey a ≤ goldKeys.orderKey b) :
    a.eventTsMs ≤ b.eventTsMs := by
  simp only [goldKeys, Prod.Lex.toLex_le_toLex] at h
  omega

/-- In a connection the exchange's times do not go down. -/
def EventsInOrder (rows : List NormalizedMarketEvent) : Prop :=
  ∀ a ∈ rows, ∀ b ∈ rows, a.connectionId = b.connectionId → ReceivedBefore a b →
    a.eventTsMs ≤ b.eventTsMs

/-- Both times agree on the order of the two rows, if they are of one connection. -/
def Agree (a b : NormalizedMarketEvent) : Prop :=
  a.connectionId = b.connectionId →
    (ReceivedBefore a b → a.eventTsMs ≤ b.eventTsMs) ∧
    (ReceivedBefore b a → b.eventTsMs ≤ a.eventTsMs)

variable {rows : List NormalizedMarketEvent}

theorem eventsInOrder_iff :
    EventsInOrder rows ↔ rows.Pairwise Agree := by
  constructor
  · intro h
    rw [List.pairwise_iff_forall_sublist]
    intro a b hab hconn
    have ha : a ∈ rows := hab.subset List.mem_cons_self
    have hb : b ∈ rows := hab.subset (List.mem_cons_of_mem _ List.mem_cons_self)
    exact ⟨h a ha b hb hconn, h b hb a ha hconn.symm⟩
  · intro h a ha b hb hconn hab
    have hself (x : NormalizedMarketEvent) : Agree x x := fun _ =>
      ⟨fun hx => (hx.asymm hx).elim, fun hx => (hx.asymm hx).elim⟩
    have : Std.Symm Agree := ⟨fun x y hxy hconn => (hxy hconn.symm).symm⟩
    have hall := List.Pairwise.forall_of_forall (fun x _ => hself x) h
    exact (hall ha hb hconn).1 hab

/-- Rows that the merge gives in the order `rows` pass their checks when both times agree. -/
theorem pairwise_precedes_gold (h : Ascending goldKeys rows)
    (hreceived : ReceivedInOrder rows) :
    (rows.Pairwise fun a b => goldKeys.connectionId a = goldKeys.connectionId b →
      Precedes (goldKeys.sequence a) (goldKeys.sequence b)) ↔ rows.Pairwise Agree := by
  constructor
  · intro hp
    apply List.Pairwise.imp₂ _ h hp
    intro a b hab hprecedes hconn
    have hbefore := precedes_gold.mp (hprecedes hconn)
    exact ⟨fun _ => eventTsMs_le hab, fun hba => (hbefore.asymm hba).elim⟩
  · intro hp
    have hboth := h.and hreceived
    apply List.Pairwise.imp₂ _ hboth hp
    rintro a b ⟨hab, horder⟩ hagree hconn
    rw [precedes_gold]
    rcases horder hconn with hbefore | hafter
    · exact hbefore
    · exact (not_receivedBefore hab ((hagree hconn).2 hafter) hafter).elim

theorem eligibleRows_perm (cutoffNs : ℤ) (utcDate : String) (rows : List NormalizedMarketEvent) :
    (eligibleRows cutoffNs utcDate rows).Perm (rows.filter (isEligible cutoffNs utcDate)) :=
  List.perm_insertionSort _ _

theorem source_sorted (cutoffNs : ℤ) (utcDate : String) (part : SilverPart) :
    (part.source cutoffNs utcDate).Sorted goldKeys where
  ascending := by
    have hpairwise := pairwise_sorted
      (fun a b : NormalizedMarketEvent => decide (goldKeys.orderKey a ≤ goldKeys.orderKey b))
      (fun a b => by simpa using le_total (goldKeys.orderKey a) (goldKeys.orderKey b))
      (fun a b c => by simpa using le_trans) (part.rows.filter (isEligible cutoffNs utcDate))
    simpa [Ascending, SilverPart.source, eligibleRows] using hpairwise
  bound row hrow :=
    part.bound row (List.mem_of_mem_filter ((eligibleRows_perm _ _ _).subset hrow))

theorem sourceRows_source (cutoffNs : ℤ) (utcDate : String) (parts : List SilverPart) :
    (sourceRows (parts.map (·.source cutoffNs utcDate))).Perm
      ((silverRows parts).filter (isEligible cutoffNs utcDate)) := by
  rw [sourceRows, List.flatMap_map, silverRows, List.filter_flatMap]
  exact List.Perm.flatMap_left parts fun part _ => eligibleRows_perm cutoffNs utcDate part.rows

/-- **Jitter.** When every connection is received in order, the merge goes through exactly when
in every connection the exchange's times do not go down from one row to a later one. -/
theorem gold_merge_raises (cutoffNs : ℤ) (utcDate : String) {parts : List SilverPart}
    (h : ReceivedInOrder (silverRows parts)) :
    (mergedRows cutoffNs utcDate parts).raised = none ↔
      EventsInOrder ((silverRows parts).filter (isEligible cutoffNs utcDate)) := by
  have hsorted : ∀ source ∈ parts.map (·.source cutoffNs utcDate), source.Sorted goldKeys := by
    intro source hsource
    obtain ⟨part, -, rfl⟩ := List.mem_map.mp hsource
    exact source_sorted cutoffNs utcDate part
  have hreadable : ∀ source ∈ parts.map (·.source cutoffNs utcDate), source.opens.raised = none := by
    intro source hsource
    obtain ⟨part, -, rfl⟩ := List.mem_map.mp hsource
    rfl
  obtain ⟨rows, hperm, hascending, hraises, -⟩ := merge_readable goldKeys hsorted hreadable
  have hkept := hperm.trans (sourceRows_source cutoffNs utcDate parts)
  have hreceived : ReceivedInOrder rows := by
    apply (hkept.pairwise_iff fun hab hconn => (hab hconn.symm).symm).mpr
    exact h.sublist List.filter_sublist
  have hnone : (mergedRows cutoffNs utcDate parts).raised = none ↔
      ¬ ∃ e, (mergedRows cutoffNs utcDate parts).raised = some (.inl e) := by
    cases (mergedRows cutoffNs utcDate parts).raised with
    | none => simp
    | some e =>
      cases e with
      | inl e => simp
      | inr e => exact e.elim
  rw [hnone, mergedRows, hraises, not_not, pairwise_precedes_gold hascending hreceived,
    eventsInOrder_iff]
  exact hkept.pairwise_iff fun hab hconn => (hab hconn.symm).symm

/-! ## Two trades -/

theorem lineage_same {id : String} (h : id ≠ "") : id ≠ "" ∧ id ≠ "" ∧ id ≠ "" := ⟨h, h, h⟩

/-- A trade of connection `c`. -/
def sampleTrade (id : String) (eventTsMs receiveTsNs receiveSequence : ℤ) (hid : id ≠ "")
    (hts : 0 < eventTsMs ∧ 0 < receiveTsNs) : NormalizedMarketEvent where
  schemaVersion := normalizedEventSchemaVersion
  normalizerVersion := normalizerVersion
  normalizedId := id
  rawEventId := id
  rawPayloadSha256 := id
  exchange := "bybit"
  marketType := "linear"
  channel := "trades"
  recordType := "trade"
  symbol := "BTCUSDT"
  eventTsMs
  receiveTsNs
  receiveSequence
  connectionId := "c"
  messageType := "snapshot"
  sequence := none
  updateId := none
  rowIndex := 0
  side := some "buy"
  price := some 100
  size := some 1
  version := rfl
  normalizer := normalizerVersion_supported
  known := List.mem_cons_of_mem _ List.mem_cons_self
  timestamps := hts
  indexed := le_refl 0
  lineage := lineage_same hid

theorem sampleId_a : "a" ≠ "" := by decide

theorem sampleId_b : "b" ≠ "" := by decide

/-- The trade that is received first has the later time. -/
def jitteryPart : SilverPart where
  minEventTsMs := 10
  rows := [sampleTrade "a" 20 1 1 sampleId_a (by decide),
    sampleTrade "b" 10 2 2 sampleId_b (by decide)]
  bound row hrow := by
    rcases List.mem_pair.mp hrow with rfl | rfl
    · decide
    · exact le_refl _

theorem jitteryPart_received : ReceivedInOrder (silverRows [jitteryPart]) := by
  apply List.Pairwise.cons _ (List.pairwise_singleton _ _)
  intro b hb _
  rw [List.mem_singleton.mp hb]
  exact .inl (.inl (Prod.mk_lt_mk.mpr (.inl ⟨by decide, by decide⟩)))

/-- Two trades that are received in order break the merge. -/
theorem jitter_breaks : ¬ ∀ (cutoffNs : ℤ) (utcDate : String) (parts : List SilverPart),
    ReceivedInOrder (silverRows parts) → (mergedRows cutoffNs utcDate parts).raised = none := by
  intro hclaim
  have hraised := hclaim 100 "1970-01-01" [jitteryPart] jitteryPart_received
  have hbroken : (mergedRows 100 "1970-01-01" [jitteryPart]).raised =
      some (.inl (.regressed "c" (2, 2) (1, 1))) := by decide +kernel
  rw [hbroken] at hraised
  cases hraised

theorem gold_merge_raises_jittery : (mergedRows 100 "1970-01-01" [jitteryPart]).raised = none ↔
    EventsInOrder ((silverRows [jitteryPart]).filter (isEligible 100 "1970-01-01")) :=
  gold_merge_raises 100 "1970-01-01" jitteryPart_received

end Greenfield.Data
