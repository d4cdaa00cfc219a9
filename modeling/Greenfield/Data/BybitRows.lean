import Greenfield.Data.BybitNormalizer
import Greenfield.Data.BybitReplay

/-!
# Rows of the messages that the replay reads

The replay and the normalizer read the levels of an order-book message alike
(`normalize_read`).
-/

namespace Greenfield.Data

open Py

variable {D : Digests} {F : Floats} {T : Texts} {dumps : PyJson → String}

/-- The replay does not read the update id of the envelope. -/
theorem readEvent_update (e : RawMarketEvent D) (updateId : Option ℤ) :
    readEvent F T { e with updateId } = readEvent F T e := rfl

theorem levelValues_read {name : String} {level : PyJson} {l : ℚ × ℚ} (eventTsMs : ℤ)
    (bookSide : String) (h : readLevel T (· = 2) name level = .ok l) :
    levelValues T eventTsMs bookSide level = .ok (levelRecord eventTsMs bookSide l) := by
  unfold readLevel at h
  split at h
  · next first second rest =>
    split at h
    · next hlength =>
      have hrest : rest = [] := by simpa using hlength
      subst hrest
      split at h
      · next price size hprice hsize =>
        split at h
        · next hnumbers =>
          cases h
          have hp : decimalText T first true "price" = .ok price := by
            unfold decimalText
            rw [hprice]
            exact if_neg (not_or.mpr ⟨hnumbers.1.le.not_gt, fun h => h.2.not_gt hnumbers.1⟩)
          have hs : decimalText T second false "size" = .ok size := by
            unfold decimalText
            rw [hsize]
            exact if_neg (not_or.mpr ⟨hnumbers.2.not_gt, fun h => Bool.false_ne_true h.1⟩)
          unfold levelValues
          simp only [hp, hs]
          rfl
        · cases h
      · cases h
      · cases h
    · cases h
  · cases h

theorem fieldValues_read {name : String} {value : PyJson} {ls : List (ℚ × ℚ)} (eventTsMs : ℤ)
    (bookSide field : String) (h : readLevels T (· = 2) name value = .ok ls) :
    fieldValues T eventTsMs bookSide field value =
      .ok (ls.map (levelRecord eventTsMs bookSide)) := by
  unfold readLevels at h
  split at h
  · exact mapM_of_mapM (fun _ _ => levelValues_read eventTsMs bookSide) h
  · cases h

/-- The levels of a message, under the names of their sides. -/
def BybitBookMessage.records (m : BybitBookMessage) : List (String × ℚ × ℚ) :=
  m.bids.map ("bid", ·) ++ m.asks.map ("ask", ·)

/-- The type of a message that is a snapshot or a delta. -/
theorem type_text {message : List (String × PyJson)}
    (h : isText (item message "type") "snapshot" = true ∨
      isText (item message "type") "delta" = true) :
    ∃ text, (Json.get message "type").getD (.str "") = .str text ∧
      (text = "snapshot" ∨ text = "delta") := by
  unfold item at h
  cases hget : Json.get message "type" with
  | none => simp [hget, isText] at h
  | some value =>
    rw [hget, Option.getD_some] at h
    cases value with
    | str text => exact ⟨text, rfl, by simpa [isText] using h⟩
    | _ => simp [isText] at h

variable {e : RawMarketEvent D} {m : BybitBookMessage}

variable {eventTsMs : ℤ}

/-- The records of a message that the replay reads. -/
theorem values_read (hstr : ∀ text, T.str (.str text) = text)
    (hexchange : e.exchange = "bybit") (hchannel : e.channel = "orderbook")
    (hread : readEvent F T e = .ok m)
    (htype : isText m.messageType "snapshot" = true ∨ isText m.messageType "delta" = true)
    (htime : bookTsMs e.toRawFields = some eventTsMs) :
    normalizeBybitEvent F T dumps e =
      (m.records.map fun r => levelRecord eventTsMs r.1 r.2).zipIdx.mapM
        fun record => buildEvent e record.1 record.2 := by
  obtain ⟨message, hpayload, hread⟩ := bind_eq_ok.mp hread
  unfold readBybitMessage at hread
  split at hread
  · next data hdata =>
    obtain ⟨updateId, -, hread⟩ := bind_eq_ok.mp hread
    obtain ⟨sequence, -, hread⟩ := bind_eq_ok.mp hread
    obtain ⟨bids, hbids, hread⟩ := bind_eq_ok.mp hread
    obtain ⟨asks, hasks, hread⟩ := bind_eq_ok.mp hread
    cases hread
    obtain ⟨text, htext, hkind⟩ := type_text htype
    have hvalues : channelValues T dumps e.toRawFields message =
        .ok (bids.map (levelRecord eventTsMs "bid") ++ asks.map (levelRecord eventTsMs "ask")) := by
      have hinvalid : ¬ (text ≠ "snapshot" ∧ text ≠ "delta") := by
        rcases hkind with rfl | rfl
        · exact fun h => h.1 rfl
        · exact fun h => h.2 rfl
      unfold channelValues normalizeOrderbook
      rw [if_pos hchannel, hdata]
      simp only [mapping, htext, hstr, if_neg hinvalid, htime,
        fieldValues_read eventTsMs "bid" "b" hbids, fieldValues_read eventTsMs "ask" "a" hasks]
      rfl
    have hrecords : bids.map (levelRecord eventTsMs "bid") ++
        asks.map (levelRecord eventTsMs "ask") =
        (BybitBookMessage.records ⟨item message "type", updateId, sequence, bids, asks⟩).map
          fun r => levelRecord eventTsMs r.1 r.2 := by
      simp [BybitBookMessage.records, Function.comp_def]
    have hcontrol : e.channel ≠ "control" := by
      rw [hchannel]
      decide
    have hknown : e.channel ∈ normalizedChannels := hchannel ▸ List.mem_cons_self
    unfold normalizeBybitEvent
    rw [if_neg (not_not.mpr hexchange), if_neg hcontrol, if_neg (not_not.mpr hknown), hpayload,
      ← hrecords]
    show (channelValues T dumps e.toRawFields message >>= _) = _
    rw [hvalues]
    rfl
  · cases hread

variable (dumps) in
/-- **The rows** of a message that the replay reads are those of its levels. -/
theorem normalize_read (h : Buildable e)
    (hstr : ∀ text, T.str (.str text) = text) (hexchange : e.exchange = "bybit")
    (hchannel : e.channel = "orderbook") (hread : readEvent F T e = .ok m)
    (htype : isText m.messageType "snapshot" = true ∨ isText m.messageType "delta" = true)
    (htime : bookTsMs e.toRawFields = some eventTsMs) (hts : 0 < eventTsMs) :
    normalizeBybitEvent F T dumps e = .ok (h.rows eventTsMs hts m.records) := by
  rw [values_read hstr hexchange hchannel hread htype htime]
  exact h.build_rows hts m.records

variable (dumps) in
/-- A message without levels has no rows. -/
theorem normalize_empty (hstr : ∀ text, T.str (.str text) = text)
    (hexchange : e.exchange = "bybit") (hchannel : e.channel = "orderbook")
    (hread : readEvent F T e = .ok m)
    (htype : isText m.messageType "snapshot" = true ∨ isText m.messageType "delta" = true)
    (htime : bookTsMs e.toRawFields = some eventTsMs) (hempty : m.records = []) :
    normalizeBybitEvent F T dumps e = .ok [] := by
  rw [values_read hstr hexchange hchannel hread htype htime, hempty]
  rfl

end Greenfield.Data
