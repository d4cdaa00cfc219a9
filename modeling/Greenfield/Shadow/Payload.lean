import Greenfield.Lib.Codec
import Greenfield.Py.Json
import Greenfield.Risk.StateStore
import Greenfield.Shadow.Producer

/-!
# The payload of SHADOW work

`to_json_safe` and `from_json_safe` of `src/execution/shadow_store.py`, on the values that a
`ShadowWork` is made of, with the tests of their constructors. Each dataclass is a `Json.Schema`,
put together from the schemas of its annotations, so its writer and its reader have the same
fields. A timestamp is read back in UTC, where the code takes datetimes of one instant for equal.
`lower` is `str.lower`, and `repr` that of a JSON value.
-/

namespace Greenfield.Shadow.Payload

open Py Risk Json

/-! ## Annotations -/

abbrev StoreSchema (α : Type) := Schema PyFloat PyError α

def storeError {α : Type} (msg : String) : Except PyError α := .error (.shadowWorkStore msg)

def str : StoreSchema String where
  toJson s := .ok (.str s)
  fromJson
    | .str s => .ok s
    | _ => storeError "shadow work payload expected a string"
  norm := id
  Ready _ := True
  writes _ := ⟨_, rfl⟩
  stable _ := rfl
  reads h := by
    cases h
    exact ⟨.str _, rfl⟩

def bool : StoreSchema Bool where
  toJson b := .ok (.bool b)
  fromJson
    | .bool b => .ok b
    | _ => storeError "shadow work payload expected a boolean"
  norm := id
  Ready _ := True
  writes _ := ⟨_, rfl⟩
  stable _ := rfl
  reads h := by
    cases h
    exact ⟨.bool _, rfl⟩

/-- A finite float. -/
def float : StoreSchema ℚ where
  toJson q := .ok (ofRat q)
  fromJson
    | .int n => .ok n
    | .float (.finite q) => .ok q
    | _ => storeError "shadow work payload expected a number"
  norm := id
  Ready _ := True
  writes _ := ⟨_, rfl⟩
  stable _ := rfl
  reads h := by
    cases h
    exact ⟨.float _, rfl⟩

/-- The same instant in UTC; a naive datetime stays as it is. -/
def inUtc (d : Datetime) : Datetime :=
  match d.utcOffset with
  | none => d
  | some _ => .ofInstant d.instant

@[simp] theorem instant_inUtc (d : Datetime) : (inUtc d).instant = d.instant := by
  unfold inUtc
  split
  · rfl
  · exact Int.sub_zero _

@[simp] theorem utc_inUtc (d : Datetime) (name : String) : utc (inUtc d) name = utc d name := by
  unfold inUtc
  split
  · rfl
  · next o ho => simp [utc, utcOr, ho, Datetime.instant, Datetime.ofInstant]

theorem aware_inUtc {d : Datetime} (h : d.utcOffset ≠ none) : (inUtc d).utcOffset ≠ none := by
  unfold inUtc
  split
  · exact h
  · exact Option.some_ne_none 0

theorem aware_of_utc {d : Datetime} {name : String} {i : Instant} (h : utc d name = .ok i) :
    d.utcOffset ≠ none := by
  intro hnone
  simp [utc, utcOr, hnone] at h

/-- `_parse_iso`. -/
def parseIso (value : PyJson) (name : String) : Except PyError Instant :=
  match value with
  | .str text =>
    match fromisoformat text with
    | none => storeError (name ++ " is not a valid ISO-8601 timestamp")
    | some d => if d.utcOffset = none then storeError (name ++ " must be timezone-aware")
      else .ok d.instant
  | _ => storeError (name ++ " must be an ISO-8601 string")

theorem parseIso_isoformat (i : Instant) (name : String) :
    parseIso (.str (isoformat i)) name = .ok i := by
  have hinstant : (Datetime.ofInstant i).instant = i := Int.sub_zero _
  simp only [parseIso, fromisoformat_isoformat, hinstant]
  rfl

def datetime : StoreSchema Datetime where
  toJson d :=
    if d.utcOffset = none then storeError "dataclass timestamp field must be timezone-aware"
    else .ok (.str (isoformat d.instant))
  fromJson v := (parseIso v "shadow work payload timestamp").map Datetime.ofInstant
  norm := inUtc
  Ready d := d.utcOffset ≠ none
  writes h := ⟨_, if_neg h⟩
  stable d := by
    by_cases h : d.utcOffset = none
    · have hsame : inUtc d = d := by
        unfold inUtc
        rw [h]
      rw [hsame]
    · rw [if_neg h, if_neg (aware_inUtc h), instant_inUtc]
  reads {d v} h := by
    split at h
    · cases h
    · next hne =>
      cases h
      obtain ⟨o, ho⟩ := Option.ne_none_iff_exists'.mp hne
      refine ⟨.str _, ?_⟩
      rw [parseIso_isoformat, inUtc, ho]
      rfl

def tuple {α : Type} (s : StoreSchema α) : StoreSchema (List α) :=
  .tuple (.shadowWorkStore "shadow work payload expected a list for a tuple field") s

theorem tuple_norm {α : Type} (s : StoreSchema α) (h : s.norm = id) (xs : List α) :
    (tuple s).norm xs = xs := by
  show xs.map s.norm = xs
  rw [h, List.map_id]

/-- `tuple[str, str]`. -/
def strPair : StoreSchema (String × String) :=
  .pair (.shadowWorkStore "shadow work payload expected a list for a tuple field")
    (.shadowWorkStore "shadow work payload tuple has the wrong arity") str str

def optionalStr : StoreSchema (Option String) :=
  .option str fun h => by
    cases h
    nofun

def optionalFloat : StoreSchema (Option ℚ) :=
  .option float fun h => by
    cases h
    nofun

theorem optionalStr_norm (x : Option String) : optionalStr.norm x = x := by cases x <;> rfl

theorem optionalFloat_norm (x : Option ℚ) : optionalFloat.norm x = x := by cases x <;> rfl

/-- The member of a value. -/
def memberOf {α : Type} (value : α → String) (members : List α) : PyJson → Option α
  | .str s => members.find? fun x => value x = s
  | _ => none

theorem memberOf_value {α : Type} (value : α → String) {members : List α} {x : α}
    (hx : x ∈ members) (hvalue : ∀ x y, value x = value y → x = y) :
    memberOf value members (.str (value x)) = some x := by
  unfold memberOf
  cases hfind : members.find? fun y => decide (value y = value x) with
  | none =>
    have hne := List.find?_eq_none.mp hfind x hx
    simp at hne
  | some y =>
    have hy : value y = value x := by simpa using List.find?_some hfind
    show members.find? (fun y => decide (value y = value x)) = some x
    rw [hfind, hvalue y x hy]

/-- An `Enum`, by the values of its members. -/
def enum {α : Type} (repr : PyJson → String) (name : String) (value : α → String)
    (members : List α) (hmember : ∀ x, x ∈ members)
    (hvalue : ∀ x y, value x = value y → x = y) : StoreSchema α where
  toJson x := .ok (.str (value x))
  fromJson v :=
    match memberOf value members v with
    | some x => .ok x
    | none => storeError ("invalid enum value for " ++ name ++ ": " ++ repr v)
  norm := id
  Ready _ := True
  writes _ := ⟨_, rfl⟩
  stable _ := rfl
  reads {x v} h := by
    cases h
    refine ⟨.str _, ?_⟩
    rw [memberOf_value value (hmember x) hvalue]
    rfl

/-! ## Dataclasses -/

/-- What `from_json_safe` raises for an error of a constructor. -/
def invalid (name : String) : PyError → PyError
  | .valueError msg | .typeError msg =>
    .shadowWorkStore ("shadow work payload is not a valid " ++ name ++ ": " ++ msg)
  | err => err

/-- The values that pass the tests of their constructor. -/
abbrev Checked {ρ : Type} (postInit : ρ → Except PyError Unit) : Type :=
  { x : ρ // postInit x = .ok () }

def construct {ρ : Type} (postInit : ρ → Except PyError Unit) (x : ρ) :
    Except PyError (Checked postInit) :=
  match h : postInit x with
  | .ok () => .ok ⟨x, h⟩
  | .error err => .error err

theorem construct_val {ρ : Type} {postInit : ρ → Except PyError Unit} (x : Checked postInit) :
    construct postInit x.1 = .ok x := by
  obtain ⟨x, hx⟩ := x
  unfold construct
  split
  · rfl
  · next h =>
    rw [hx] at h
    cases h

/-- A dataclass of `module`. -/
def dataclass {α β : Type} (module name : String) (fs : Fields PyFloat PyError β)
    (distinct : fs.names.Nodup) (view : α → β) (make : β → Except PyError α) (norm : α → α)
    (hmake : ∀ x, make (view x) = .ok x) (hview : ∀ x, view (norm x) = fs.norm (view x))
    (hready : ∀ x, fs.Ready (view x)) : StoreSchema α :=
  .record fs distinct
    (.shadowWorkStore ("shadow work payload expected an object for <class '" ++ module ++ "." ++
      name ++ "'>"))
    (.shadowWorkStore ("shadow work payload fields do not match " ++ name)) view
    (fun t => (make t).mapError (invalid name)) norm
    (fun x => by rw [hmake x]; rfl) hview hready

variable (lower : String → String) (repr : PyJson → String)

/-! ### Enumerations -/

def setupAction : StoreSchema SetupAction :=
  enum repr "SetupAction" SetupAction.value [.long, .short, .wait, .arbitrage]
    (by intro x; cases x <;> simp) (by intro x y; cases x <;> cases y <;> simp [SetupAction.value])

def LegSide.value : LegSide → String
  | .buy => "BUY"
  | .sell => "SELL"

def legSide : StoreSchema LegSide :=
  enum repr "LegSide" LegSide.value [.buy, .sell]
    (by intro x; cases x <;> simp) (by intro x y; cases x <;> cases y <;> simp [LegSide.value])

def DataQualityStatus.value : DataQualityStatus → String
  | .pass => "PASS"
  | .degraded => "DEGRADED"
  | .fail => "FAIL"

def dataQualityStatus : StoreSchema DataQualityStatus :=
  enum repr "DataQualityStatus" DataQualityStatus.value [.pass, .degraded, .fail]
    (by intro x; cases x <;> simp)
    (by intro x y; cases x <;> cases y <;> simp [DataQualityStatus.value])

def EngineKind.value : EngineKind → String
  | .directional => "DIRECTIONAL"
  | .neutral => "NEUTRAL"
  | .research => "RESEARCH"

def engineKind : StoreSchema EngineKind :=
  enum repr "EngineKind" EngineKind.value [.directional, .neutral, .research]
    (by intro x; cases x <;> simp)
    (by intro x y; cases x <;> cases y <;> simp [EngineKind.value])

inductive ConfirmationFamily where
  | priceAuction
  | orderFlow
  | derivatives
  | volatilityOptions
  | crossMarket
  | regimeAnalog
  deriving DecidableEq

def ConfirmationFamily.value : ConfirmationFamily → String
  | .priceAuction => "price_auction"
  | .orderFlow => "order_flow"
  | .derivatives => "derivatives"
  | .volatilityOptions => "volatility_options"
  | .crossMarket => "cross_market"
  | .regimeAnalog => "regime_analog"

def confirmationFamily : StoreSchema ConfirmationFamily :=
  enum repr "ConfirmationFamily" ConfirmationFamily.value
    [.priceAuction, .orderFlow, .derivatives, .volatilityOptions, .crossMarket, .regimeAnalog]
    (by intro x; cases x <;> simp)
    (by intro x y; cases x <;> cases y <;> simp [ConfirmationFamily.value])

/-! ### `src/engines/contracts.py` -/

def makeRange (low base high : ℚ) : Except PyError NumericRange :=
  if ordered : low ≤ base ∧ base ≤ high then .ok ⟨low, base, high, ordered⟩
  else .error (.valueError "numeric range must be ordered low <= base <= high")

def numericRange : StoreSchema NumericRange :=
  dataclass "src.engines.contracts" "NumericRange"
    (.cons "low" float (.cons "base" float (.cons "high" float .nil))) (by decide)
    (fun x => (x.low, x.base, x.high, ())) (fun (low, base, high, _) => makeRange low base high) id
    (fun x => dif_pos x.ordered) (fun _ => rfl) fun _ => ⟨trivial, trivial, trivial, trivial⟩

structure MarketTargetFields where
  symbol : String
  venues : List String

def MarketTargetFields.postInit (x : MarketTargetFields) : Except PyError Unit := do
  require (x.symbol ≠ "" ∧ x.symbol = strip x.symbol)
    (.valueError "market target symbol must be non-empty and trimmed")
  require (x.venues ≠ [] ∧ ∀ venue ∈ x.venues, venue ≠ "" ∧ venue = strip venue)
    (.valueError "market target requires trimmed venues")
  require (x.venues.map lower).Nodup (.valueError "market target venues must be unique")

abbrev MarketTarget : Type := Checked (MarketTargetFields.postInit lower)

def marketTarget : StoreSchema (MarketTarget lower) :=
  dataclass "src.engines.contracts" "MarketTarget"
    (.cons "symbol" str (.cons "venues" (tuple str) .nil)) (by decide)
    (fun x => (x.1.symbol, x.1.venues, ()))
    (fun (symbol, venues, _) => construct (MarketTargetFields.postInit lower) ⟨symbol, venues⟩) id
    (fun x => construct_val x) (fun x => by simp [Fields.cons, Fields.nil, tuple, str, Schema.tuple])
    fun _ => ⟨trivial, fun _ _ => trivial, trivial⟩

def makeLeg (symbol venue : String) (side : LegSide) : Except PyError SetupLeg :=
  if trimmed : symbol ≠ "" ∧ symbol = strip symbol ∧ venue ≠ "" ∧ venue = strip venue then
    .ok ⟨symbol, venue, side, trimmed⟩
  else .error (.valueError "setup leg symbol and venue must be non-empty and trimmed")

def setupLeg : StoreSchema SetupLeg :=
  dataclass "src.engines.contracts" "SetupLeg"
    (.cons "symbol" str (.cons "venue" str (.cons "side" (legSide repr) .nil)))
    (by simp [Fields.cons, Fields.nil])
    (fun x => (x.symbol, x.venue, x.side, ()))
    (fun (symbol, venue, side, _) => makeLeg symbol venue side) id
    (fun x => dif_pos x.trimmed) (fun _ => rfl) fun _ => ⟨trivial, trivial, trivial, trivial⟩

structure FamilyEvidenceFields where
  family : ConfirmationFamily
  score : ℚ
  confidence : ℚ
  quality : ℚ
  maxSourceTimestampUtc : Datetime
  componentIds : List String
  rationale : String

namespace FamilyEvidenceFields

def postInit (x : FamilyEvidenceFields) : Except PyError Unit := do
  require (-1 ≤ x.score ∧ x.score ≤ 1)
    (.valueError "family evidence score must be between -1 and 1")
  require ((0 ≤ x.confidence ∧ x.confidence ≤ 1) ∧ 0 ≤ x.quality ∧ x.quality ≤ 1)
    (.valueError "family confidence and quality must be between zero and one")
  let _ ← utc x.maxSourceTimestampUtc "family source timestamp"
  require (x.componentIds ≠ [] ∧ ∀ item ∈ x.componentIds, isBlank item = false)
    (.valueError "family evidence requires named components")
  require x.componentIds.Nodup (.valueError "family evidence components must be unique")
  require (!isBlank x.rationale) (.valueError "family evidence requires rationale")

def inUtc (x : FamilyEvidenceFields) : FamilyEvidenceFields :=
  { x with maxSourceTimestampUtc := Payload.inUtc x.maxSourceTimestampUtc }

theorem postInit_inUtc (x : FamilyEvidenceFields) : x.inUtc.postInit = x.postInit := by
  simp only [postInit, inUtc, utc_inUtc]
  rfl

theorem aware {x : FamilyEvidenceFields} (h : x.postInit = .ok ()) :
    x.maxSourceTimestampUtc.utcOffset ≠ none := by
  unfold postInit at h
  obtain ⟨-, -, h⟩ := bind_eq_ok.mp h
  obtain ⟨-, -, h⟩ := bind_eq_ok.mp h
  obtain ⟨_, hutc, -⟩ := bind_eq_ok.mp h
  exact aware_of_utc hutc

end FamilyEvidenceFields

abbrev FamilyEvidence : Type := Checked FamilyEvidenceFields.postInit

/-- The same values of a dataclass, with its timestamps in UTC. -/
def Checked.map {ρ : Type} {postInit : ρ → Except PyError Unit} (f : ρ → ρ)
    (hf : ∀ x, postInit (f x) = postInit x) (x : Checked postInit) : Checked postInit :=
  ⟨f x.1, (hf x.1).trans x.2⟩

def familyEvidence : StoreSchema FamilyEvidence :=
  dataclass "src.engines.contracts" "FamilyEvidence"
    (.cons "family" (confirmationFamily repr) (.cons "score" float (.cons "confidence" float
      (.cons "quality" float (.cons "max_source_timestamp_utc" datetime
        (.cons "component_ids" (tuple str) (.cons "rationale" str .nil)))))))
    (by simp [Fields.cons, Fields.nil])
    (fun x => (x.1.family, x.1.score, x.1.confidence, x.1.quality, x.1.maxSourceTimestampUtc,
      x.1.componentIds, x.1.rationale, ()))
    (fun (family, score, confidence, quality, maxSourceTimestampUtc, componentIds, rationale, _) =>
      construct FamilyEvidenceFields.postInit
        ⟨family, score, confidence, quality, maxSourceTimestampUtc, componentIds, rationale⟩)
    (Checked.map FamilyEvidenceFields.inUtc FamilyEvidenceFields.postInit_inUtc)
    (fun x => construct_val x)
    (fun x => by
      simp [Fields.cons, Fields.nil, tuple, str, Schema.tuple, Checked.map,
        FamilyEvidenceFields.inUtc, confirmationFamily, enum, float, datetime])
    fun x => ⟨trivial, trivial, trivial, trivial, FamilyEvidenceFields.aware x.2,
      fun _ _ => trivial, trivial, trivial⟩

structure SetupDecisionFields where
  action : SetupAction
  targets : List (MarketTarget lower)
  legs : List SetupLeg
  decisionTimestampUtc : Datetime
  dataCutoffUtc : Datetime
  horizon : String
  evidence : List FamilyEvidence
  regimes : List (String × String)
  entryCondition : String
  invalidation : String
  stopOrHedgeLogic : String
  expectedCostBps : NumericRange
  expectedValueAfterCostBps : NumericRange
  capacityNotional : ℚ
  dataQualityStatus : DataQualityStatus
  modelVersion : String
  featureVersion : String
  reasonCodes : List String

namespace SetupDecisionFields

variable {lower}

/-- The tests of the action. -/
def testAction (x : SetupDecisionFields lower) : Except PyError Unit := do
  if x.action = .wait then
    require (x.reasonCodes ≠ []) (.valueError "WAIT requires at least one reason code")
    require x.legs.isEmpty (.valueError "WAIT cannot contain executable legs")
  else
    require (!x.legs.isEmpty) (.valueError "actionable setup requires execution legs")
  require (x.action = .long → ∀ leg ∈ x.legs, leg.side = .buy)
    (.valueError "LONG setup legs must buy")
  require (x.action = .short → ∀ leg ∈ x.legs, leg.side = .sell)
    (.valueError "SHORT setup legs must sell")
  require (x.action = .arbitrage → 2 ≤ x.legs.length ∧ (∃ leg ∈ x.legs, leg.side = .buy) ∧
      ∃ leg ∈ x.legs, leg.side = .sell)
    (.valueError "ARBITRAGE requires opposing buy and sell legs")
  require (x.action ≠ .wait → isBlank x.entryCondition = false ∧ isBlank x.invalidation = false ∧
      isBlank x.stopOrHedgeLogic = false)
    (.valueError "actionable setup requires entry, invalidation, and risk logic")

/-- The timestamps of the evidence were tested with it. -/
def postInit (x : SetupDecisionFields lower) : Except PyError Unit := do
  let decision ← utc x.decisionTimestampUtc "decision timestamp"
  let cutoff ← utc x.dataCutoffUtc "data cutoff"
  require (decide (cutoff ≤ decision))
    (.valueError "setup data cutoff cannot follow decision time")
  require (x.evidence.map fun item => item.1.family).Nodup
    (.valueError "a setup may contain at most one vote per family")
  require (x.evidence.all fun item => item.1.maxSourceTimestampUtc.instant ≤ cutoff)
    (.valueError "setup evidence cannot follow the data cutoff")
  require (!x.targets.isEmpty) (.valueError "setup requires at least one market target")
  require (x.targets.map fun target => target.1.symbol).Nodup
    (.valueError "setup market targets must be unique by symbol")
  require (∀ leg ∈ x.legs, (leg.symbol, lower leg.venue) ∈ x.targets.flatMap fun target =>
      target.1.venues.map fun venue => (target.1.symbol, lower venue))
    (.valueError "every setup leg must belong to a declared market target")
  require (isBlank x.horizon = false ∧ isBlank x.modelVersion = false ∧
      isBlank x.featureVersion = false)
    (.valueError "setup requires horizon, model version, and feature version")
  require (0 ≤ x.expectedCostBps.low) (.valueError "expected cost range cannot be negative")
  require (0 ≤ x.capacityNotional)
    (.valueError "setup capacity must be finite and non-negative")
  require (x.regimes ≠ [] ∧ ∀ r ∈ x.regimes, isBlank r.1 = false ∧ isBlank r.2 = false)
    (.valueError "setup requires named regime domains and values")
  require (x.regimes.map Prod.fst).Nodup (.valueError "setup regime domains must be unique")
  x.testAction

def inUtc (x : SetupDecisionFields lower) : SetupDecisionFields lower :=
  { x with
    decisionTimestampUtc := Payload.inUtc x.decisionTimestampUtc
    dataCutoffUtc := Payload.inUtc x.dataCutoffUtc
    evidence := x.evidence.map
      (Checked.map FamilyEvidenceFields.inUtc FamilyEvidenceFields.postInit_inUtc) }

theorem postInit_inUtc (x : SetupDecisionFields lower) : x.inUtc.postInit = x.postInit := by
  have hfamilies : (x.inUtc.evidence.map fun item => item.1.family) =
      x.evidence.map fun item => item.1.family := by
    simp only [inUtc, List.map_map]
    rfl
  have htimes (cutoff : Instant) :
      (x.inUtc.evidence.all fun item => item.1.maxSourceTimestampUtc.instant ≤ cutoff) =
        x.evidence.all fun item => item.1.maxSourceTimestampUtc.instant ≤ cutoff := by
    simp only [inUtc, List.all_map, Function.comp_def, Checked.map, FamilyEvidenceFields.inUtc,
      instant_inUtc]
  unfold postInit
  simp only [htimes, hfamilies]
  simp only [inUtc, utc_inUtc]
  rfl

theorem aware {x : SetupDecisionFields lower} (h : x.postInit = .ok ()) :
    x.decisionTimestampUtc.utcOffset ≠ none ∧ x.dataCutoffUtc.utcOffset ≠ none := by
  unfold postInit at h
  obtain ⟨_, hdecision, h⟩ := bind_eq_ok.mp h
  obtain ⟨_, hcutoff, -⟩ := bind_eq_ok.mp h
  exact ⟨aware_of_utc hdecision, aware_of_utc hcutoff⟩

end SetupDecisionFields

abbrev SetupDecision : Type := Checked (@SetupDecisionFields.postInit lower)

def setupDecision : StoreSchema (SetupDecision lower) :=
  dataclass "src.engines.contracts" "SetupDecision"
    (.cons "action" (setupAction repr) (.cons "targets" (tuple (marketTarget lower))
      (.cons "legs" (tuple (setupLeg repr)) (.cons "decision_timestamp_utc" datetime
      (.cons "data_cutoff_utc" datetime (.cons "horizon" str
      (.cons "evidence" (tuple (familyEvidence repr)) (.cons "regimes" (tuple strPair)
      (.cons "entry_condition" str (.cons "invalidation" str (.cons "stop_or_hedge_logic" str
      (.cons "expected_cost_bps" numericRange (.cons "expected_value_after_cost_bps" numericRange
      (.cons "capacity_notional" float (.cons "data_quality_status" (dataQualityStatus repr)
      (.cons "model_version" str (.cons "feature_version" str
      (.cons "reason_codes" (tuple str) .nil))))))))))))))))))
    (by simp [Fields.cons, Fields.nil])
    (fun x => (x.1.action, x.1.targets, x.1.legs, x.1.decisionTimestampUtc, x.1.dataCutoffUtc,
      x.1.horizon, x.1.evidence, x.1.regimes, x.1.entryCondition, x.1.invalidation,
      x.1.stopOrHedgeLogic, x.1.expectedCostBps, x.1.expectedValueAfterCostBps,
      x.1.capacityNotional, x.1.dataQualityStatus, x.1.modelVersion, x.1.featureVersion,
      x.1.reasonCodes, ()))
    (fun (action, targets, legs, decisionTimestampUtc, dataCutoffUtc, horizon, evidence, regimes,
        entryCondition, invalidation, stopOrHedgeLogic, expectedCostBps, expectedValueAfterCostBps,
        capacityNotional, dataQualityStatus, modelVersion, featureVersion, reasonCodes, _) =>
      construct SetupDecisionFields.postInit
        ⟨action, targets, legs, decisionTimestampUtc, dataCutoffUtc, horizon, evidence, regimes,
          entryCondition, invalidation, stopOrHedgeLogic, expectedCostBps,
          expectedValueAfterCostBps, capacityNotional, dataQualityStatus, modelVersion,
          featureVersion, reasonCodes⟩)
    (Checked.map SetupDecisionFields.inUtc SetupDecisionFields.postInit_inUtc)
    (fun x => construct_val x)
    (fun x => by
      simp only [Fields.cons, Fields.nil, tuple_norm (marketTarget lower) rfl,
        tuple_norm (setupLeg repr) rfl, tuple_norm strPair rfl, tuple_norm str rfl]
      rfl)
    fun x => ⟨trivial, fun _ _ => trivial, fun _ _ => trivial, (SetupDecisionFields.aware x.2).1,
      (SetupDecisionFields.aware x.2).2, trivial, fun _ _ => trivial,
      fun _ _ => ⟨trivial, trivial⟩, trivial, trivial, trivial, trivial, trivial, trivial, trivial,
      trivial, trivial, fun _ _ => trivial, trivial⟩

/-! ### `src/engines/meta.py` -/

def candidateRanking : StoreSchema CandidateRanking :=
  dataclass "src.engines.meta" "CandidateRanking"
    (.cons "engine_id" str (.cons "engine_kind" (engineKind repr)
      (.cons "action" (setupAction repr) (.cons "eligible" bool (.cons "score" optionalFloat
      (.cons "maximum_allocation_notional" float (.cons "reason" str .nil)))))))
    (by simp [Fields.cons, Fields.nil])
    (fun x => (x.engineId, x.engineKind, x.action, x.eligible, x.score,
      x.maximumAllocationNotional, x.reason, ()))
    (fun (engineId, engineKind, action, eligible, score, maximumAllocationNotional, reason, _) =>
      .ok ⟨engineId, engineKind, action, eligible, score, maximumAllocationNotional, reason⟩) id
    (fun _ => rfl)
    (fun x => by
      simp only [Fields.cons, Fields.nil, optionalFloat_norm]
      rfl)
    fun _ => ⟨trivial, trivial, trivial, trivial, fun _ _ => trivial, trivial, trivial, trivial⟩

structure MetaDecisionFields where
  action : SetupAction
  decisionTimestampUtc : Datetime
  selectedEngineId : Option String
  selectedSetup : Option (SetupDecision lower)
  allocatedNotional : ℚ
  rankings : List CandidateRanking
  reasonCodes : List String

namespace MetaDecisionFields

variable {lower}

def postInit (x : MetaDecisionFields lower) : Except PyError Unit := do
  let _ ← utc x.decisionTimestampUtc "meta decision timestamp"
  if x.action = .wait then
    require (x.selectedSetup.isNone ∧ x.selectedEngineId.isNone)
      (.valueError "WAIT Meta Decision cannot select a setup")
    require (x.reasonCodes ≠ [] ∧ x.allocatedNotional = 0)
      (.valueError "WAIT Meta Decision requires reasons and zero allocation")
  else
    require (x.selectedSetup.isSome ∧ x.selectedEngineId.isSome)
      (.valueError "actionable Meta Decision requires a selected setup")
    require (x.selectedSetup.all (fun setup => setup.1.action = x.action) ∧
        0 < x.allocatedNotional)
      (.valueError "Meta Decision cannot alter action or allocate zero")

def inUtc (x : MetaDecisionFields lower) : MetaDecisionFields lower :=
  { x with
    decisionTimestampUtc := Payload.inUtc x.decisionTimestampUtc
    selectedSetup := x.selectedSetup.map
      (Checked.map SetupDecisionFields.inUtc SetupDecisionFields.postInit_inUtc) }

theorem postInit_inUtc (x : MetaDecisionFields lower) : x.inUtc.postInit = x.postInit := by
  unfold postInit
  simp only [inUtc, utc_inUtc, Option.isNone_map, Option.isSome_map, Option.all_map]
  rfl

theorem aware {x : MetaDecisionFields lower} (h : x.postInit = .ok ()) :
    x.decisionTimestampUtc.utcOffset ≠ none := by
  unfold postInit at h
  obtain ⟨_, hdecision, -⟩ := bind_eq_ok.mp h
  exact aware_of_utc hdecision

end MetaDecisionFields

abbrev MetaDecision : Type := Checked (@MetaDecisionFields.postInit lower)

def optionalSetup : StoreSchema (Option (SetupDecision lower)) :=
  .option (setupDecision lower repr) fun h => obj_ne_null h

def metaDecision : StoreSchema (MetaDecision lower) :=
  dataclass "src.engines.meta" "MetaDecision"
    (.cons "action" (setupAction repr) (.cons "decision_timestamp_utc" datetime
      (.cons "selected_engine_id" optionalStr
      (.cons "selected_setup" (optionalSetup lower repr)
      (.cons "allocated_notional" float (.cons "rankings" (tuple (candidateRanking repr))
      (.cons "reason_codes" (tuple str) .nil)))))))
    (by simp [Fields.cons, Fields.nil])
    (fun x => (x.1.action, x.1.decisionTimestampUtc, x.1.selectedEngineId, x.1.selectedSetup,
      x.1.allocatedNotional, x.1.rankings, x.1.reasonCodes, ()))
    (fun (action, decisionTimestampUtc, selectedEngineId, selectedSetup, allocatedNotional,
        rankings, reasonCodes, _) =>
      construct MetaDecisionFields.postInit
        ⟨action, decisionTimestampUtc, selectedEngineId, selectedSetup, allocatedNotional,
          rankings, reasonCodes⟩)
    (Checked.map MetaDecisionFields.inUtc MetaDecisionFields.postInit_inUtc)
    (fun x => construct_val x)
    (fun x => by
      simp only [Fields.cons, Fields.nil, tuple_norm (candidateRanking repr) rfl,
        tuple_norm str rfl, optionalStr_norm]
      rfl)
    fun x => ⟨trivial, MetaDecisionFields.aware x.2, fun _ _ => trivial, fun _ _ => trivial,
      trivial, fun _ _ => trivial, fun _ _ => trivial, trivial⟩

/-! ### Work -/

def inUtcProposal (x : PortfolioEntryProposal) : PortfolioEntryProposal :=
  { x with
    proposedAtUtc := inUtc x.proposedAtUtc
    aware := aware_inUtc x.aware }

theorem makeProposal_self (x : PortfolioEntryProposal) :
    makeProposal x.key x.symbol x.venue x.strategy x.engine x.signedNotional
      x.committedRiskFraction x.correlationCheckedSymbols x.correlatedSymbols x.proposedAtUtc =
      .ok x := by
  unfold makeProposal
  rw [dif_pos x.identifiers, dif_pos x.notional, dif_pos x.risk, dif_pos x.unique.1,
    dif_pos x.unique.2, dif_pos x.covered, dif_pos x.other, dif_pos x.aware]

def portfolioEntryProposal : StoreSchema PortfolioEntryProposal :=
  dataclass "src.risk.portfolio_engine" "PortfolioEntryProposal"
    (.cons "key" str (.cons "symbol" str (.cons "venue" str (.cons "strategy" str
      (.cons "engine" str (.cons "signed_notional" float (.cons "committed_risk_fraction" float
      (.cons "correlation_checked_symbols" (tuple str) (.cons "correlated_symbols" (tuple str)
      (.cons "proposed_at_utc" datetime .nil))))))))))
    (by simp [Fields.cons, Fields.nil])
    (fun x => (x.key, x.symbol, x.venue, x.strategy, x.engine, x.signedNotional,
      x.committedRiskFraction, x.correlationCheckedSymbols, x.correlatedSymbols, x.proposedAtUtc,
      ()))
    (fun (key, symbol, venue, strategy, engine, signedNotional, committedRiskFraction, checked,
        correlated, proposedAtUtc, _) =>
      makeProposal key symbol venue strategy engine signedNotional committedRiskFraction checked
        correlated proposedAtUtc)
    inUtcProposal makeProposal_self
    (fun x => by
      simp only [Fields.cons, Fields.nil, tuple_norm str rfl]
      rfl)
    fun x => ⟨trivial, trivial, trivial, trivial, trivial, trivial, trivial, fun _ _ => trivial,
      fun _ _ => trivial, x.aware, trivial⟩

structure ShadowWorkFields where
  observationId : String
  decision : MetaDecision lower
  proposals : List PortfolioEntryProposal
  equity : ℚ

namespace ShadowWorkFields

variable {lower}

def postInit (x : ShadowWorkFields lower) : Except PyError Unit := do
  require (!isBlank x.observationId) (.valueError "shadow work requires an observation id")
  require (0 < x.equity) (.valueError "shadow work equity must be finite and positive")

def inUtc (x : ShadowWorkFields lower) : ShadowWorkFields lower :=
  { x with
    decision := x.decision.map MetaDecisionFields.inUtc MetaDecisionFields.postInit_inUtc
    proposals := x.proposals.map inUtcProposal }

theorem postInit_inUtc (x : ShadowWorkFields lower) : x.inUtc.postInit = x.postInit := rfl

end ShadowWorkFields

abbrev ShadowWork : Type := Checked (@ShadowWorkFields.postInit lower)

/-- The schema of `ShadowWork`; `meta` is its decision. -/
def shadowWork : StoreSchema (ShadowWork lower) :=
  dataclass "src.execution.shadow_loop" "ShadowWork"
    (.cons "observation_id" str (.cons "meta" (metaDecision lower repr)
      (.cons "proposals" (tuple portfolioEntryProposal) (.cons "equity" float .nil))))
    (by simp [Fields.cons, Fields.nil])
    (fun x => (x.1.observationId, x.1.decision, x.1.proposals, x.1.equity, ()))
    (fun (observationId, decision, proposals, equity, _) =>
      construct ShadowWorkFields.postInit ⟨observationId, decision, proposals, equity⟩)
    (Checked.map ShadowWorkFields.inUtc ShadowWorkFields.postInit_inUtc)
    (fun x => construct_val x) (fun _ => rfl)
    fun _ => ⟨trivial, trivial, fun _ _ => trivial, trivial, trivial⟩

end Greenfield.Shadow.Payload
