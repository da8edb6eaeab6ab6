import KAssetTrader.Tape.SnapshotJson

/-!
Which snapshots come back equal from what is stored of them: those with a symbol, with times
whose zone gives them one offset and a moment in UTC, with finite metrics, and with levels
whose prices are numbers and whose sizes are not too long to be converted.
-/

namespace KAssetTrader.Tape

open CivilTime
open Decimal
open Storage
open Checked

variable {machine : Machine} {payload : Json} {s t : SnapshotFields} {key : String}

/-- `a == b` for decimals that may be absent. -/
def OptionEquals : Option DecimalValue → Option DecimalValue → Prop
  | none, none => True
  | some a, some b => a.Equals b
  | _, _ => False

/-- The times have no zone, or the same object for one. -/
def Timestamp.sameZone (a b : Timestamp) : Bool :=
  match a.tzinfo, b.tzinfo with
  | none, none => true
  | some .utc, some .utc => true
  | some (.other a _), some (.other b _) => a = b
  | _, _ => false

/-- `a == b` for times. Of one zone, or of none, the local times are compared. Otherwise no
time is equal whose offset depends on its fold, and the moments in UTC are compared. -/
def Timestamp.Equals (a b : Timestamp) : Prop :=
  if a.sameZone b then a.localTime = b.localTime
  else a.utcoffset (!a.fold) = a.utcoffset a.fold ∧ b.utcoffset (!b.fold) = b.utcoffset b.fold ∧
    match a.utcoffset a.fold, b.utcoffset b.fold with
    | none, none => a.localTime = b.localTime
    | some x, some y =>
      (x = y → a.localTime = b.localTime) ∧
        (x ≠ y → a.localTime.micros - x.val = b.localTime.micros - y.val)
    | _, _ => False

def TimeEquals : Option Timestamp → Option Timestamp → Prop
  | none, none => True
  | some a, some b => a.Equals b
  | _, _ => False

/-- `a == b` for levels. -/
structure LevelFields.Equals (a b : LevelFields) : Prop where
  bid : OptionEquals a.bid b.bid
  ask : OptionEquals a.ask b.ask
  bidSize : a.bidSize = b.bidSize
  askSize : a.askSize = b.askSize

/-- `a == b` for snapshots. -/
structure SnapshotFields.Equals (a b : SnapshotFields) : Prop where
  symbol : a.symbol = b.symbol
  asOf : a.asOf.Equals b.asOf
  sessionDate : a.sessionDate = b.sessionDate
  coverageStartedAt : TimeEquals a.coverageStartedAt b.coverageStartedAt
  lastTradeAt : TimeEquals a.lastTradeAt b.lastTradeAt
  lastBookAt : TimeEquals a.lastBookAt b.lastBookAt
  tradeCount : a.tradeCount = b.tradeCount
  bookCount : a.bookCount = b.bookCount
  invalidBookCount : a.invalidBookCount = b.invalidBookCount
  medianSpreadBps : OptionEquals a.medianSpreadBps b.medianSpreadBps
  volumePowerState : a.volumePowerState = b.volumePowerState
  volumePower : OptionEquals a.volumePower b.volumePower
  buyVolumeDelta : a.buyVolumeDelta = b.buyVolumeDelta
  sellVolumeDelta : a.sellVolumeDelta = b.sellVolumeDelta
  priceChange : OptionEquals a.priceChange b.priceChange
  lastPrice : OptionEquals a.lastPrice b.lastPrice
  sessionVwap : OptionEquals a.sessionVwap b.sessionVwap
  bestBid : OptionEquals a.bestBid b.bestBid
  bestAsk : OptionEquals a.bestAsk b.bestAsk
  droppedFrames : a.droppedFrames = b.droppedFrames
  resets : a.resets = b.resets
  lastResetReason : a.lastResetReason = b.lastResetReason
  bookDepth : List.Forall₂ LevelFields.Equals a.bookDepth b.bookDepth
  totalBidSize : a.totalBidSize = b.totalBidSize
  totalAskSize : a.totalAskSize = b.totalAskSize

def Finite (d : Option DecimalValue) : Prop := ∀ value ∈ d, ∃ n, value = .finite n

/-- The zone gives the time one offset, whatever its fold, and a moment in UTC that a
`datetime` can hold. -/
def Timestamp.Steady (t : Timestamp) : Prop :=
  ∃ offset utc, t.utcoffset t.fold = some offset ∧ t.utcoffset (!t.fold) = some offset ∧
    t.localTime.minus offset = .ok utc

def Zoned (value : Option Timestamp) : Prop := ∀ t ∈ value, t.Steady

def Convertible (size : Option ℤ) : Prop :=
  ∀ n ∈ size, (Nat.toDigits 10 n.natAbs).length ≤ intMaxStrDigits

structure LevelFields.Storable (level : LevelFields) : Prop where
  bid : level.bid ≠ some .nan
  ask : level.ask ≠ some .nan
  bidSize : Convertible level.bidSize
  askSize : Convertible level.askSize

structure SnapshotFields.Storable (s : SnapshotFields) : Prop where
  symbol : s.symbol ≠ ""
  asOf : Zoned (some s.asOf)
  coverageStartedAt : Zoned s.coverageStartedAt
  lastTradeAt : Zoned s.lastTradeAt
  lastBookAt : Zoned s.lastBookAt
  medianSpreadBps : Finite s.medianSpreadBps
  volumePower : Finite s.volumePower
  priceChange : Finite s.priceChange
  lastPrice : Finite s.lastPrice
  sessionVwap : Finite s.sessionVwap
  bestBid : Finite s.bestBid
  bestAsk : Finite s.bestAsk
  bookDepth : ∀ level ∈ s.bookDepth, level.Storable

structure Reads (payload : Json) (s : SnapshotFields) : Prop where
  schema : ((payload.get? "schemaVersion").bind Json.str?) = some realtimeTapeSchemaVersion
  symbol : symbolField payload = .ok s.symbol
  sessionDate : ∃ text, sessionText payload = .ok text ∧ dateOf text = .ok s.sessionDate
  lastResetReason : resetReasonField payload = .ok s.lastResetReason
  asOf : readTime ((payload.get? "asOf").getD .null) "asOf" = .ok s.asOf
  bookDepth : depthField payload = .ok s.bookDepth
  coverageStartedAt : timeField payload "coverageStartedAt" = .ok s.coverageStartedAt
  lastTradeAt : timeField payload "lastTradeAt" = .ok s.lastTradeAt
  lastBookAt : timeField payload "lastBookAt" = .ok s.lastBookAt
  tradeCount : intField payload "tradeCount" = .ok s.tradeCount
  bookCount : intField payload "bookCount" = .ok s.bookCount
  invalidBookCount : intField payload "invalidBookCount" = .ok s.invalidBookCount
  medianSpreadBps : decimalField payload "medianSpreadBps" = .ok s.medianSpreadBps
  volumePowerState : VolumePowerState.ofText
    ((payload.get? "volumePowerState").getD .null).text = .ok s.volumePowerState
  volumePower : decimalField payload "volumePower" = .ok s.volumePower
  buyVolumeDelta : optionalIntField payload "buyVolumeDelta" = .ok s.buyVolumeDelta
  sellVolumeDelta : optionalIntField payload "sellVolumeDelta" = .ok s.sellVolumeDelta
  priceChange : decimalField payload "priceChange" = .ok s.priceChange
  lastPrice : decimalField payload "lastPrice" = .ok s.lastPrice
  sessionVwap : decimalField payload "sessionVwap" = .ok s.sessionVwap
  bestBid : decimalField payload "bestBid" = .ok s.bestBid
  bestAsk : decimalField payload "bestAsk" = .ok s.bestAsk
  droppedFrames : intField payload "droppedFrames" = .ok s.droppedFrames
  resets : intField payload "resets" = .ok s.resets
  totalBidSize : optionalIntField payload "totalBidSize" = .ok s.totalBidSize
  totalAskSize : optionalIntField payload "totalAskSize" = .ok s.totalAskSize

theorem fromJson_of_reads (h : Reads payload s) : SnapshotFields.fromJson payload = .ok s := by
  obtain ⟨text, htext, hdate⟩ := h.sessionDate
  have hschema : ¬ ((payload.get? "schemaVersion").bind Json.str?) ≠
      some realtimeTapeSchemaVersion := not_not.mpr h.schema
  simp only [SnapshotFields.fromJson, raiseIf, if_neg hschema, h.symbol, htext,
    h.lastResetReason, h.asOf, h.bookDepth, hdate, h.coverageStartedAt, h.lastTradeAt,
    h.lastBookAt, h.tradeCount, h.bookCount, h.invalidBookCount, h.medianSpreadBps,
    h.volumePowerState, h.volumePower, h.buyVolumeDelta, h.sellVolumeDelta, h.priceChange,
    h.lastPrice, h.sessionVwap, h.bestBid, h.bestAsk, h.droppedFrames, h.resets, h.totalBidSize,
    h.totalAskSize, ok_bind]
  rfl

theorem reads_of_fromJson (h : SnapshotFields.fromJson payload = .ok s) : Reads payload s := by
  obtain ⟨hschema, h⟩ := raiseIf_bind_ok.mp h
  obtain ⟨symbol, hsymbol, h⟩ := bind_ok_iff.mp h
  obtain ⟨sessionRaw, hsessionRaw, h⟩ := bind_ok_iff.mp h
  obtain ⟨lastResetReason, hlastResetReason, h⟩ := bind_ok_iff.mp h
  obtain ⟨asOf, hasOf, h⟩ := bind_ok_iff.mp h
  obtain ⟨bookDepth, hbookDepth, h⟩ := bind_ok_iff.mp h
  obtain ⟨sessionDate, hsessionDate, h⟩ := bind_ok_iff.mp h
  obtain ⟨coverageStartedAt, hcoverageStartedAt, h⟩ := bind_ok_iff.mp h
  obtain ⟨lastTradeAt, hlastTradeAt, h⟩ := bind_ok_iff.mp h
  obtain ⟨lastBookAt, hlastBookAt, h⟩ := bind_ok_iff.mp h
  obtain ⟨tradeCount, htradeCount, h⟩ := bind_ok_iff.mp h
  obtain ⟨bookCount, hbookCount, h⟩ := bind_ok_iff.mp h
  obtain ⟨invalidBookCount, hinvalidBookCount, h⟩ := bind_ok_iff.mp h
  obtain ⟨medianSpreadBps, hmedianSpreadBps, h⟩ := bind_ok_iff.mp h
  obtain ⟨volumePowerState, hvolumePowerState, h⟩ := bind_ok_iff.mp h
  obtain ⟨volumePower, hvolumePower, h⟩ := bind_ok_iff.mp h
  obtain ⟨buyVolumeDelta, hbuyVolumeDelta, h⟩ := bind_ok_iff.mp h
  obtain ⟨sellVolumeDelta, hsellVolumeDelta, h⟩ := bind_ok_iff.mp h
  obtain ⟨priceChange, hpriceChange, h⟩ := bind_ok_iff.mp h
  obtain ⟨lastPrice, hlastPrice, h⟩ := bind_ok_iff.mp h
  obtain ⟨sessionVwap, hsessionVwap, h⟩ := bind_ok_iff.mp h
  obtain ⟨bestBid, hbestBid, h⟩ := bind_ok_iff.mp h
  obtain ⟨bestAsk, hbestAsk, h⟩ := bind_ok_iff.mp h
  obtain ⟨droppedFrames, hdroppedFrames, h⟩ := bind_ok_iff.mp h
  obtain ⟨resets, hresets, h⟩ := bind_ok_iff.mp h
  obtain ⟨totalBidSize, htotalBidSize, h⟩ := bind_ok_iff.mp h
  obtain ⟨totalAskSize, htotalAskSize, h⟩ := bind_ok_iff.mp h
  cases h
  exact {
    schema := not_not.mp hschema
    symbol := hsymbol
    sessionDate := ⟨sessionRaw, hsessionRaw, hsessionDate⟩
    lastResetReason := hlastResetReason
    asOf := hasOf
    bookDepth := hbookDepth
    coverageStartedAt := hcoverageStartedAt
    lastTradeAt := hlastTradeAt
    lastBookAt := hlastBookAt
    tradeCount := htradeCount
    bookCount := hbookCount
    invalidBookCount := hinvalidBookCount
    medianSpreadBps := hmedianSpreadBps
    volumePowerState := hvolumePowerState
    volumePower := hvolumePower
    buyVolumeDelta := hbuyVolumeDelta
    sellVolumeDelta := hsellVolumeDelta
    priceChange := hpriceChange
    lastPrice := hlastPrice
    sessionVwap := hsessionVwap
    bestBid := hbestBid
    bestAsk := hbestAsk
    droppedFrames := hdroppedFrames
    resets := hresets
    totalBidSize := htotalBidSize
    totalAskSize := htotalAskSize }

section Values

variable {value : Option Timestamp} {json : Json} {o : Option DecimalValue} {n : Option ℤ}

theorem zoned_none : Zoned none := by
  intro moment hmoment
  cases hmoment

theorem finite_none : Finite none := by
  intro value hvalue
  cases hvalue

theorem Timestamp.astimezone_steady (machine : Machine) {t : Timestamp} (h : t.Steady) :
    ∃ utc, t.astimezone machine = .ok utc := by
  obtain ⟨offset, utc, hoffset, -, hutc⟩ := h
  unfold astimezone
  rw [hoffset]
  split
  · exact ⟨_, rfl⟩
  next heq _ =>
    cases heq
    exact ⟨utc, hutc⟩
  next hnone _ => cases hnone

/-- A time that was moved to UTC equals what is read back exactly when it is steady. -/
theorem Timestamp.inUtc_equals {t : Timestamp} {utc : Moment}
    (h : t.astimezone machine = .ok utc) : (inUtc utc).Equals t ↔ t.Steady := by
  obtain ⟨localTime, fold, tzinfo⟩ := t
  have hread (fold : Bool) : (inUtc utc).utcoffset fold = some .zero := rfl
  cases tzinfo with
  | none => simp [Equals, Steady, sameZone, inUtc, utcoffset]
  | some zone =>
    cases zone with
    | utc =>
      cases h
      simp [Equals, Steady, sameZone, inUtc, utcoffset, Moment.minus_zero]
    | other object offsets =>
      have hdifferent : ¬ (inUtc utc).sameZone ⟨localTime, fold, some (.other object offsets)⟩ =
          true := by simp [sameZone, inUtc]
      rw [Equals, if_neg hdifferent, hread, hread]
      simp only [astimezone, utcoffset, Steady] at h ⊢
      cases hoffset : offsets localTime fold with
      | none => simp
      | some offset =>
        rw [hoffset] at h
        have hmoved := Moment.micros_minus h
        have hzero : UtcOffset.zero = offset → utc = localTime := by
          rintro rfl
          exact (Except.ok.inj ((localTime.minus_zero).symm.trans h)).symm
        have hmicros : utc.micros - UtcOffset.zero.val = localTime.micros - offset.val := by
          rw [hmoved]
          exact sub_zero _
        constructor
        · rintro ⟨-, hfold, -⟩
          exact ⟨offset, utc, rfl, hfold, h⟩
        · rintro ⟨stable, _, hsame, hfold, -⟩
          obtain rfl : offset = stable := Option.some.inj hsame
          exact ⟨trivial, hfold, hzero, fun _ => hmicros⟩

theorem timeJson_zoned (machine : Machine) (h : Zoned value) :
    ∃ json, timeJson machine value = .ok json := by
  rcases value with _ | t
  · exact ⟨_, rfl⟩
  · obtain ⟨utc, hutc⟩ := Timestamp.astimezone_steady machine (h t rfl)
    exact ⟨_, by rw [timeJson, hutc]; rfl⟩

theorem readTime_isoformat (utc : Moment) (key : String) :
    readTime (.str (String.ofList utc.isoformat)) key = .ok (.inUtc utc) := by
  simp only [readTime, Json.str?, String.toList_ofList, Moment.fromIsoformat_isoformat]

theorem timeJson_cases {t : Timestamp} (h : timeJson machine (some t) = .ok json) :
    ∃ utc : Moment, json = .str (String.ofList utc.isoformat) ∧
      ((Timestamp.inUtc utc).Equals t ↔ Zoned (some t)) := by
  obtain ⟨utc, hutc, h⟩ := bind_ok_iff.mp h
  refine ⟨utc, (Except.ok.inj h).symm, ?_⟩
  rw [Timestamp.inUtc_equals hutc]
  simp [Zoned]

theorem readTime_timeJson {t : Timestamp} (h : timeJson machine (some t) = .ok json)
    (key : String) :
    ∃ read, readTime json key = .ok read ∧ (read.Equals t ↔ Zoned (some t)) := by
  obtain ⟨utc, rfl, hiff⟩ := timeJson_cases h
  exact ⟨_, readTime_isoformat utc key, hiff⟩

theorem timeField_timeJson (payload : Json) (key : String)
    (h : timeJson machine value = .ok json) (hget : payload.get? key = some json) :
    ∃ read, timeField payload key = .ok read ∧ (TimeEquals read value ↔ Zoned value) := by
  cases value with
  | none =>
    cases h
    refine ⟨none, ?_, fun _ => zoned_none, fun _ => trivial⟩
    rw [timeField, hget, Option.getD_some]
  | some t =>
    obtain ⟨utc, rfl, hiff⟩ := timeJson_cases h
    refine ⟨some (.inUtc utc), ?_, hiff⟩
    rw [timeField, hget]
    exact congrArg (some <$> ·) (readTime_isoformat utc key)

theorem decimalOf_infinite (negative : Bool) :
    decimalOf (plainText (.infinite negative)) = some (.infinite negative) := by
  cases negative <;> decide +kernel

theorem decimalOf_nan : decimalOf (plainText .nan) = some .nan := by decide +kernel

theorem decimalField_plainJson (payload : Json) (key : String)
    (hget : payload.get? key = some (plainJson o)) :
    (∃ read, decimalField payload key = .ok read ∧ OptionEquals read o) ↔ Finite o := by
  unfold decimalField
  rw [hget, Option.getD_some]
  rcases o with _ | ⟨n | negative | _⟩
  · exact ⟨fun _ => finite_none, fun _ => ⟨none, rfl, trivial⟩⟩
  · constructor
    · intro _ value hvalue
      exact ⟨n, (Option.some.inj hvalue).symm⟩
    · intro _
      obtain ⟨m, hread, hvalue⟩ := decimalOf_plainText n
      refine ⟨some (.finite m), ?_, hvalue⟩
      simp only [plainJson, Json.str?, hread]
  · constructor
    · rintro ⟨read, hread, -⟩
      simp only [plainJson, Json.str?, decimalOf_infinite] at hread
      cases hread
    · intro hfinite
      obtain ⟨n, hn⟩ := hfinite _ rfl
      cases hn
  · constructor
    · rintro ⟨read, hread, -⟩
      simp only [plainJson, Json.str?, decimalOf_nan] at hread
      cases hread
    · intro hfinite
      obtain ⟨n, hn⟩ := hfinite _ rfl
      cases hn

theorem optionalIntField_intJson (hget : payload.get? key = some (intJson n)) :
    optionalIntField payload key = .ok n := by
  rw [optionalIntField, hget]
  cases n <;> rfl

theorem intField_int {n : ℤ} (hget : payload.get? key = some (.int n)) :
    intField payload key = .ok n := by
  rw [intField, hget]
  rfl

@[simp] theorem VolumePowerState.ofText_value (state : VolumePowerState) :
    VolumePowerState.ofText state.value = .ok state := by
  cases state <;> rfl

end Values

section Levels

variable {level read : LevelFields} {item : Json} {o : Option DecimalValue} {size : Option ℤ}

theorem OptionEquals.refl_iff : OptionEquals o o ↔ o ≠ some .nan := by
  rcases o with _ | ⟨n | negative | _⟩ <;> simp [OptionEquals, DecimalValue.Equals]

/-- The price of a level is read back as it was, even what is not a number. -/
theorem levelDecimal_decimalJson (hget : item.get? key = some (decimalJson o)) :
    levelDecimal item key = .ok o := by
  rw [levelDecimal, hget]
  rcases o with _ | ⟨n | negative | _⟩
  · rfl
  · simp only [decimalJson, Json.text, decimalOf_decimalText]
  · have hread : decimalOf (decimalText (.infinite negative)) = some (.infinite negative) :=
      decimalOf_infinite negative
    simp only [decimalJson, Json.text, hread]
  · have hread : decimalOf (decimalText .nan) = some .nan := decimalOf_nan
    simp only [decimalJson, Json.text, hread]

theorem levelSize_intJson (hget : item.get? key = some (intJson size)) {n : Option ℤ} :
    levelSize item key = .ok n ↔ Convertible size ∧ n = size := by
  rw [levelSize, hget]
  cases size with
  | none =>
    constructor
    · intro h
      exact ⟨(fun _ hn => nomatch hn), (Except.ok.inj h).symm⟩
    · rintro ⟨-, rfl⟩
      rfl
  | some m =>
    simp only [intJson, intOf, Convertible, Option.mem_some_iff, forall_eq']
    split
    next hlong =>
      constructor
      · intro h
        cases h
      · rintro ⟨hshort, -⟩
        exact absurd hlong (not_lt.mpr hshort)
    next hshort =>
      rw [map_ok, Except.ok.injEq, eq_comm]
      exact ⟨fun h => ⟨not_lt.mp hshort, h⟩, fun h => h.2⟩

theorem LevelFields.fromJson_asJson :
    LevelFields.fromJson level.asJson = .ok read ↔
      (Convertible level.bidSize ∧ Convertible level.askSize) ∧ read = level := by
  have hbid : levelDecimal level.asJson "bid" = .ok level.bid := levelDecimal_decimalJson rfl
  have hask : levelDecimal level.asJson "ask" = .ok level.ask := levelDecimal_decimalJson rfl
  have hbidSize (n : Option ℤ) : levelSize level.asJson "bidSize" = .ok n ↔ _ :=
    levelSize_intJson rfl
  have haskSize (n : Option ℤ) : levelSize level.asJson "askSize" = .ok n ↔ _ :=
    levelSize_intJson rfl
  unfold LevelFields.fromJson
  rw [hbid, hask, ok_bind, ok_bind]
  constructor
  · intro h
    obtain ⟨bidSize, hread, h⟩ := bind_ok_iff.mp h
    obtain ⟨hbid, rfl⟩ := (hbidSize bidSize).mp hread
    obtain ⟨askSize, hread, h⟩ := bind_ok_iff.mp h
    obtain ⟨hask, rfl⟩ := (haskSize askSize).mp hread
    exact ⟨⟨hbid, hask⟩, (Except.ok.inj h).symm⟩
  · rintro ⟨⟨hbid, hask⟩, rfl⟩
    rw [(hbidSize _).mpr ⟨hbid, rfl⟩, (haskSize _).mpr ⟨hask, rfl⟩]
    rfl

variable {levels results : List LevelFields}

theorem mapM_fromJson :
    (levels.map (·.asJson)).mapM LevelFields.fromJson = .ok results ↔
      (∀ level ∈ levels, Convertible level.bidSize ∧ Convertible level.askSize) ∧
        results = levels := by
  induction levels generalizing results with
  | nil =>
    constructor
    · intro h
      exact ⟨List.forall_mem_nil _, (Except.ok.inj h).symm⟩
    · rintro ⟨-, rfl⟩
      rfl
  | cons level rest ih =>
    rw [List.map_cons, List.mapM_cons]
    constructor
    · intro h
      obtain ⟨first, hfirst, h⟩ := bind_ok_iff.mp h
      obtain ⟨later, hlater, h⟩ := bind_ok_iff.mp h
      cases h
      obtain ⟨hsizes, rfl⟩ := LevelFields.fromJson_asJson.mp hfirst
      obtain ⟨hrest, rfl⟩ := ih.mp hlater
      exact ⟨List.forall_mem_cons.mpr ⟨hsizes, hrest⟩, rfl⟩
    · rintro ⟨hall, rfl⟩
      obtain ⟨hsizes, hrest⟩ := List.forall_mem_cons.mp hall
      rw [LevelFields.fromJson_asJson.mpr ⟨hsizes, rfl⟩, ih.mpr ⟨hrest, rfl⟩]
      rfl

theorem depthField_asJson (hget : payload.get? "bookDepth" = some (.arr (levels.map (·.asJson)))) :
    depthField payload = .ok results ↔
      (∀ level ∈ levels, Convertible level.bidSize ∧ Convertible level.askSize) ∧
        results = levels := by
  have hread : depthField payload = (levels.map (·.asJson)).mapM LevelFields.fromJson := by
    rw [depthField, hget]
    exact if_pos (by simp [LevelFields.asJson])
  rw [hread]
  exact mapM_fromJson

theorem LevelFields.equals_self : level.Equals level ↔ level.bid ≠ some .nan ∧
    level.ask ≠ some .nan := by
  constructor
  · intro h
    exact ⟨OptionEquals.refl_iff.mp h.bid, OptionEquals.refl_iff.mp h.ask⟩
  · rintro ⟨hbid, hask⟩
    exact ⟨OptionEquals.refl_iff.mpr hbid, OptionEquals.refl_iff.mpr hask, rfl, rfl⟩

theorem depthField_storable (payload : Json) {levels : List LevelFields}
    (hget : payload.get? "bookDepth" = some (.arr (levels.map (·.asJson)))) :
    (∃ results, depthField payload = .ok results ∧
      List.Forall₂ LevelFields.Equals results levels) ↔ ∀ level ∈ levels, level.Storable := by
  constructor
  · rintro ⟨results, hread, hequal⟩ level hlevel
    obtain ⟨hsizes, rfl⟩ := (depthField_asJson hget).mp hread
    obtain ⟨hbidSize, haskSize⟩ := hsizes level hlevel
    obtain ⟨hbid, hask⟩ := LevelFields.equals_self.mp (List.forall₂_same.mp hequal level hlevel)
    exact ⟨hbid, hask, hbidSize, haskSize⟩
  · intro h
    refine ⟨levels, (depthField_asJson hget).mpr ⟨?_, rfl⟩, List.forall₂_same.mpr ?_⟩
    · intro level hlevel
      exact ⟨(h level hlevel).bidSize, (h level hlevel).askSize⟩
    · intro level hlevel
      exact LevelFields.equals_self.mpr ⟨(h level hlevel).bid, (h level hlevel).ask⟩

end Levels

theorem symbolField_payload {symbol : String}
    (hget : payload.get? "symbol" = some (.str symbol)) {read : String} :
    symbolField payload = .ok read ↔ symbol ≠ "" ∧ read = symbol := by
  rw [symbolField, hget]
  by_cases hempty : symbol = "" <;> simp [Json.str?, hempty, eq_comm]

theorem resetReasonField_payload {reason : Option String}
    (hget : payload.get? "lastResetReason" =
      some (match reason with | none => .null | some text => .str text)) :
    resetReasonField payload = .ok reason := by
  rw [resetReasonField, hget]
  cases reason <;> rfl

theorem dateOf_isoformat (date : Date) : dateOf (String.ofList date.isoformat) = .ok date := by
  rw [dateOf, String.toList_ofList, Date.fromIsoformat_isoformat]

theorem asJson_ok_iff {json : Json} : s.asJson machine = .ok json ↔
    ∃ asOf coverage trade book, timeJson machine (some s.asOf) = .ok asOf ∧
      timeJson machine s.coverageStartedAt = .ok coverage ∧
      timeJson machine s.lastTradeAt = .ok trade ∧ timeJson machine s.lastBookAt = .ok book ∧
      json = s.payload machine asOf coverage trade book := by
  constructor
  · intro h
    obtain ⟨asOf, hasOf, h⟩ := bind_ok_iff.mp h
    obtain ⟨coverage, hcoverage, h⟩ := bind_ok_iff.mp h
    obtain ⟨trade, htrade, h⟩ := bind_ok_iff.mp h
    obtain ⟨book, hbook, h⟩ := bind_ok_iff.mp h
    exact ⟨asOf, coverage, trade, book, hasOf, hcoverage, htrade, hbook, (Except.ok.inj h).symm⟩
  · rintro ⟨asOf, coverage, trade, book, hasOf, hcoverage, htrade, hbook, rfl⟩
    rw [SnapshotFields.asJson, hasOf, hcoverage, htrade, hbook]
    rfl

theorem storable_of_roundTrip {json : Json} (hjson : s.asJson machine = .ok json)
    (hread : SnapshotFields.fromJson json = .ok t) (hequal : t.Equals s) : s.Storable := by
  obtain ⟨asOf, coverage, trade, book, hasOf, hcoverage, htrade, hbook, rfl⟩ :=
    asJson_ok_iff.mp hjson
  let payload := s.payload machine asOf coverage trade book
  have h : Reads payload t := reads_of_fromJson hread
  have hsymbol := (symbolField_payload rfl).mp h.symbol
  obtain ⟨asOfRead, hasOfRead, hasOfIff⟩ := readTime_timeJson hasOf "asOf"
  cases hasOfRead.symm.trans h.asOf
  obtain ⟨coverageRead, hcoverageRead, hcoverageIff⟩ :=
    timeField_timeJson payload "coverageStartedAt" hcoverage rfl
  cases hcoverageRead.symm.trans h.coverageStartedAt
  obtain ⟨tradeRead, htradeRead, htradeIff⟩ :=
    timeField_timeJson payload "lastTradeAt" htrade rfl
  cases htradeRead.symm.trans h.lastTradeAt
  obtain ⟨bookRead, hbookRead, hbookIff⟩ := timeField_timeJson payload "lastBookAt" hbook rfl
  cases hbookRead.symm.trans h.lastBookAt
  exact {
    symbol := hsymbol.1
    asOf := hasOfIff.mp hequal.asOf
    coverageStartedAt := hcoverageIff.mp hequal.coverageStartedAt
    lastTradeAt := htradeIff.mp hequal.lastTradeAt
    lastBookAt := hbookIff.mp hequal.lastBookAt
    medianSpreadBps :=
      (decimalField_plainJson payload "medianSpreadBps" rfl).mp
        ⟨_, h.medianSpreadBps, hequal.medianSpreadBps⟩
    volumePower := (decimalField_plainJson payload "volumePower" rfl).mp
      ⟨_, h.volumePower, hequal.volumePower⟩
    priceChange := (decimalField_plainJson payload "priceChange" rfl).mp
      ⟨_, h.priceChange, hequal.priceChange⟩
    lastPrice := (decimalField_plainJson payload "lastPrice" rfl).mp
      ⟨_, h.lastPrice, hequal.lastPrice⟩
    sessionVwap := (decimalField_plainJson payload "sessionVwap" rfl).mp
      ⟨_, h.sessionVwap, hequal.sessionVwap⟩
    bestBid := (decimalField_plainJson payload "bestBid" rfl).mp ⟨_, h.bestBid, hequal.bestBid⟩
    bestAsk := (decimalField_plainJson payload "bestAsk" rfl).mp ⟨_, h.bestAsk, hequal.bestAsk⟩
    bookDepth := (depthField_storable payload rfl).mp ⟨_, h.bookDepth, hequal.bookDepth⟩ }

/-- A storable snapshot is read back equal. -/
theorem roundTrip_of_storable (h : s.Storable) (machine : Machine) :
    ∃ json t, s.asJson machine = .ok json ∧ SnapshotFields.fromJson json = .ok t ∧
      t.Equals s := by
  obtain ⟨asOf, hasOf⟩ := timeJson_zoned machine h.asOf
  obtain ⟨coverage, hcoverage⟩ := timeJson_zoned machine h.coverageStartedAt
  obtain ⟨trade, htrade⟩ := timeJson_zoned machine h.lastTradeAt
  obtain ⟨book, hbook⟩ := timeJson_zoned machine h.lastBookAt
  let payload := s.payload machine asOf coverage trade book
  obtain ⟨asOfRead, hasOfRead, hasOfIff⟩ := readTime_timeJson hasOf "asOf"
  obtain ⟨coverageRead, hcoverageRead, hcoverageIff⟩ :=
    timeField_timeJson payload "coverageStartedAt" hcoverage rfl
  obtain ⟨tradeRead, htradeRead, htradeIff⟩ :=
    timeField_timeJson payload "lastTradeAt" htrade rfl
  obtain ⟨bookRead, hbookRead, hbookIff⟩ :=
    timeField_timeJson payload "lastBookAt" hbook rfl
  obtain ⟨spread, hspread, hspreadEq⟩ :=
    (decimalField_plainJson payload "medianSpreadBps" rfl).mpr
      h.medianSpreadBps
  obtain ⟨power, hpower, hpowerEq⟩ :=
    (decimalField_plainJson payload "volumePower" rfl).mpr h.volumePower
  obtain ⟨change, hchange, hchangeEq⟩ :=
    (decimalField_plainJson payload "priceChange" rfl).mpr h.priceChange
  obtain ⟨last, hlast, hlastEq⟩ :=
    (decimalField_plainJson payload "lastPrice" rfl).mpr h.lastPrice
  obtain ⟨vwap, hvwap, hvwapEq⟩ :=
    (decimalField_plainJson payload "sessionVwap" rfl).mpr h.sessionVwap
  obtain ⟨bid, hbid, hbidEq⟩ :=
    (decimalField_plainJson payload "bestBid" rfl).mpr h.bestBid
  obtain ⟨ask, hask, haskEq⟩ :=
    (decimalField_plainJson payload "bestAsk" rfl).mpr h.bestAsk
  obtain ⟨depth, hdepth, hdepthEq⟩ :=
    (depthField_storable payload rfl).mpr h.bookDepth
  let read : SnapshotFields := { s with
    asOf := asOfRead, coverageStartedAt := coverageRead, lastTradeAt := tradeRead
    lastBookAt := bookRead
    medianSpreadBps := spread, volumePower := power, priceChange := change, lastPrice := last
    sessionVwap := vwap, bestBid := bid, bestAsk := ask, bookDepth := depth }
  have hreads : Reads payload read := {
    schema := rfl
    symbol := (symbolField_payload rfl).mpr ⟨h.symbol, rfl⟩
    sessionDate := ⟨_, rfl, dateOf_isoformat s.sessionDate⟩
    lastResetReason := resetReasonField_payload rfl
    asOf := hasOfRead
    bookDepth := hdepth
    coverageStartedAt := hcoverageRead
    lastTradeAt := htradeRead
    lastBookAt := hbookRead
    tradeCount := intField_int rfl
    bookCount := intField_int rfl
    invalidBookCount := intField_int rfl
    medianSpreadBps := hspread
    volumePowerState := VolumePowerState.ofText_value s.volumePowerState
    volumePower := hpower
    buyVolumeDelta := optionalIntField_intJson rfl
    sellVolumeDelta := optionalIntField_intJson rfl
    priceChange := hchange
    lastPrice := hlast
    sessionVwap := hvwap
    bestBid := hbid
    bestAsk := hask
    droppedFrames := intField_int rfl
    resets := intField_int rfl
    totalBidSize := optionalIntField_intJson rfl
    totalAskSize := optionalIntField_intJson rfl }
  refine ⟨payload, read, ?_, fromJson_of_reads hreads, ?_⟩
  · exact asJson_ok_iff.mpr ⟨asOf, coverage, trade, book, hasOf, hcoverage, htrade, hbook, rfl⟩
  · exact ⟨rfl, hasOfIff.mpr h.asOf, rfl, hcoverageIff.mpr h.coverageStartedAt,
      htradeIff.mpr h.lastTradeAt, hbookIff.mpr h.lastBookAt, rfl, rfl, rfl, hspreadEq, rfl,
        hpowerEq, rfl, rfl,
      hchangeEq, hlastEq, hvwapEq, hbidEq, haskEq, rfl, rfl, rfl, hdepthEq, rfl, rfl⟩

def unnamed : SnapshotFields where
  symbol := ""
  asOf := .inUtc ⟨⟨2026, 3, 2, by decide⟩, 0, 30, 0, 0, by decide⟩
  sessionDate := ⟨2026, 3, 2, by decide⟩
  coverageStartedAt := none
  lastTradeAt := none
  lastBookAt := none
  tradeCount := 0
  bookCount := 0
  invalidBookCount := 0
  medianSpreadBps := none
  volumePowerState := .unavailable
  volumePower := none
  buyVolumeDelta := none
  sellVolumeDelta := none
  priceChange := none
  lastPrice := none
  sessionVwap := none
  bestBid := none
  bestAsk := none
  droppedFrames := 0
  resets := 0
  lastResetReason := none

/-- The first moment of a `datetime`, in a zone nine hours ahead of UTC. -/
def firstMoment : Timestamp where
  localTime := ⟨dateMin, 0, 0, 0, 0, by decide⟩
  tzinfo := some (.other 0 fun _ _ => some ⟨32400000000, by decide⟩)

/-- Half past one on the night when the clocks of a zone go back from four hours behind UTC
to five. -/
def doubledHour : Timestamp where
  localTime := ⟨⟨2026, 11, 1, by decide⟩, 1, 30, 0, 0, by decide⟩
  tzinfo := some (.other 1 fun _ fold =>
    some (if fold then ⟨-18000000000, by decide⟩ else ⟨-14400000000, by decide⟩))

end KAssetTrader.Tape
