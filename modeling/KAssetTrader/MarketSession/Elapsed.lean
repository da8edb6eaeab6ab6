import KAssetTrader.Library.Window
import KAssetTrader.Recommendation.Row

/-!
The regular sessions of an exchange and what has opened since the session of a price. The
exchange library answers for single dates and for ranges of dates, and every answer it cannot
give counts as no session; dates are numbers of days, and texts are taken to upper case by
the interpreter, so `upper` is left open. The sessions of all days are spans in the order of
their dates, and the search looks at those of a few weeks around a moment. When it finds the
owner of the price, and not as its first session, everything between the owner and the moment
lies inside it.
-/

namespace KAssetTrader.MarketSession

open Checked
open Unicode (strip)

/-- A date, counted in days from the first of January 1970. -/
abbrev Day := ℤ

def dayLength : ℤ := 86400 * 1000000

/-- `moment.date()`, of a moment in UTC. -/
def dateOf (moment : Instant) : Day := moment / dayLength

/-- The keys of the calendar, `Market`. -/
inductive CalendarMarket where
  | kr
  | us

/-- A calendar of the exchange library; `none` is a query that raises. -/
structure ExchangeCalendar where
  isSession : Day → Option Bool
  sessionOpen : Day → Option Instant
  sessionClose : Day → Option Instant
  sessionsInRange : Day → Day → Option (List Day)

variable (calendars : CalendarMarket → ExchangeCalendar)

/-- `_ADDITIONAL_CLOSED_DAYS`: five days of 2025 and 2026 on which the Korean exchange is
closed, and the library has a session. -/
def additionalClosedDays : CalendarMarket → List Day
  | .kr => [20453, 20607, 20651, 20682, 20818]
  | .us => []

def regularSessionBounds (market : CalendarMarket) (day : Day) : Option (Instant × Instant) :=
  if day ∈ additionalClosedDays market then none
  else match (calendars market).isSession day with
    | some true => do
        let opensAt ← (calendars market).sessionOpen day
        let closesAt ← (calendars market).sessionClose day
        return (opensAt, closesAt)
    | _ => none

def tradingSessionsInRange (market : CalendarMarket) (first last : Day) : List Day :=
  if last < first then []
  else match (calendars market).sessionsInRange first last with
    | none => []
    | some days => days.filter fun day => day ∉ additionalClosedDays market

inductive MarketSessionError where
  | unsupportedMarket (market : String)
  | naive (field : String)
  deriving DecidableEq

structure RegularSession where
  market : CalendarMarket
  sessionDate : Day
  opensAt : Instant
  closesAt : Instant

def calendarMarket (upper : String → String) (market : String) :
    Except MarketSessionError CalendarMarket :=
  let label := upper (strip market)
  if label = "KRX" ∨ label = "KR" then .ok .kr
  else if label = "US" then .ok .us
  else .error (.unsupportedMarket market)

def awareUtc (value : Datetime) (fieldName : String) : Except MarketSessionError Instant :=
  match value with
  | .naive _ => .error (.naive fieldName)
  | .aware instant => .ok instant

section Sessions

def regularSession (market : CalendarMarket) (day : Day) : Option RegularSession :=
  (regularSessionBounds calendars market day).map fun (opensAt, closesAt) =>
    { market, sessionDate := day, opensAt, closesAt }

def sessionsWithin (searchDays : ℤ) (market : CalendarMarket) (moment : Instant) :
    List RegularSession :=
  ((tradingSessionsInRange calendars market (dateOf moment - searchDays)
    (dateOf moment + searchDays)).filterMap (regularSession calendars market)).insertionSort
      fun a b => a.opensAt ≤ b.opensAt

def sessionSearchDays : ℤ := 12

def sessionsAround (market : CalendarMarket) (moment : Instant) : List RegularSession :=
  sessionsWithin calendars sessionSearchDays market moment

/-- The end of `regular_sessions_opened_since`, on the sessions that were looked up. -/
def openedAfterOwner (sessions : List RegularSession) (price moment : Instant) : Option ℕ :=
  match sessions.findIdx? fun session => price < session.closesAt with
  | none => none
  | some owning =>
    if owning = 0 then none
    else some ((sessions.drop (owning + 1)).countP fun session => session.opensAt ≤ moment)

variable (upper : String → String)

def regularSessionsOpenedSince (market : String) (priceAt asOf : Datetime) :
    Except MarketSessionError (Option ℕ) := do
  let resolvedMarket ← calendarMarket upper market
  let price ← awareUtc priceAt "price_at"
  let moment ← awareUtc asOf "as_of"
  if moment ≤ price then return some 0
  else return openedAfterOwner (sessionsAround calendars resolvedMarket moment) price moment

end Sessions

variable {calendars : CalendarMarket → ExchangeCalendar} {market : CalendarMarket}

/-- The answers of a calendar: sessions open before they close, close before the next one
opens, and open no more than a day before the date they are named by; a range of dates is
answered with its sessions in their order. -/
structure Regular (calendars : CalendarMarket → ExchangeCalendar) (market : CalendarMarket) :
    Prop where
  opens_lt : ∀ day bounds, regularSessionBounds calendars market day = some bounds →
    bounds.1 < bounds.2
  disjoint : ∀ day next bounds later, day < next →
    regularSessionBounds calendars market day = some bounds →
    regularSessionBounds calendars market next = some later → bounds.2 ≤ later.1
  near : ∀ day bounds, regularSessionBounds calendars market day = some bounds →
    (day - 1) * dayLength ≤ bounds.1
  increasing : ∀ first last days, (calendars market).sessionsInRange first last = some days →
    days.Pairwise (· < ·)
  listed : ∀ first last days, (calendars market).sessionsInRange first last = some days →
    ∀ day, day ∈ days ↔ (first ≤ day ∧ day ≤ last) ∧ (calendars market).isSession day = some true

def Regular.sessions (h : Regular calendars market) : Spans Day Instant where
  labels := { day | (regularSessionBounds calendars market day).isSome = true }
  opens := fun day => ((regularSessionBounds calendars market day).map Prod.fst).getD 0
  closes := fun day => ((regularSessionBounds calendars market day).map Prod.snd).getD 0
  opens_lt := by
    intro day hday
    obtain ⟨bounds, hbounds⟩ := Option.isSome_iff_exists.mp hday
    simpa [hbounds] using h.opens_lt day bounds hbounds
  disjoint := by
    intro day hday next hnext hlt
    obtain ⟨bounds, hbounds⟩ := Option.isSome_iff_exists.mp hday
    obtain ⟨later, hlater⟩ := Option.isSome_iff_exists.mp hnext
    simpa [hbounds, hlater] using h.disjoint day next bounds later hlt hbounds hlater

theorem lt_next_day (moment : Instant) : moment < (dateOf moment + 1) * dayLength := by
  have hpos : (0 : ℤ) < dayLength := by norm_num [dayLength]
  have hdiv := Int.lt_ediv_add_one_mul_self moment hpos
  simpa [dateOf] using hdiv

theorem isSession_of_bounds {day : Day} {bounds : Instant × Instant}
    (h : regularSessionBounds calendars market day = some bounds) :
    day ∉ additionalClosedDays market ∧ (calendars market).isSession day = some true := by
  unfold regularSessionBounds at h
  split at h
  · cases h
  next hopen =>
    split at h
    next hsession => exact ⟨hopen, hsession⟩
    · cases h

theorem Regular.date_le_of_opened (h : Regular calendars market) {day : Day} {moment : Instant}
    (hday : day ∈ h.sessions.labels) (hopened : h.sessions.opens day ≤ moment) :
    day ≤ dateOf moment + 1 := by
  obtain ⟨bounds, hbounds⟩ := Option.isSome_iff_exists.mp hday
  have hopens : h.sessions.opens day = bounds.1 := by simp [Regular.sessions, hbounds]
  have hpos : (0 : ℤ) < dayLength := by norm_num [dayLength]
  have hscaled : (day - 1) * dayLength < (dateOf moment + 1) * dayLength :=
    calc (day - 1) * dayLength ≤ bounds.1 := h.near day bounds hbounds
      _ ≤ moment := hopens ▸ hopened
      _ < (dateOf moment + 1) * dayLength := lt_next_day moment
  have hless : day - 1 + 1 ≤ dateOf moment + 1 :=
    Int.add_one_le_iff.mpr (lt_of_mul_lt_mul_right hscaled hpos.le)
  linarith only [hless]

section Session

variable {day : Day} {session : RegularSession}

theorem regularSession_date (h : regularSession calendars market day = some session) :
    session.sessionDate = day := by
  obtain ⟨bounds, -, rfl⟩ := Option.map_eq_some_iff.mp h
  rfl

theorem Regular.session_bounds (h : Regular calendars market)
    (hsession : regularSession calendars market day = some session) :
    day ∈ h.sessions.labels ∧ h.sessions.opens day = session.opensAt ∧
      h.sessions.closes day = session.closesAt := by
  obtain ⟨bounds, hbounds, rfl⟩ := Option.map_eq_some_iff.mp hsession
  exact ⟨by simp [Regular.sessions, hbounds], by simp [Regular.sessions, hbounds],
    by simp [Regular.sessions, hbounds]⟩

theorem Regular.session_of_label (h : Regular calendars market) (hday : day ∈ h.sessions.labels) :
    ∃ session, regularSession calendars market day = some session := by
  obtain ⟨bounds, hbounds⟩ := Option.isSome_iff_exists.mp hday
  exact ⟨_, Option.map_eq_some_iff.mpr ⟨bounds, hbounds, rfl⟩⟩

end Session

variable {price moment : Instant}

section Window

variable {searchDays : ℤ}

theorem Regular.window_increasing (h : Regular calendars market) (searchDays : ℤ)
    (moment : Instant) :
    (sessionsWithin calendars searchDays market moment).Pairwise
      fun a b => a.sessionDate < b.sessionDate := by
  have hdays : (tradingSessionsInRange calendars market (dateOf moment - searchDays)
      (dateOf moment + searchDays)).Pairwise (· < ·) := by
    unfold tradingSessionsInRange
    split
    · exact List.Pairwise.nil
    · split
      · exact List.Pairwise.nil
      next days hlisted => exact (h.increasing _ _ days hlisted).filter _
  have hsessions : ((tradingSessionsInRange calendars market (dateOf moment - searchDays)
      (dateOf moment + searchDays)).filterMap (regularSession calendars market)).Pairwise
        fun a b => a.sessionDate < b.sessionDate ∧ a.opensAt ≤ b.opensAt := by
    refine hdays.filterMap _ ?_
    intro day next hlt a ha b hb
    have haday := regularSession_date ha
    have hbday := regularSession_date hb
    obtain ⟨haLabel, haOpens, -⟩ := h.session_bounds ha
    obtain ⟨hbLabel, hbOpens, -⟩ := h.session_bounds hb
    refine ⟨by linarith, ?_⟩
    have hopens := Spans.opens_lt_opens haLabel hbLabel hlt
    linarith
  have hsorted := (hsessions.imp fun hab => hab.2).insertionSort_eq
  unfold sessionsWithin
  rw [hsorted]
  exact hsessions.imp fun hab => hab.1

theorem Regular.window_complete (h : Regular calendars market) (searchDays : ℤ)
    (moment : Instant) :
    sessionsWithin calendars searchDays market moment = [] ∨
      ∀ session, session ∈ sessionsWithin calendars searchDays market moment ↔
        (dateOf moment - searchDays ≤ session.sessionDate ∧
          session.sessionDate ≤ dateOf moment + searchDays) ∧
        regularSession calendars market session.sessionDate = some session := by
  unfold sessionsWithin tradingSessionsInRange
  split
  · exact .inl rfl
  split
  · exact .inl rfl
  next days hlisted =>
  refine .inr fun session => ?_
  rw [List.mem_insertionSort, List.mem_filterMap]
  constructor
  · rintro ⟨day, hday, hsession⟩
    obtain rfl := regularSession_date hsession
    have hmem := (List.mem_filter.mp hday).1
    exact ⟨((h.listed _ _ days hlisted _).mp hmem).1, hsession⟩
  · rintro ⟨hrange, hsession⟩
    refine ⟨session.sessionDate, ?_, hsession⟩
    obtain ⟨bounds, hbounds, -⟩ := Option.map_eq_some_iff.mp hsession
    obtain ⟨hopen, hisSession⟩ := isSession_of_bounds hbounds
    have hmem := (h.listed _ _ days hlisted _).mpr ⟨hrange, hisSession⟩
    exact List.mem_filter.mpr ⟨hmem, by simpa using hopen⟩

variable (h : Regular calendars market)

section Found

variable {owning : ℕ}

theorem index_lt_of_date_lt {window : List RegularSession} {i j : ℕ}
    (hincreasing : window.Pairwise fun a b => a.sessionDate < b.sessionDate)
    (hi : i < window.length) (hj : j < window.length)
    (hdates : window[i].sessionDate < window[j].sessionDate) : i < j := by
  by_contra hge
  rcases (not_lt.mp hge).lt_or_eq with hlater | rfl
  · exact lt_asymm hdates (List.pairwise_iff_getElem.mp hincreasing j i hj hi hlater)
  · exact lt_irrefl _ hdates

include h

theorem Regular.owning_of_found (hpos : owning ≠ 0)
    (hfound : (sessionsWithin calendars searchDays market moment).findIdx?
      (fun session => price < session.closesAt) = some owning) :
    ∃ hlt : owning < (sessionsWithin calendars searchDays market moment).length,
      h.sessions.IsOwning price
        (sessionsWithin calendars searchDays market moment)[owning].sessionDate := by
  rcases h.window_complete searchDays moment with hnone | hcomplete
  · simp [hnone] at hfound
  have hincreasing := h.window_increasing searchDays moment
  generalize sessionsWithin calendars searchDays market moment = window at *
  obtain ⟨hlt, hcloses, hbefore⟩ := List.findIdx?_eq_some_iff_getElem.mp hfound
  refine ⟨hlt, ?_⟩
  obtain ⟨⟨hlow, hhigh⟩, howner⟩ := (hcomplete window[owning]).mp (List.getElem_mem hlt)
  obtain ⟨hlabel, -, hownerCloses⟩ := h.session_bounds howner
  have hownerLater : price < window[owning].closesAt := by simpa using hcloses
  refine ⟨hlabel, hownerCloses ▸ hownerLater, ?_⟩
  intro day hday hlater
  by_contra hearlier
  rw [not_le] at hearlier
  -- The first session of the window has closed by the price, and so has every one before it.
  have hzero : 0 < window.length := by omega
  have hfirstMem := (hcomplete window[0]).mp (List.getElem_mem hzero)
  obtain ⟨hfirstLabel, -, hfirstCloses⟩ := h.session_bounds hfirstMem.2
  have hfirstDone : window[0].closesAt ≤ price := by simpa using hbefore 0 (by omega)
  rcases lt_or_ge day window[0].sessionDate with hout | hin
  · have hcl := Spans.closes_lt hday hfirstLabel hout
    linarith
  · obtain ⟨session, hsession⟩ := h.session_of_label hday
    have hdate := regularSession_date hsession
    obtain ⟨-, -, hclosesAt⟩ := h.session_bounds hsession
    have hmem : session ∈ window := by
      rw [hcomplete, hdate]
      exact ⟨⟨by linarith, by linarith⟩, hsession⟩
    obtain ⟨i, hi, hget⟩ := List.mem_iff_getElem.mp hmem
    have hindex : i < owning :=
      index_lt_of_date_lt hincreasing hi hlt (by rw [hget, hdate]; exact hearlier)
    have hdone : window[i].closesAt ≤ price := by simpa using hbefore i hindex
    rw [hget] at hdone
    linarith

variable (hsearch : 1 ≤ searchDays) (hpos : owning ≠ 0)
  (hfound : (sessionsWithin calendars searchDays market moment).findIdx? (fun session => price <
      session.closesAt) = some owning)
include hsearch hpos hfound

theorem Regular.counted_dates (day : Day) :
    day ∈ h.sessions.openedSince price moment ↔
      day ∈ (((sessionsWithin calendars searchDays market moment).drop (owning + 1)).filter
        fun session => session.opensAt ≤ moment).map (·.sessionDate) := by
  obtain ⟨hlt, howns⟩ := h.owning_of_found hpos hfound
  rcases h.window_complete searchDays moment with hnone | hcomplete
  · simp [hnone] at hfound
  have hincreasing := h.window_increasing searchDays moment
  generalize sessionsWithin calendars searchDays market moment = window at *
  rw [List.mem_map]
  constructor
  · rintro ⟨owner, howner, hafter, hday, hopened⟩
    obtain rfl := howner.unique howns
    obtain ⟨session, hsession⟩ := h.session_of_label hday
    have hdate := regularSession_date hsession
    obtain ⟨-, hopensAt, -⟩ := h.session_bounds hsession
    obtain ⟨⟨hlow, -⟩, -⟩ := (hcomplete window[owning]).mp (List.getElem_mem hlt)
    have hrange : day ≤ dateOf moment + 1 := h.date_le_of_opened hday hopened
    have hmem : session ∈ window := by
      rw [hcomplete, hdate]
      exact ⟨⟨by linarith, by linarith⟩, hsession⟩
    obtain ⟨i, hi, hget⟩ := List.mem_iff_getElem.mp hmem
    have hlater : owning < i :=
      index_lt_of_date_lt hincreasing hlt hi (by rw [hget, hdate]; exact hafter)
    refine ⟨session, List.mem_filter.mpr ⟨?_, ?_⟩, hdate⟩
    · rw [List.mem_drop_iff_getElem]
      have hindex : owning + 1 + (i - (owning + 1)) = i := by omega
      exact ⟨i - (owning + 1), by omega, by simpa [hindex] using hget⟩
    · rw [decide_eq_true_eq]
      linarith
  · rintro ⟨session, hmem, rfl⟩
    obtain ⟨hdrop, hopened⟩ := List.mem_filter.mp hmem
    have hopened : session.opensAt ≤ moment := of_decide_eq_true hopened
    obtain ⟨i, hi, hget⟩ := List.mem_drop_iff_getElem.mp hdrop
    have hord := List.pairwise_iff_getElem.mp hincreasing owning (owning + 1 + i) hlt
      (by omega) (by omega)
    rw [hget] at hord
    obtain ⟨-, hsession⟩ := (hcomplete session).mp (List.mem_of_mem_drop hdrop)
    obtain ⟨hlabel, hopensAt, -⟩ := h.session_bounds hsession
    exact ⟨_, howns, hord, hlabel, by linarith⟩

theorem Regular.counted :
    (h.sessions.openedSince price moment).encard =
      ((sessionsWithin calendars searchDays market moment).drop (owning + 1)).countP
        fun session => session.opensAt ≤ moment := by
  have hdates : (((sessionsWithin calendars searchDays market moment).drop (owning + 1)).filter
      fun session => decide (session.opensAt ≤ moment)).Pairwise
        fun a b => a.sessionDate < b.sessionDate :=
    ((h.window_increasing searchDays moment).sublist (List.drop_sublist _ _)).filter _
  have hnodup : ((((sessionsWithin calendars searchDays market moment).drop (owning + 1)).filter
      fun session => decide (session.opensAt ≤ moment)).map (·.sessionDate)).Nodup :=
    List.pairwise_map.mpr (hdates.imp fun hab => ne_of_lt hab)
  have hset : h.sessions.openedSince price moment =
      ((((sessionsWithin calendars searchDays market moment).drop (owning + 1)).filter
        fun session => decide (session.opensAt ≤ moment)).map (·.sessionDate)).toFinset := by
    ext day
    rw [List.coe_toFinset]
    exact h.counted_dates hsearch hpos hfound day
  rw [hset, Set.encard_coe_eq_coe_finsetCard, List.toFinset_card_of_nodup hnodup, List.length_map,
    List.countP_eq_length_filter]

end Found

section Answer

include h

theorem Regular.openedAfterOwner_eq (hsearch : 1 ≤ searchDays) {n : ℕ}
    (hn : openedAfterOwner (sessionsWithin calendars searchDays market moment) price moment =
      some n) :
    (∃ owner, h.sessions.IsOwning price owner) ∧
      (h.sessions.openedSince price moment).encard = n := by
  unfold openedAfterOwner at hn
  split at hn
  · cases hn
  next owning hfound =>
  split at hn
  · cases hn
  next hpos =>
  cases hn
  obtain ⟨hlt, howns⟩ := h.owning_of_found hpos hfound
  exact ⟨⟨_, howns⟩, h.counted hsearch hpos hfound⟩

theorem Regular.owner_of_none
    (hnone : openedAfterOwner (sessionsWithin calendars searchDays market moment) price moment =
      none) {owner : Day} (howner : h.sessions.IsOwning price owner) :
    (sessionsWithin calendars searchDays market moment).head?.map (·.sessionDate) = some owner ∨
      owner ∉ (sessionsWithin calendars searchDays market moment).map (·.sessionDate) := by
  rcases h.window_complete searchDays moment with hempty | hcomplete
  · exact .inr (by simp [hempty])
  have hincreasing := h.window_increasing searchDays moment
  generalize sessionsWithin calendars searchDays market moment = window at *
  rw [or_iff_not_imp_right, not_not, List.mem_map]
  rintro ⟨session, hmem, rfl⟩
  obtain ⟨-, -, hcloses⟩ := h.session_bounds ((hcomplete session).mp hmem).2
  have hlater : price < session.closesAt := hcloses ▸ howner.2.1
  unfold openedAfterOwner at hnone
  split at hnone
  · next hfound =>
    have hall := List.findIdx?_eq_none_iff.mp hfound session hmem
    exact absurd hlater (of_decide_eq_false hall)
  next owning hfound =>
  split at hnone
  swap
  · cases hnone
  next hzero =>
  subst hzero
  -- The head closes after the price, so the owner cannot come later.
  obtain ⟨hlt, hcl, -⟩ := List.findIdx?_eq_some_iff_getElem.mp hfound
  obtain ⟨hlabel, -, hheadCloses⟩ :=
    h.session_bounds ((hcomplete window[0]).mp (List.getElem_mem hlt)).2
  have hfirst : session.sessionDate ≤ window[0].sessionDate :=
    howner.2.2 _ hlabel (hheadCloses ▸ of_decide_eq_true hcl)
  obtain ⟨i, hi, rfl⟩ := List.mem_iff_getElem.mp hmem
  have hindex : i = 0 := by
    by_contra hne
    have hord := List.pairwise_iff_getElem.mp hincreasing 0 i hlt hi (by omega)
    exact absurd hord (not_lt.mpr hfirst)
  subst hindex
  rw [List.head?_eq_getElem?, List.getElem?_eq_getElem hlt, Option.map_some]

end Answer

end Window

section Claim

variable {upper : String → String} {label : String} {priceAt asOf : Datetime}
  {newer later : Instant} {result : Option ℕ} {n m : ℕ}

theorem regularSessionsOpenedSince_ok
    (hok : regularSessionsOpenedSince calendars upper label priceAt asOf = .ok result) :
    ∃ market price moment, calendarMarket upper label = .ok market ∧
      priceAt = .aware price ∧ asOf = .aware moment ∧
      result = if moment ≤ price then some 0
        else openedAfterOwner (sessionsAround calendars market moment) price moment := by
  unfold regularSessionsOpenedSince at hok
  obtain ⟨market, hmarket, hprices⟩ := bind_ok_iff.mp hok
  obtain ⟨price, hprice, hmoments⟩ := bind_ok_iff.mp hprices
  obtain ⟨moment, hmoment, hanswer⟩ := bind_ok_iff.mp hmoments
  cases priceAt with
  | naive local_ => cases hprice
  | aware price' =>
    cases asOf with
    | naive local_ => cases hmoment
    | aware moment' =>
      cases hprice
      cases hmoment
      refine ⟨market, price, moment, hmarket, rfl, rfl, ?_⟩
      split at hanswer
      next hle => exact (Except.ok.inj hanswer).symm.trans (if_pos hle).symm
      next hle => exact (Except.ok.inj hanswer).symm.trans (if_neg hle).symm

variable (h : ∀ market, Regular calendars market)
include h

theorem elapsed_count {market : CalendarMarket} (hmarket : calendarMarket upper label = .ok market)
    (hok : regularSessionsOpenedSince calendars upper label (.aware price) (.aware moment) =
      .ok (some n)) :
    ((h market).sessions.openedSince price moment).encard = n ∧
      (price < moment → ∃ owner, (h market).sessions.IsOwning price owner) := by
  obtain ⟨market', price', moment', hmarket', hprice, hmoment, hresult⟩ :=
    regularSessionsOpenedSince_ok hok
  cases hprice
  cases hmoment
  cases hmarket.symm.trans hmarket'
  split at hresult
  · next hle =>
    cases hresult
    exact ⟨by simp [Spans.openedSince_eq_empty hle], fun hlt => absurd hle (not_le.mpr hlt)⟩
  · obtain ⟨howner, hcount⟩ :=
      (h market).openedAfterOwner_eq (by decide : 1 ≤ sessionSearchDays) hresult.symm
    exact ⟨hcount, fun _ => howner⟩

/-- The number that is answered is that of the sessions of the whole calendar that open after
the owner of the price up to the moment, and no other number comes of looking at more days or
fewer; it grows with the moment and shrinks with the price. No number is answered only when
the owner is the first session looked up, or not one of them. -/
theorem sessions_elapsed (upper : String → String) (label : String) :
    (∀ priceAt asOf n,
      regularSessionsOpenedSince calendars upper label priceAt asOf = .ok (some n) →
      ∃ market price moment, calendarMarket upper label = .ok market ∧
        priceAt = .aware price ∧ asOf = .aware moment ∧
        ((h market).sessions.openedSince price moment).encard = n ∧
        ∀ searchDays m, 1 ≤ searchDays → price < moment →
          openedAfterOwner (sessionsWithin calendars searchDays market moment) price moment =
            some m → m = n) ∧
    (∀ price moment later n m, moment ≤ later →
      regularSessionsOpenedSince calendars upper label (.aware price) (.aware moment) =
        .ok (some n) →
      regularSessionsOpenedSince calendars upper label (.aware price) (.aware later) =
        .ok (some m) → n ≤ m) ∧
    (∀ price newer moment n m, price ≤ newer →
      regularSessionsOpenedSince calendars upper label (.aware price) (.aware moment) =
        .ok (some n) →
      regularSessionsOpenedSince calendars upper label (.aware newer) (.aware moment) =
        .ok (some m) → m ≤ n) ∧
    (∀ priceAt asOf, regularSessionsOpenedSince calendars upper label priceAt asOf = .ok none →
      ∃ market price moment, calendarMarket upper label = .ok market ∧
        priceAt = .aware price ∧ asOf = .aware moment ∧
        ∀ owner, (h market).sessions.IsOwning price owner →
          ((sessionsAround calendars market moment).head?.map (·.sessionDate) = some owner ∨
            owner ∉ (sessionsAround calendars market moment).map (·.sessionDate))) := by
  refine ⟨?_, ?_, ?_, ?_⟩
  · intro priceAt asOf n hok
    obtain ⟨market, price, moment, hmarket, rfl, rfl, -⟩ := regularSessionsOpenedSince_ok hok
    obtain ⟨hcount, -⟩ := elapsed_count h hmarket hok
    refine ⟨market, price, moment, hmarket, rfl, rfl, hcount, ?_⟩
    intro searchDays m hsearch hlt hm
    obtain ⟨-, hother⟩ := (h market).openedAfterOwner_eq hsearch hm
    exact_mod_cast hother.symm.trans hcount
  · intro price moment later n m hle hn hm
    obtain ⟨market, -, -, hmarket, -, -, -⟩ := regularSessionsOpenedSince_ok hn
    obtain ⟨hcount, -⟩ := elapsed_count h hmarket hn
    obtain ⟨hcountLater, -⟩ := elapsed_count h hmarket hm
    have hmono := Set.encard_le_encard ((h market).sessions.openedSince_mono (p := price) hle)
    rw [hcount, hcountLater] at hmono
    exact_mod_cast hmono
  · intro price newer moment n m hle hn hm
    obtain ⟨market, -, -, hmarket, -, -, -⟩ := regularSessionsOpenedSince_ok hn
    obtain ⟨hcount, howner⟩ := elapsed_count h hmarket hn
    obtain ⟨hcountNewer, -⟩ := elapsed_count h hmarket hm
    rcases lt_or_ge price moment with hlt | hge
    · obtain ⟨owner, howner⟩ := howner hlt
      have hanti := Set.encard_le_encard (Spans.openedSince_anti (t := moment) howner hle)
      rw [hcount, hcountNewer] at hanti
      exact_mod_cast hanti
    · rw [Spans.openedSince_eq_empty (hge.trans hle), Set.encard_empty] at hcountNewer
      have hzero : m = 0 := by exact_mod_cast hcountNewer.symm
      omega
  · intro priceAt asOf hok
    obtain ⟨market, price, moment, hmarket, rfl, rfl, hresult⟩ := regularSessionsOpenedSince_ok hok
    refine ⟨market, price, moment, hmarket, rfl, rfl, ?_⟩
    intro owner howner
    split at hresult
    · cases hresult
    · exact (h market).owner_of_none hresult.symm howner

end Claim

/-- Sessions from midnight to half past six on Mondays to Fridays. -/
def weekdays (_ : CalendarMarket) : ExchangeCalendar where
  isSession day := some (decide ((day + 3) % 7 < 5))
  sessionOpen day := some (day * dayLength)
  sessionClose day := some (day * dayLength + 390 * 60 * 1000000)
  sessionsInRange first last := some
    (((List.range (last + 1 - first).toNat).map fun i : ℕ => first + i).filter
      fun day => (day + 3) % 7 < 5)

theorem weekdays_bounds {market : CalendarMarket} {day : Day} {bounds : Instant × Instant}
    (hbounds : regularSessionBounds weekdays market day = some bounds) :
    bounds = (day * dayLength, day * dayLength + 390 * 60 * 1000000) := by
  unfold regularSessionBounds at hbounds
  split at hbounds
  · cases hbounds
  · split at hbounds
    · exact (Option.some.inj hbounds).symm
    · cases hbounds

theorem weekdays_regular (market : CalendarMarket) : Regular weekdays market where
  opens_lt day bounds hbounds := by
    obtain rfl := weekdays_bounds hbounds
    exact lt_add_of_pos_right _ (by decide)
  disjoint day next bounds later hlt hbounds hlater := by
    obtain rfl := weekdays_bounds hbounds
    obtain rfl := weekdays_bounds hlater
    have hnext : day + 1 ≤ next := Int.add_one_le_iff.mpr hlt
    calc day * dayLength + 390 * 60 * 1000000 ≤ (day + 1) * dayLength := by
          rw [add_mul]
          exact Int.add_le_add_left (by decide) _
      _ ≤ next * dayLength := mul_le_mul_of_nonneg_right hnext (by decide)
  near day bounds hbounds := by
    obtain rfl := weekdays_bounds hbounds
    exact mul_le_mul_of_nonneg_right (sub_le_self _ (by decide)) (by decide)
  increasing first last days hdays := by
    cases hdays
    refine List.Pairwise.filter _ (List.pairwise_map.mpr ?_)
    exact List.pairwise_lt_range.imp fun hlt => by simpa using hlt
  listed first last days hdays day := by
    cases hdays
    simp only [List.mem_filter, List.mem_map, List.mem_range, decide_eq_true_eq, weekdays,
      Option.some.injEq]
    refine and_congr_left fun _ => ⟨?_, ?_⟩
    · rintro ⟨i, hi, rfl⟩
      have hlast := Int.lt_toNat.mp hi
      exact ⟨by linarith [Int.natCast_nonneg i], by linarith [Int.add_one_le_iff.mpr hlast]⟩
    · rintro ⟨hfirst, hlast⟩
      have hcast := Int.toNat_of_nonneg (sub_nonneg.mpr hfirst)
      refine ⟨(day - first).toNat, Int.lt_toNat.mpr ?_, by rw [hcast, add_sub_cancel]⟩
      rw [hcast]
      linarith

/-- A Friday's price at one o'clock of the next Monday. -/
theorem sessions_elapsed_weekend :
    regularSessionsOpenedSince weekdays id "KRX" (.aware (15 * dayLength))
        (.aware (18 * dayLength + 60 * 60 * 1000000)) = .ok (some 1) ∧
      ∃ market price moment, calendarMarket id "KRX" = .ok market ∧
        Datetime.aware (15 * dayLength) = .aware price ∧
        Datetime.aware (18 * dayLength + 60 * 60 * 1000000) = .aware moment ∧
        ((weekdays_regular market).sessions.openedSince price moment).encard = 1 := by
  have hone : regularSessionsOpenedSince weekdays id "KRX" (.aware (15 * dayLength))
      (.aware (18 * dayLength + 60 * 60 * 1000000)) = .ok (some 1) := by decide +kernel
  obtain ⟨market, price, moment, hmarket, hprice, hmoment, hcount, -⟩ :=
    (sessions_elapsed weekdays_regular id "KRX").1 _ _ 1 hone
  exact ⟨hone, market, price, moment, hmarket, hprice, hmoment, hcount⟩

end KAssetTrader.MarketSession
