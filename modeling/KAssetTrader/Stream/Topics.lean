import KAssetTrader.Library.Dict
import KAssetTrader.Recommendation.Row

/-!
The topics of the market stream and its messages. A topic key of the app and a key of the
provider name the same topic, and only this module converts them; the budget of the provider
goes to the topics with the most subscribers. A quote is a baseline of the REST path, or a
tick on top of one: a new price and time over the reference closes of the baseline.
-/

namespace KAssetTrader.Stream

open Unicode (strip)

inductive TopicKind where
  | quote
  | orderbook
  deriving DecidableEq

inductive TopicMarket where
  | krx
  | us
  deriving DecidableEq

def TopicKind.text : TopicKind → String
  | .quote => "quote"
  | .orderbook => "orderbook"

def TopicMarket.text : TopicMarket → String
  | .krx => "KRX"
  | .us => "US"

/-- `_UPSTREAM_FAMILY`. -/
def TopicKind.upstream : TopicKind → String
  | .quote => "trade"
  | .orderbook => "orderbook"

/-- `_UPSTREAM_MARKET`. -/
def TopicMarket.upstream : TopicMarket → String
  | .krx => "kr"
  | .us => "us"

structure Topic where
  kind : TopicKind
  market : TopicMarket
  symbol : String

def Topic.key (topic : Topic) : String :=
  topic.kind.text ++ ":" ++ topic.market.text ++ ":" ++ topic.symbol

def Topic.upstreamKey (topic : Topic) : String :=
  topic.kind.upstream ++ ":" ++ topic.market.upstream ++ ":" ++ topic.symbol

/-- The codes of `TopicRejected`. -/
inductive RejectCode where
  | malformed
  | unknownKind
  | unknownMarket
  | badSymbol
  | tooMany

/-- The decimal digits, which `\d` matches. -/
def isDigit (c : Char) : Bool :=
  Unicode.decimalZeros.any fun first => first ≤ c.toNat && c.toNat < first + 10

/-- `_KRX_SYMBOL_RE`. -/
def krxSymbol (symbol : String) : Bool :=
  symbol.toList.length == 6 && symbol.toList.all isDigit

/-- `_US_SYMBOL_RE`. -/
def usSymbol (symbol : String) : Bool :=
  match symbol.toList with
  | [] => false
  | first :: rest =>
    first.isUpper && rest.length ≤ 14 &&
      rest.all fun c => c.isUpper || c.isDigit || c == '.' || c == '-'

def TopicMarket.accepts : TopicMarket → String → Bool
  | .krx => krxSymbol
  | .us => usSymbol

def TopicKind.ofText (text : String) : Option TopicKind :=
  if text = "quote" then some .quote
  else if text = "orderbook" then some .orderbook
  else none

def TopicMarket.ofText (text : String) : Option TopicMarket :=
  if text = "KRX" then some .krx
  else if text = "US" then some .us
  else none

/-- `str.split(":")`. -/
def parts (text : String) : List String := (text.toList.splitOn ':').map String.ofList

/-- `parse_topic` of a text. -/
def parseTopic (raw : String) : Except (String × RejectCode) Topic :=
  let text := strip raw
  match parts text with
  | [kind, market, symbol] =>
    if kind = "" ∨ market = "" ∨ symbol = "" then .error (text, .malformed)
    else match TopicKind.ofText kind with
    | none => .error (text, .unknownKind)
    | some kind =>
      match TopicMarket.ofText market with
      | none => .error (text, .unknownMarket)
      | some market =>
        if market.accepts symbol then .ok { kind, market, symbol }
        else .error (text, .badSymbol)
  | _ => .error (text, .malformed)

/-- A topic that a client asks for: a text, or another value with its text. -/
inductive RawTopic where
  | text (text : String)
  | other (shown : String)

/-- `parse_topic`. -/
def RawTopic.parse : RawTopic → Except (String × RejectCode) Topic
  | .text raw => parseTopic raw
  | .other shown => .error (shown, .malformed)

def parseUpstreamKey (raw : String) : Option Topic :=
  match parts raw with
  | [family, market, symbol] =>
    let kind : Option TopicKind :=
      if family = "trade" then some .quote
      else if family = "orderbook" then some .orderbook
      else none
    let market : Option TopicMarket :=
      if market = "kr" then some .krx
      else if market = "us" then some .us
      else none
    match kind, market with
    | some kind, some market => if symbol = "" then none else some { kind, market, symbol }
    | _, _ => none
  | _ => none

section Budget

def maxUpstreamTopics : ℕ := 100

def maxClientTopics : ℕ := 54

structure TopicBudget where
  streaming : List String
  demoted : List String
  deriving DecidableEq

/-- The order of the budget: more subscribers first, and then by key. -/
def ranksBefore (a b : String × ℤ) : Prop := b.2 < a.2 ∨ (a.2 = b.2 ∧ a.1 ≤ b.1)

instance : DecidableRel ranksBefore :=
  fun a b => inferInstanceAs (Decidable (b.2 < a.2 ∨ (a.2 = b.2 ∧ a.1 ≤ b.1)))

/-- The topics that compete for the budget, in its order. -/
def ranked (demand : Dict String ℤ) (blocked : List String) : List (String × ℤ) :=
  (demand.entries.filter fun e => decide (0 < e.2 ∧ e.1 ∉ blocked)).insertionSort ranksBefore

def allocateTopics (demand : Dict String ℤ) (capacity : ℤ) (blocked : List String) :
    TopicBudget :=
  let ranked := (ranked demand blocked).map (·.1)
  let limit := capacity.toNat
  { streaming := (ranked.take limit).insertionSort (· ≤ ·)
    demoted := (ranked.drop limit ++
      (demand.entries.filter fun e => decide (0 < e.2 ∧ e.1 ∈ blocked)).map (·.1)).insertionSort
        (· ≤ ·) }

/-- A budget splits the topics in demand: those that stream are within the capacity, and
the others are demoted. -/
structure BudgetSound (demand : Dict String ℤ) (capacity : ℤ) (budget : TopicBudget) : Prop where
  disjoint : ∀ key ∈ budget.streaming, key ∉ budget.demoted
  complete : ∀ key, key ∈ budget.streaming ∨ key ∈ budget.demoted ↔
    0 < (demand.get? key).getD 0
  size : (budget.streaming.length : ℤ) ≤ max capacity 0

variable {demand : Dict String ℤ} {capacity : ℤ} {blocked : List String} {key : String}

theorem mem_ranked : key ∈ (ranked demand blocked).map (·.1) ↔
    0 < (demand.get? key).getD 0 ∧ key ∉ blocked := by
  simp only [ranked, List.mem_map, List.mem_insertionSort, List.mem_filter,
    decide_eq_true_iff, Prod.exists, exists_and_right, exists_eq_right]
  constructor
  · rintro ⟨count, hmem, hpositive, hfree⟩
    rw [demand.get?_eq_some.mpr hmem]
    exact ⟨hpositive, hfree⟩
  · rintro ⟨hpositive, hfree⟩
    cases hget : demand.get? key with
    | none =>
      rw [hget] at hpositive
      exact absurd hpositive (lt_irrefl 0)
    | some count =>
      rw [hget] at hpositive
      exact ⟨count, demand.get?_eq_some.mp hget, hpositive, hfree⟩

theorem nodup_ranked (demand : Dict String ℤ) (blocked : List String) :
    ((ranked demand blocked).map (·.1)).Nodup := by
  have hperm : ((ranked demand blocked).map (·.1)).Perm
      ((demand.entries.filter fun e => decide (0 < e.2 ∧ e.1 ∉ blocked)).map (·.1)) :=
    (List.perm_insertionSort _ _).map _
  rw [hperm.nodup_iff]
  exact (List.filter_sublist.map Prod.fst).nodup demand.keys_nodup

theorem mem_blockedDemand :
    key ∈ (demand.entries.filter fun e => decide (0 < e.2 ∧ e.1 ∈ blocked)).map (·.1) ↔
      0 < (demand.get? key).getD 0 ∧ key ∈ blocked := by
  simp only [List.mem_map, List.mem_filter, decide_eq_true_iff, Prod.exists,
    exists_and_right, exists_eq_right]
  constructor
  · rintro ⟨count, hmem, hpositive, hblocked⟩
    rw [demand.get?_eq_some.mpr hmem]
    exact ⟨hpositive, hblocked⟩
  · rintro ⟨hpositive, hblocked⟩
    cases hget : demand.get? key with
    | none =>
      rw [hget] at hpositive
      exact absurd hpositive (lt_irrefl 0)
    | some count =>
      rw [hget] at hpositive
      exact ⟨count, demand.get?_eq_some.mp hget, hpositive, hblocked⟩

theorem mem_streaming (h : key ∈ (allocateTopics demand capacity blocked).streaming) :
    0 < (demand.get? key).getD 0 ∧ key ∉ blocked := by
  rw [allocateTopics, List.mem_insertionSort] at h
  exact mem_ranked.mp (List.mem_of_mem_take h)

theorem allocateTopics_sound :
    BudgetSound demand capacity (allocateTopics demand capacity blocked) := by
  have hsplit := nodup_ranked demand blocked
  rw [← List.take_append_drop capacity.toNat ((ranked demand blocked).map (·.1)),
    List.nodup_append] at hsplit
  constructor
  · intro key hstreaming hdemoted
    have hfree := (mem_streaming hstreaming).2
    simp only [allocateTopics, List.mem_insertionSort, List.mem_append] at hstreaming hdemoted
    rcases hdemoted with hrest | hblocked
    · exact hsplit.2.2 key hstreaming key hrest rfl
    · exact hfree (mem_blockedDemand.mp hblocked).2
  · intro key
    simp only [allocateTopics, List.mem_insertionSort, List.mem_append]
    rw [mem_blockedDemand, ← or_assoc, ← List.mem_append, List.take_append_drop, mem_ranked]
    constructor
    · rintro (h | h)
      · exact h.1
      · exact h.1
    · intro hpositive
      by_cases hblocked : key ∈ blocked
      · exact .inr ⟨hpositive, hblocked⟩
      · exact .inl ⟨hpositive, hblocked⟩
  · simp only [allocateTopics, List.length_insertionSort, List.length_take]
    omega

end Budget

section RoundTrip

def IsTopicKey (key : String) : Prop := ∃ topic, parseTopic key = .ok topic ∧ topic.key = key

instance decidableIsTopicKey (key : String) : Decidable (IsTopicKey key) :=
  match h : parseTopic key with
  | .ok topic => decidable_of_iff (topic.key = key)
      ⟨fun heq => ⟨topic, h, heq⟩, fun ⟨found, hfound, heq⟩ => by
        rw [h] at hfound
        cases hfound
        exact heq⟩
  | .error rejection => isFalse fun ⟨found, hfound, _⟩ => by
      rw [h] at hfound
      cases hfound

def downstreamKey (target : String) : Option String := (parseUpstreamKey target).map (·.key)

variable {text : String} {topic : Topic}

theorem accepts_of_parseTopic (h : parseTopic text = .ok topic) :
    topic.market.accepts topic.symbol = true := by
  simp only [parseTopic] at h
  split at h
  · split at h
    · cases h
    · split at h
      · cases h
      · split at h
        · cases h
        · split at h
          next haccepts =>
            cases h
            exact haccepts
          · cases h
  · cases h

theorem symbol_of_accepts {market : TopicMarket} {symbol : String}
    (h : market.accepts symbol = true) : symbol ≠ "" ∧ ':' ∉ symbol.toList := by
  cases market with
  | krx =>
    simp only [TopicMarket.accepts, krxSymbol, Bool.and_eq_true, beq_iff_eq] at h
    constructor
    · rintro rfl
      exact absurd h.1 (by decide)
    · intro hcolon
      exact absurd (List.all_eq_true.mp h.2 ':' hcolon) (by decide)
  | us =>
    simp only [TopicMarket.accepts, usSymbol] at h
    split at h
    · cases h
    next first rest hsymbol =>
      simp only [Bool.and_eq_true] at h
      constructor
      · rintro rfl
        cases hsymbol
      · intro hcolon
        rw [hsymbol] at hcolon
        rcases List.mem_cons.mp hcolon with hfirst | hrest
        · rw [← hfirst] at h
          exact absurd h.1.1 (by decide)
        · exact absurd (List.all_eq_true.mp h.2 ':' hrest) (by decide)

theorem parts_join {a b c : String} (ha : ':' ∉ a.toList) (hb : ':' ∉ b.toList)
    (hc : ':' ∉ c.toList) : parts (a ++ ":" ++ b ++ ":" ++ c) = [a, b, c] := by
  have htext : (a ++ ":" ++ b ++ ":" ++ c).toList =
      [':'].intercalate [a.toList, b.toList, c.toList] := by
    simp [List.intercalate]
  rw [parts, htext, List.splitOn_intercalate]
  · simp
  · intro part hpart
    simp only [List.mem_cons, List.not_mem_nil, or_false] at hpart
    rcases hpart with rfl | rfl | rfl
    · exact ha
    · exact hb
    · exact hc
  · exact List.cons_ne_nil _ _

theorem parseUpstreamKey_upstreamKey (h : topic.market.accepts topic.symbol = true) :
    parseUpstreamKey topic.upstreamKey = some topic := by
  obtain ⟨hsymbol, hcolon⟩ := symbol_of_accepts h
  obtain ⟨kind, market, symbol⟩ := topic
  have hkind : ':' ∉ kind.upstream.toList := by cases kind <;> decide
  have hmarket : ':' ∉ market.upstream.toList := by cases market <;> decide
  rw [parseUpstreamKey, Topic.upstreamKey, parts_join hkind hmarket hcolon]
  cases kind <;> cases market <;>
    simp [TopicKind.upstream, TopicMarket.upstream, show symbol ≠ "" from hsymbol]

theorem downstreamKey_upstreamKey (h : parseTopic text = .ok topic) :
    downstreamKey topic.upstreamKey = some topic.key := by
  rw [downstreamKey, parseUpstreamKey_upstreamKey (accepts_of_parseTopic h)]
  rfl

end RoundTrip

inductive UpstreamState where
  | live
  | degraded
  deriving DecidableEq

inductive MarketSessionState where
  | dayMarket
  | preMarket
  | regular
  | afterMarket
  | closed
  deriving DecidableEq

abbrev Moment := ℤ

/-- The moment that `iso_z` writes: whole seconds. -/
def isoZ (moment : Moment) : Moment := moment / 1000000 * 1000000

/-- `Quote`, less the changes that are computed from its prices. -/
structure Quote where
  market : TopicMarket
  symbol : String
  name : Option String := none
  currency : String
  price : Decimal
  previousClose : Option Decimal := none
  session : Option MarketSessionState := none
  regularClose : Option Decimal := none
  asOf : Moment
  source : String
  deriving DecidableEq

inductive Message where
  | text (body : String)
  | status (upstream : UpstreamState) (reason : Option String) (pollingTopics : List String)
  | quote (topic : String) (quote : Quote)
  deriving DecidableEq

def statusMailboxKey : String := "\x00status"

/-- The reference closes of `build_quote` in a market session. -/
def referenceCloses (session : Option MarketSessionState)
    (previousClose regularClose : Option Decimal) : Option Decimal × Option Decimal :=
  match session with
  | some .regular => (previousClose, none)
  | some .dayMarket | some .preMarket | some .afterMarket => (regularClose, regularClose)
  | some .closed | none => (previousClose, regularClose)

def tossStreamSource : String := "TOSS_API_WS"

def quoteFromTick (baseline : Quote) (price : Decimal) (asOf : Moment) : Quote :=
  let closes := referenceCloses baseline.session baseline.previousClose baseline.regularClose
  { baseline with
    price := price
    previousClose := closes.1
    regularClose := closes.2
    asOf := isoZ asOf
    source := tossStreamSource }

end KAssetTrader.Stream
