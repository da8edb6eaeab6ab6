import KAssetTrader.Library.CodePoints
import KAssetTrader.Proposals.CallbackData

/-!
The envelope of a click on its way through the inbox: an update is normalized, its fields are
stored as the columns of a row, and a worker rebuilds them. The chat of a row is a text, and
one that is all digits is taken to be a number again, whatever it was in the update.
-/

namespace KAssetTrader.InboxEnvelope

open Checked CodePoints Documents
open CallbackData (CallbackEnvelope Uuid allowedActions isHexDigit isToken isTokenOf
  parseCallbackData)

/-- What is raised: the two rejections, or an error of the language. -/
inductive Failure where
  | notNormalizable (reason : String)
  | envelopeInvalid (field : String)
  | attributeError
  | typeError
  | valueError

def validateTelegramUserId : Json → Option ℤ
  | .int n => if 1 ≤ n ∧ n ≤ 2 ^ 52 - 1 then some n else none
  | _ => none

def validateTelegramUpdateId : Json → Option ℤ
  | .int n => if 1 ≤ n ∧ n ≤ 2147483647 then some n else none
  | _ => none

def canonicalTelegramUserIdText (value : Json) : Option Text :=
  (validateTelegramUserId value).bind intText?

/-- `parse_canonical_telegram_user_id_text`, of a text. -/
def parseCanonicalTelegramUserIdText (value : Text) : Option ℤ :=
  if value = [] ∨ value.head? = some 0x30 then none
  else if ¬ value.all (fun c => c.val < 128) ∨ ¬ value.all isDecimal then none
  else match intOf value with
    | none => none
    | some parsed =>
      if validateTelegramUserId (.int parsed) ≠ some parsed then none
      else if intText? parsed = some value then some parsed else none

structure NormalizedCallback where
  callbackQueryId : Json
  chatId : Json
  chatIdKey : Text
  messageId : Json
  telegramUserId : ℤ
  callback : CallbackEnvelope
  updateId : Option ℤ := none

/-- `value or {}`, before a `get` that only a dictionary has. -/
def orEmpty (value : Json) : Except Failure Object :=
  if ¬ value.truthy then .ok []
  else match value.object? with
    | some entries => .ok entries
    | none => .error .attributeError

/-- The callback data, of an update that may hold anything there. -/
def parseData (data : Json) : Except Failure CallbackEnvelope :=
  match data.str? with
  | none => .error (.notNormalizable "malformed_callback_data")
  | some text => (parseCallbackData text).mapError fun e =>
    if e.isValueError then .notNormalizable "malformed_callback_data" else .typeError

section Ingress

-- `str` of an array or an object, and the hash of an update id.
variable (repr : Json → Option Text) (digest : ℤ → Text)

/-- `str(value)` -/
def strOf (value : Json) : Except Failure Text :=
  match value.text? repr with
  | none => .error .valueError
  | some text => .ok text

def normalizeCallbackUpdate (allowlist : List Text) (update : Object) :
    Except Failure NormalizedCallback :=
  match (update.get "callback_query").object? with
  | none => .error (.notNormalizable "not_callback")
  | some callbackQuery => do
      let message ← orEmpty (callbackQuery.get "message")
      let chat ← orEmpty (message.get "chat")
      let chatId := chat.get "id"
      let chatIdKey ← strOf repr chatId
      raiseIf (chatIdKey ∉ allowlist) (.notNormalizable "chat_not_allowed")
      let updateId := validateTelegramUpdateId (update.get "update_id")
      raiseIf (¬ (update.get "update_id").isNull ∧ updateId = none)
        (.notNormalizable "invalid_telegram_identifier")
      let callback ← parseData (callbackQuery.get "data")
      match (callbackQuery.get "from").object? with
      | none => .error (.notNormalizable "invalid_telegram_identifier")
      | some fromUser =>
        match validateTelegramUserId (fromUser.get "id") with
        | none => .error (.notNormalizable "invalid_telegram_identifier")
        | some telegramUserId =>
          return {
            callbackQueryId := callbackQuery.get "id"
            chatId, chatIdKey, messageId := message.get "message_id"
            telegramUserId, callback, updateId }

def roundTrippable (normalized : NormalizedCallback) : Bool :=
  (validateTelegramUserId (.int normalized.telegramUserId)).isSome &&
  (normalized.updateId.all fun n => (validateTelegramUpdateId (.int n)).isSome) &&
  (match normalized.chatId with
    | .int _ => true
    | .str _ => true
    | _ => false) &&
  ((normalized.chatId.text? repr).any fun text => strip text ≠ []) &&
  (match normalized.messageId with
    | .null => true
    | .int _ => true
    | _ => false) &&
  (match normalized.callbackQueryId with
    | .null => true
    | .str _ => true
    | _ => false)

structure Row where
  callbackQueryId : Json
  updateIdentityDigest : Option Text
  chatId : Option Text
  messageId : Json
  telegramUserId : Option Text
  action : Option Text
  subjectShort : Option Text
  dispatchAttemptId : Option Uuid
  membershipRevision : Option ℤ
  membershipDigest : Option Text
  nonce : Option Text

def buildUpdateIdentityDigest (updateId : Option ℤ) : Except Failure (Option Text) :=
  match updateId with
  | none => .ok none
  | some n =>
    match validateTelegramUpdateId (.int n) with
    | none => .error .valueError
    | some valid => .ok (some (digest valid))

/-- The row of an envelope, given the two columns that are computed. -/
def NormalizedCallback.row (normalized : NormalizedCallback)
    (updateIdentityDigest : Option Text) (chatId : Text) : Row where
  callbackQueryId := normalized.callbackQueryId
  updateIdentityDigest := updateIdentityDigest
  chatId := some chatId
  messageId := normalized.messageId
  telegramUserId := canonicalTelegramUserIdText (.int normalized.telegramUserId)
  action := some normalized.callback.action
  subjectShort := some normalized.callback.subjectShort
  dispatchAttemptId := some normalized.callback.attemptId
  membershipRevision := some normalized.callback.membershipRevision
  membershipDigest := some normalized.callback.membershipDigest
  nonce := some normalized.callback.nonce

/-- `normalized_envelope_projection`, as the row that holds it. -/
def normalizedEnvelopeProjection (normalized : NormalizedCallback) : Except Failure Row := do
  let updateIdentityDigest ← buildUpdateIdentityDigest digest normalized.updateId
  let chatId ← strOf repr normalized.chatId
  return normalized.row updateIdentityDigest chatId

end Ingress

def column {α : Type} (field : String) (check : α → Bool) : Option α → Except Failure α
  | some value => if check value then .ok value else .error (.envelopeInvalid field)
  | none => .error (.envelopeInvalid field)

def unsigned (text : Text) : Text :=
  if text.head? = some hyphen then text.tail else text

/-- The chat of a text: one that is all digits after its sign goes through `int`. -/
def rebuiltChatId (text : Text) : Except Failure Json :=
  if isDigits (unsigned text) then
    match intOf (unsigned text) with
    | none => .error .valueError
    | some n => .ok (.int (if text.head? = some hyphen then -n else n))
  else .ok (.str text)

def rebuildNormalized (row : Row) : Except Failure NormalizedCallback := do
  let action ← column "action" (· ∈ allowedActions) row.action
  let subjectShort ← column "subject_short"
    (fun text => text.length = 8 && text.all isHexDigit) row.subjectShort
  let membershipDigest ← column "membership_digest" (isTokenOf 12) row.membershipDigest
  let nonce ← column "nonce" isToken row.nonce
  let membershipRevision ← column "membership_revision" (0 < ·) row.membershipRevision
  let attemptId ← column "dispatch_attempt_id" (fun _ => true) row.dispatchAttemptId
  let chatIdKey ← column "chat_id" (strip · ≠ []) row.chatId
  match row.telegramUserId.bind parseCanonicalTelegramUserIdText with
  | none => .error (.envelopeInvalid "telegram_user_id")
  | some telegramUserId =>
    let chatId ← rebuiltChatId chatIdKey
    return {
      callbackQueryId := row.callbackQueryId
      chatId, chatIdKey, messageId := row.messageId, telegramUserId
      callback := {
        action, subjectShort, attemptId, membershipRevision, membershipDigest, nonce } }

def chatIdOf (update : Object) : Json :=
  let child (entries : Object) (key : String) : Object := (entries.get key).object?.getD []
  (child (child (child update "callback_query") "message") "chat").get "id"

def ReadsAsNumber : Json → Prop
  | .str text => isDigits (unsigned text) = true
  | _ => False

variable {repr : Json → Option Text} {digest : ℤ → Text} {allowlist : List Text}
  {update : Object} {normalized : NormalizedCallback} {value : Json} {text : Text} {n : ℤ}

theorem rebuiltChatId_int (h : intText? n = some text) : rebuiltChatId text = .ok (.int n) := by
  unfold intText? at h
  split_ifs at h with hlong hneg
  · cases h
    unfold rebuiltChatId unsigned
    rw [List.head?_cons, if_pos rfl, List.tail_cons, isDigits_natText, if_pos rfl,
      intOf_natText (not_lt.mp hlong)]
    dsimp only
    rw [if_pos rfl]
    congr 2
    omega
  · cases h
    have hhead : (natText n.natAbs).head? ≠ some hyphen := by
      intro hhead
      have hmem := mem_natText (List.mem_of_mem_head? hhead)
      exact absurd hmem (by decide)
    unfold rebuiltChatId unsigned
    rw [if_neg hhead, isDigits_natText, if_pos rfl, intOf_natText (not_lt.mp hlong)]
    dsimp only
    rw [if_neg hhead]
    congr 2
    omega

theorem rebuiltChatId_iff (htext : value.text? repr = some text)
    (hstored : (∃ n, value = .int n) ∨ ∃ stored, value = .str stored) :
    rebuiltChatId text = .ok value ↔ ¬ ReadsAsNumber value := by
  rcases hstored with ⟨n, rfl⟩ | ⟨stored, rfl⟩
  · have hrebuilt := rebuiltChatId_int htext
    simp [ReadsAsNumber, hrebuilt]
  · obtain rfl := Option.some.inj htext
    change _ ↔ ¬ isDigits (unsigned stored) = true
    unfold rebuiltChatId
    by_cases hdigits : isDigits (unsigned stored) = true
    · rw [if_pos hdigits]
      refine iff_of_false ?_ (not_not.mpr hdigits)
      split
      · exact nofun
      · exact nofun
    · rw [if_neg hdigits]
      exact iff_of_true rfl hdigits

theorem validateTelegramUserId_int (h : 1 ≤ n ∧ n ≤ 2 ^ 52 - 1) :
    validateTelegramUserId (.int n) = some n := if_pos h

theorem validateTelegramUserId_some (h : validateTelegramUserId value = some n) :
    value = .int n ∧ 1 ≤ n ∧ n ≤ 2 ^ 52 - 1 := by
  unfold validateTelegramUserId at h
  split at h
  · split_ifs at h with hbounds
    cases h
    exact ⟨rfl, hbounds⟩
  · cases h

theorem parseCanonical_canonical (h : 1 ≤ n ∧ n ≤ 2 ^ 52 - 1) :
    (canonicalTelegramUserIdText (.int n)).bind parseCanonicalTelegramUserIdText = some n := by
  have hpos : n.natAbs ≠ 0 := by omega
  have hcast : (n.natAbs : ℤ) = n := by omega
  have hlength : (natText n.natAbs).length ≤ maxStrDigits := by
    have hshort : (natText n.natAbs).length ≤ 16 := length_natText_le (by norm_num) (by omega)
    exact hshort.trans (by decide)
  have htext : intText? n = some (natText n.natAbs) := by
    rw [intText?, if_neg (not_lt.mpr hlength), if_neg (by omega)]
  have hascii : ((natText n.natAbs).all fun c => decide (c.val < 128)) = true := by
    rw [List.all_eq_true]
    intro c hc
    have hdigit := mem_natText hc
    rw [isAsciiDigit, Bool.and_eq_true, decide_eq_true_eq, decide_eq_true_eq] at hdigit
    exact decide_eq_true (by omega)
  have hread := intOf_natText hlength
  have hdecimal : (natText n.natAbs).all isDecimal = true :=
    (intOf_isSome_iff.mp (by rw [hread]; rfl)).2
  rw [canonicalTelegramUserIdText, validateTelegramUserId_int h, Option.bind_some, htext,
    Option.bind_some]
  unfold parseCanonicalTelegramUserIdText
  rw [if_neg (not_or.mpr ⟨natText_ne_nil _, head_natText hpos⟩),
    if_neg (not_or.mpr ⟨not_not.mpr hascii, not_not.mpr hdecimal⟩), hread]
  dsimp only
  rw [hcast, validateTelegramUserId_int h, if_neg (not_not.mpr rfl), htext, if_pos rfl]

structure Normal (repr : Json → Option Text) (update : Object)
    (normalized : NormalizedCallback) : Prop where
  chat : normalized.chatId = chatIdOf update
  key : normalized.chatId.text? repr = some normalized.chatIdKey
  user : 1 ≤ normalized.telegramUserId ∧ normalized.telegramUserId ≤ 2 ^ 52 - 1
  callback : normalized.callback.Matches

theorem orEmpty_ok {entries : Object} (h : orEmpty value = .ok entries) :
    entries = value.object?.getD [] := by
  unfold orEmpty at h
  split_ifs at h with htruthy
  · split at h
    next found hfound =>
      cases h
      rw [hfound, Option.getD_some]
    · cases h
  · cases h
    cases value with
    | obj entries => simpa [Json.truthy, Json.object?] using htruthy
    | _ => rfl

theorem strOf_ok (h : strOf repr value = .ok text) : value.text? repr = some text := by
  unfold strOf at h
  split at h
  · cases h
  next found hfound => rw [hfound, Except.ok.inj h]

theorem parseData_matches {callback : CallbackEnvelope} (h : parseData value = .ok callback) :
    callback.Matches := by
  unfold parseData at h
  split at h
  · cases h
  next text _ =>
    cases hparsed : parseCallbackData text with
    | error e =>
      rw [hparsed] at h
      cases h
    | ok envelope =>
      rw [hparsed] at h
      cases h
      exact CallbackData.parseCallbackData_matches hparsed

theorem normalizeCallbackUpdate_normal
    (h : normalizeCallbackUpdate repr allowlist update = .ok normalized) :
    Normal repr update normalized := by
  unfold normalizeCallbackUpdate at h
  split at h
  · cases h
  next callbackQuery hquery =>
    obtain ⟨message, hmessage, h⟩ := bind_ok_iff.mp h
    obtain ⟨chat, hchat, h⟩ := bind_ok_iff.mp h
    obtain ⟨chatIdKey, hkey, h⟩ := bind_ok_iff.mp h
    obtain ⟨-, h⟩ := raiseIf_bind_ok.mp h
    obtain ⟨-, h⟩ := raiseIf_bind_ok.mp h
    obtain ⟨callback, hcallback, h⟩ := bind_ok_iff.mp h
    split at h
    · cases h
    · split at h
      · cases h
      next telegramUserId huser =>
        cases h
        refine ⟨?_, strOf_ok hkey, (validateTelegramUserId_some huser).2,
          parseData_matches hcallback⟩
        unfold chatIdOf
        dsimp only
        rw [hquery, Option.getD_some, ← orEmpty_ok hmessage, ← orEmpty_ok hchat]

theorem stored_of_roundTrippable (h : roundTrippable repr normalized = true) :
    ((∃ n, normalized.chatId = .int n) ∨ ∃ stored, normalized.chatId = .str stored) ∧
      ((normalized.chatId.text? repr).any fun text => strip text ≠ []) = true ∧
        (normalized.updateId.all fun n => (validateTelegramUpdateId (.int n)).isSome) = true := by
  simp only [roundTrippable, Bool.and_eq_true] at h
  obtain ⟨⟨⟨⟨⟨-, hupdate⟩, hchat⟩, htext⟩, -⟩, -⟩ := h
  refine ⟨?_, htext, hupdate⟩
  cases hvalue : normalized.chatId with
  | int n => exact .inl ⟨n, rfl⟩
  | str stored => exact .inr ⟨stored, rfl⟩
  | _ =>
    rw [hvalue] at hchat
    cases hchat

theorem buildUpdateIdentityDigest_ok {updateId : Option ℤ}
    (h : (updateId.all fun n => (validateTelegramUpdateId (.int n)).isSome) = true) :
    ∃ stored, buildUpdateIdentityDigest digest updateId = .ok stored := by
  cases updateId with
  | none => exact ⟨none, rfl⟩
  | some n =>
    obtain ⟨valid, hvalid⟩ := Option.isSome_iff_exists.mp h
    exact ⟨some (digest valid), by rw [buildUpdateIdentityDigest, hvalid]⟩

section

variable (hnormal : Normal repr update normalized) (htrip : roundTrippable repr normalized = true)
include hnormal htrip

/-- Of what is stored only the chat is read again; the rest comes back as it was. -/
theorem rebuildNormalized_projection :
    ∃ row, normalizedEnvelopeProjection repr digest normalized = .ok row ∧
      rebuildNormalized row =
        (fun chatId => { normalized with chatId, updateId := none }) <$>
          rebuiltChatId normalized.chatIdKey := by
  obtain ⟨-, htext, hupdate⟩ := stored_of_roundTrippable htrip
  obtain ⟨stored, hstored⟩ := @buildUpdateIdentityDigest_ok digest _ hupdate
  have hkey : strOf repr normalized.chatId = .ok normalized.chatIdKey := by
    rw [strOf, hnormal.key]
  rw [hnormal.key, Option.any_some] at htext
  have huser := parseCanonical_canonical hnormal.user
  obtain ⟨haction, ⟨hshort, hhex⟩, hdigest, hnonce, hrevision⟩ := hnormal.callback
  refine ⟨normalized.row stored normalized.chatIdKey, ?_, ?_⟩
  · rw [normalizedEnvelopeProjection, hstored, ok_bind, hkey]
    rfl
  · unfold rebuildNormalized NormalizedCallback.row
    simp only [column, haction, hshort, hhex, hdigest, hnonce, hrevision, htext, huser,
      decide_true, Bool.and_self, if_true, ok_bind]
    cases rebuiltChatId normalized.chatIdKey with
    | error e => rfl
    | ok chatId => rfl

theorem rebuilt_iff_chat :
    (∃ row, normalizedEnvelopeProjection repr digest normalized = .ok row ∧
      rebuildNormalized row = .ok { normalized with updateId := none }) ↔
      ¬ ReadsAsNumber (chatIdOf update) := by
  obtain ⟨row, hrow, hrebuilt⟩ := @rebuildNormalized_projection _ digest _ _ hnormal htrip
  have hchat := rebuiltChatId_iff hnormal.key (stored_of_roundTrippable htrip).1
  rw [← hnormal.chat, ← hchat]
  constructor
  · rintro ⟨found, hfound, hok⟩
    cases hrow.symm.trans hfound
    rw [hrebuilt] at hok
    obtain ⟨chatId, hread, heq⟩ := map_eq_ok_iff.mp hok
    rw [hread, ← congrArg NormalizedCallback.chatId heq]
  · intro hread
    exact ⟨row, hrow, by rw [hrebuilt, hread]; rfl⟩

end

/-- A click that the ingress accepts is rebuilt as it was executed inline if and only if its
chat is no text that reads as a number. -/
theorem rebuilt_iff (repr : Json → Option Text) (digest : ℤ → Text) (allowlist : List Text)
    (update : Object) (normalized : NormalizedCallback)
    (hnormal : normalizeCallbackUpdate repr allowlist update = .ok normalized)
    (htrip : roundTrippable repr normalized = true) :
    (∃ row, normalizedEnvelopeProjection repr digest normalized = .ok row ∧
      rebuildNormalized row = .ok { normalized with updateId := none }) ↔
      ¬ ReadsAsNumber (chatIdOf update) :=
  rebuilt_iff_chat (normalizeCallbackUpdate_normal hnormal) htrip

private def click (chatId : Json) : Object :=
  [(ofString "callback_query", .obj [
    (ofString "id", .str (ofString "query")),
    (ofString "message", .obj [
      (ofString "chat", .obj [(ofString "id", chatId)]), (ofString "message_id", .int 7)]),
    (ofString "from", .obj [(ofString "id", .int 42)]),
    (ofString "data", .str (ofString "op:00000000:AAAAAAAAAAAAAAAAAAAAAA:1:AAAAAAAAAAAA:n"))])]

private theorem click_accepted {chatId : Json}
    (h : ((normalizeCallbackUpdate (fun _ => none) [ofString "123"] (click chatId)).toOption.any
      fun normalized => roundTrippable (fun _ => none) normalized) = true) :
    ∃ normalized, normalizeCallbackUpdate (fun _ => none) [ofString "123"] (click chatId) =
      .ok normalized ∧ roundTrippable (fun _ => none) normalized = true :=
  exists_ok_of_check (by simpa using h)

/-- A chat whose id is a number comes back as the number. -/
theorem rebuilt_iff_number :
    ∃ normalized row, normalizeCallbackUpdate (fun _ => none) [ofString "123"]
        (click (.int 123)) = .ok normalized ∧
      normalizedEnvelopeProjection (fun _ => none) (fun _ => []) normalized = .ok row ∧
        rebuildNormalized row = .ok { normalized with updateId := none } := by
  obtain ⟨normalized, hnormal, htrip⟩ := @click_accepted (.int 123) (by decide +kernel)
  obtain ⟨row, hrow, hrebuilt⟩ :=
    (rebuilt_iff (fun _ => none) (fun _ => []) _ _ normalized hnormal htrip).mpr not_false
  exact ⟨normalized, row, hnormal, hrow, hrebuilt⟩

/-- A click in a chat whose number is a text is accepted, and rebuilt with a number. -/
theorem text_chat_differs :
    ¬ ∀ (repr : Json → Option Text) (digest : ℤ → Text) (allowlist : List Text)
      (update : Object) (normalized : NormalizedCallback),
      normalizeCallbackUpdate repr allowlist update = .ok normalized →
        roundTrippable repr normalized = true →
          ∃ row, normalizedEnvelopeProjection repr digest normalized = .ok row ∧
            rebuildNormalized row = .ok { normalized with updateId := none } := by
  intro hall
  obtain ⟨normalized, hnormal, htrip⟩ :=
    @click_accepted (.str (ofString "123")) (by decide +kernel)
  have hrebuilt := hall (fun _ => none) (fun _ => []) _ _ normalized hnormal htrip
  refine (rebuilt_iff_chat (normalizeCallbackUpdate_normal hnormal) htrip).mp hrebuilt ?_
  change isDigits (unsigned (ofString "123")) = true
  decide

end KAssetTrader.InboxEnvelope
