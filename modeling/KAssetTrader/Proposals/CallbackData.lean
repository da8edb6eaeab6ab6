import KAssetTrader.Library.Base64
import KAssetTrader.Proposals.Rows

/-!
The callback data of an approval button: the action, the start of the subject, the attempt,
the revision, the digest and the nonce, with colons between them, in at most 64 bytes. The
parser takes any text, one that no encoding has included. What was built is parsed back.
-/

namespace KAssetTrader.CallbackData

open Checked CodePoints
open Base64 (Byte digits pad rstripPad urlsafeEncode)
open Proposals (ApprovalCardKind)

inductive Raised where
  | valueError
  | unicodeEncodeError
  | binasciiError
  | typeError

/-- `isinstance(error, ValueError)` -/
def Raised.isValueError : Raised → Bool
  | .valueError => true
  | .unicodeEncodeError => true
  | .binasciiError => true
  | .typeError => false

def colon : CodePoint := 58

def baseDigit (d : ℕ) : CodePoint := Fin.ofNat 0x110000 (if d < 10 then 48 + d else 87 + d)

def baseDigit? (c : CodePoint) : Option ℕ :=
  if 48 ≤ c.val ∧ c.val ≤ 57 then some (c.val - 48)
  else if 97 ≤ c.val ∧ c.val ≤ 122 then some (c.val - 87)
  else none

/-- `[0-9a-f]` -/
def isHexDigit (c : CodePoint) : Bool :=
  (48 ≤ c.val && c.val ≤ 57) || (97 ≤ c.val && c.val ≤ 102)

/-- `[0-9a-z]` -/
def isBaseDigit (c : CodePoint) : Bool :=
  (48 ≤ c.val && c.val ≤ 57) || (97 ≤ c.val && c.val ≤ 122)

/-- `[A-Za-z0-9_-]` -/
def isUrlSafe (c : CodePoint) : Bool :=
  (65 ≤ c.val && c.val ≤ 90) || (97 ≤ c.val && c.val ≤ 122) || (48 ≤ c.val && c.val ≤ 57) ||
    c.val = 95 || c.val = 45

structure Uuid where
  bytes : List Byte
  length_bytes : bytes.length = 16

def Uuid.hex (id : Uuid) : Text :=
  id.bytes.flatMap fun b => [baseDigit (b.val / 16), baseDigit (b.val % 16)]

/-- `str(id)` -/
def Uuid.str (id : Uuid) : Text :=
  (ofString "-").intercalate
    [id.hex.take 8, (id.hex.drop 8).take 4, (id.hex.drop 12).take 4, (id.hex.drop 16).take 4,
      id.hex.drop 20]

def encodeUuid (id : Uuid) : Text := rstripPad (urlsafeEncode id.bytes)

/-- `_decode_uuid`; the padding that `value + "=="` restores. -/
def decodeUuid (value : Text) : Except Raised Uuid :=
  let decoded : Except Raised Uuid :=
    if ¬ value.all (fun c => c.val < 128) then .error .valueError
    else match Base64.decode (value ++ [pad, pad]) with
      | none => .error .binasciiError
      | some bytes => if h : bytes.length = 16 then .ok ⟨bytes, h⟩ else .error .valueError
  decoded.mapError fun _ => .valueError

/-- `_base36_encode`: the remainders of the division by 36, the last one first. -/
def base36Encode (value : ℕ) : Text := (Nat.digits 36 value).reverse.map baseDigit

/-- `_base36_decode`, of a text of digits and small letters. -/
def base36Decode (value : Text) : Except Raised ℤ :=
  match value.mapM baseDigit? with
  | none => .error .valueError
  | some found =>
    let decoded : ℕ := Nat.ofDigits 36 found.reverse
    if decoded = 0 then .error .valueError else .ok decoded

structure DispatchBinding where
  attemptId : Uuid
  cardKind : ApprovalCardKind
  membershipRevision : ℤ
  membershipDigest : Text

structure CallbackEnvelope where
  action : Text
  subjectShort : Text
  attemptId : Uuid
  membershipRevision : ℤ
  membershipDigest : Text
  nonce : Text

def allowedActions : List Text := ["op", "dn", "lc", "vc", "ba"].map ofString

def maxCallbackBytes : ℕ := 64

/-- `[A-Za-z0-9_-]+` -/
def isToken (text : Text) : Bool := text ≠ [] && text.all isUrlSafe

/-- `[A-Za-z0-9_-]{n}` -/
def isTokenOf (n : ℕ) (text : Text) : Bool := text.length = n && text.all isUrlSafe

/-- `text.encode("utf-8")` is of at most 64 bytes. -/
def checkBytes (text : Text) : Except Raised Unit :=
  match utf8Length? text with
  | none => .error .unicodeEncodeError
  | some n => raiseIf (maxCallbackBytes < n) .valueError

def buildCallbackData (action : Text) (proposalId : Uuid) (nonce : Text)
    (binding : DispatchBinding) : Except Raised Text := do
  raiseIf (action ∉ allowedActions) .valueError
  raiseIf (¬ isToken nonce) .valueError
  raiseIf (binding.membershipRevision ≤ 0) .valueError
  let revision := base36Encode binding.membershipRevision.toNat
  raiseIf (3 < revision.length) .valueError
  raiseIf (¬ isTokenOf 12 binding.membershipDigest) .valueError
  let data := [colon].intercalate
    [action, proposalId.str.take 8, encodeUuid binding.attemptId, revision,
      binding.membershipDigest, nonce]
  checkBytes data
  return data

/-- `_CALLBACK_PATTERN`: no class of it has a colon, so its groups are the parts between the
colons. -/
def callbackGroups (data : Text) : Option (Text × Text × Text × Text × Text × Text) :=
  match data.splitOn colon with
  | [action, proposalShort, attempt, revision, digest, nonce] =>
    if action ∈ allowedActions ∧ (proposalShort.length = 8 ∧ proposalShort.all isHexDigit) ∧
        isTokenOf 22 attempt ∧
        ((1 ≤ revision.length ∧ revision.length ≤ 3) ∧ revision.all isBaseDigit) ∧
        isTokenOf 12 digest ∧ isToken nonce then
      some (action, proposalShort, attempt, revision, digest, nonce)
    else none
  | _ => none

def parseCallbackData (data : Text) : Except Raised CallbackEnvelope := do
  checkBytes data
  match callbackGroups data with
  | none => .error .valueError
  | some (action, proposalShort, attempt, revision, digest, nonce) =>
    -- only a `ValueError` of the two decoders is turned into the one of the parser
    let decoded : Except Raised (Uuid × ℤ) := do
      let attemptId ← decodeUuid attempt
      let membershipRevision ← base36Decode revision
      return (attemptId, membershipRevision)
    let (attemptId, membershipRevision) ←
      decoded.mapError fun e => if e.isValueError then .valueError else e
    return {
      action, subjectShort := proposalShort, attemptId, membershipRevision
      membershipDigest := digest, nonce }

def envelopeOf (action : Text) (proposalId : Uuid) (nonce : Text) (binding : DispatchBinding) :
    CallbackEnvelope where
  action := action
  subjectShort := proposalId.str.take 8
  attemptId := binding.attemptId
  membershipRevision := binding.membershipRevision
  membershipDigest := binding.membershipDigest
  nonce := nonce

variable {c : CodePoint} {text action nonce data : Text} {id proposalId : Uuid}
  {binding : DispatchBinding} {envelope : CallbackEnvelope} {e : Raised} {n : ℕ}

@[simp] theorem baseDigit?_baseDigit {d : ℕ} (h : d < 36) : baseDigit? (baseDigit d) = some d := by
  interval_cases d <;> decide

theorem isBaseDigit_baseDigit {d : ℕ} (h : d < 36) : isBaseDigit (baseDigit d) = true := by
  interval_cases d <;> decide

theorem isHexDigit_baseDigit {d : ℕ} (h : d < 16) : isHexDigit (baseDigit d) = true := by
  interval_cases d <;> decide

theorem isUrlSafe_digit (v : Base64.Sextet) : isUrlSafe (Base64.digit v) = true := by
  revert v
  decide

theorem isUrlSafe_ascii (h : isUrlSafe c = true) : c.val < 128 ∧ c ≠ colon := by
  simp only [isUrlSafe, Bool.or_eq_true, Bool.and_eq_true, decide_eq_true_eq] at h
  refine ⟨by omega, ?_⟩
  rintro rfl
  simp only [colon] at h
  omega

theorem isHexDigit_ascii (h : isHexDigit c = true) : c.val < 128 ∧ c ≠ colon := by
  simp only [isHexDigit, Bool.or_eq_true, Bool.and_eq_true, decide_eq_true_eq] at h
  refine ⟨by omega, ?_⟩
  rintro rfl
  simp only [colon] at h
  omega

theorem isBaseDigit_ascii (h : isBaseDigit c = true) : c.val < 128 ∧ c ≠ colon := by
  simp only [isBaseDigit, Bool.or_eq_true, Bool.and_eq_true, decide_eq_true_eq] at h
  refine ⟨by omega, ?_⟩
  rintro rfl
  simp only [colon] at h
  omega

theorem allowedActions_ascii (h : action ∈ allowedActions) :
    ∀ c ∈ action, c.val < 128 ∧ c ≠ colon := by
  have hall : allowedActions.all (fun a => a.all fun c => c.val < 128 ∧ c ≠ colon) = true := by
    decide
  intro c hc
  exact of_decide_eq_true (List.all_eq_true.mp (List.all_eq_true.mp hall action h) c hc)

theorem isBaseDigit_of_mem (h : c ∈ base36Encode n) : isBaseDigit c = true := by
  obtain ⟨d, hd, rfl⟩ := List.mem_map.mp h
  exact isBaseDigit_baseDigit (Nat.digits_lt_base (by norm_num) (List.mem_reverse.mp hd))

theorem base36Encode_ne_nil (h : 0 < n) : 1 ≤ (base36Encode n).length := by
  have hne : Nat.digits 36 n ≠ [] := Nat.digits_ne_nil_iff_ne_zero.mpr h.ne'
  rw [base36Encode, List.length_map, List.length_reverse]
  exact List.length_pos_iff.mpr hne

theorem base36Decode_encode (h : 0 < n) : base36Decode (base36Encode n) = .ok n := by
  have hdigits : (base36Encode n).mapM baseDigit? = some (Nat.digits 36 n).reverse := by
    have hlt : ∀ d ∈ (Nat.digits 36 n).reverse, d < 36 := fun d hd =>
      Nat.digits_lt_base (by norm_num) (List.mem_reverse.mp hd)
    unfold base36Encode
    generalize (Nat.digits 36 n).reverse = found at hlt
    induction found with
    | nil => rfl
    | cons d rest ih =>
      rw [List.map_cons, List.mapM_cons, baseDigit?_baseDigit (hlt d List.mem_cons_self),
        ih fun k hk => hlt k (List.mem_cons_of_mem d hk)]
      rfl
  unfold base36Decode
  rw [hdigits]
  dsimp only
  rw [List.reverse_reverse, Nat.ofDigits_digits, if_neg h.ne']

theorem base36Decode_pos {r : ℤ} (h : base36Decode text = .ok r) : 0 < r := by
  unfold base36Decode at h
  split at h
  · cases h
  · dsimp only at h
    split_ifs at h with hzero
    cases h
    omega

theorem base36Decode_error (h : base36Decode text = .error e) : e = .valueError := by
  unfold base36Decode at h
  split at h
  · exact (Except.error.inj h).symm
  · dsimp only at h
    split_ifs at h
    exact (Except.error.inj h).symm

theorem encodeUuid_eq (id : Uuid) : encodeUuid id = digits id.bytes :=
  Base64.rstripPad_urlsafeEncode id.bytes

theorem isTokenOf_encodeUuid (id : Uuid) : isTokenOf 22 (encodeUuid id) = true := by
  have hlength : (encodeUuid id).length = 22 := by
    rw [encodeUuid_eq, Base64.length_digits, id.length_bytes]
  have hall : (encodeUuid id).all isUrlSafe = true := by
    rw [List.all_eq_true, encodeUuid_eq]
    intro c hc
    obtain ⟨v, rfl⟩ := Base64.mem_digits hc
    exact isUrlSafe_digit v
  rw [isTokenOf, hall, hlength]
  rfl

theorem isTokenOf_ascii (h : isTokenOf n text = true) : ∀ c ∈ text, c.val < 128 ∧ c ≠ colon := by
  intro c hc
  rw [isTokenOf, Bool.and_eq_true] at h
  exact isUrlSafe_ascii (List.all_eq_true.mp h.2 c hc)

theorem isToken_ascii (h : isToken text = true) : ∀ c ∈ text, c.val < 128 ∧ c ≠ colon := by
  intro c hc
  rw [isToken, Bool.and_eq_true] at h
  exact isUrlSafe_ascii (List.all_eq_true.mp h.2 c hc)

theorem all_ascii (h : isTokenOf n text = true) : text.all (fun c => c.val < 128) = true :=
  List.all_eq_true.mpr fun c hc => decide_eq_true (isTokenOf_ascii h c hc).1

/-- The padding that was cut off is what the decoder puts back. -/
theorem decodeUuid_encodeUuid (id : Uuid) : decodeUuid (encodeUuid id) = .ok id := by
  have hascii := all_ascii (isTokenOf_encodeUuid id)
  have hpadded : encodeUuid id ++ [pad, pad] = urlsafeEncode id.bytes := by
    rw [encodeUuid_eq, urlsafeEncode, id.length_bytes]
    rfl
  unfold decodeUuid
  dsimp only
  rw [if_neg (not_not.mpr hascii), hpadded, Base64.decode_urlsafeEncode]
  dsimp only
  rw [dif_pos id.length_bytes]
  rfl

theorem decodeUuid_error (h : decodeUuid text = .error e) : e = .valueError := by
  unfold decodeUuid at h
  dsimp only at h
  generalize (if ¬ (text.all fun c => decide (c.val < 128)) = true then
    (.error .valueError : Except Raised Uuid) else _) = decoded at h
  cases decoded with
  | error found => exact (Except.error.inj h).symm
  | ok found => cases h

theorem mem_hex (h : c ∈ id.hex) : isHexDigit c = true := by
  obtain ⟨b, -, hc⟩ := List.mem_flatMap.mp h
  have hb := b.isLt
  simp only [List.mem_cons, List.not_mem_nil, or_false] at hc
  rcases hc with rfl | rfl
  · exact isHexDigit_baseDigit (by omega)
  · exact isHexDigit_baseDigit (by omega)

theorem length_hex (id : Uuid) : id.hex.length = 32 := by
  rw [Uuid.hex, List.length_flatMap]
  simp [id.length_bytes]

/-- The start of an identifier is the digits before its first hyphen. -/
theorem take_str (id : Uuid) : id.str.take 8 = id.hex.take 8 := by
  have hlength : (id.hex.take 8).length = 8 := by
    rw [List.length_take, length_hex]
    rfl
  rw [Uuid.str, List.intercalate_cons_cons]
  rw [List.append_assoc, List.take_append_of_le_length hlength.ge, List.take_take]
  rfl

theorem short_matches (id : Uuid) :
    (id.str.take 8).length = 8 ∧ (id.str.take 8).all isHexDigit = true := by
  rw [take_str]
  refine ⟨?_, List.all_eq_true.mpr fun c hc => mem_hex (List.mem_of_mem_take hc)⟩
  rw [List.length_take, length_hex]
  rfl

theorem checkBytes_ok_iff :
    checkBytes text = .ok () ↔ ∃ n, utf8Length? text = some n ∧ n ≤ maxCallbackBytes := by
  unfold checkBytes
  cases utf8Length? text with
  | none => simp
  | some n =>
    dsimp only
    unfold raiseIf
    split_ifs with hlong
    · simp only [Option.some.injEq, exists_eq_left', false_iff]
      omega
    · simp only [Option.some.injEq, exists_eq_left', true_iff]
      omega

theorem checkBytes_error (h : checkBytes text = .error e) : e.isValueError = true := by
  unfold checkBytes raiseIf at h
  split at h
  · cases h
    rfl
  · split_ifs at h
    cases h
    rfl

structure Buildable (action nonce : Text) (binding : DispatchBinding) : Prop where
  action_mem : action ∈ allowedActions
  nonce_token : isToken nonce = true
  revision_pos : 0 < binding.membershipRevision
  revision_length : (base36Encode binding.membershipRevision.toNat).length ≤ 3
  digest_token : isTokenOf 12 binding.membershipDigest = true

def fields (action : Text) (proposalId : Uuid) (nonce : Text) (binding : DispatchBinding) :
    List Text :=
  [action, proposalId.str.take 8, encodeUuid binding.attemptId,
    base36Encode binding.membershipRevision.toNat, binding.membershipDigest, nonce]

theorem buildCallbackData_ok (h : buildCallbackData action proposalId nonce binding = .ok data) :
    Buildable action nonce binding ∧
      data = [colon].intercalate (fields action proposalId nonce binding) ∧
      checkBytes data = .ok () := by
  unfold buildCallbackData at h
  obtain ⟨haction, h⟩ := raiseIf_bind_ok.mp h
  obtain ⟨hnonce, h⟩ := raiseIf_bind_ok.mp h
  obtain ⟨hrevision, h⟩ := raiseIf_bind_ok.mp h
  obtain ⟨hlength, h⟩ := raiseIf_bind_ok.mp h
  obtain ⟨hdigest, h⟩ := raiseIf_bind_ok.mp h
  obtain ⟨⟨⟩, hbytes, h⟩ := bind_ok_iff.mp h
  cases h
  exact ⟨⟨not_not.mp haction, not_not.mp hnonce, not_le.mp hrevision, not_lt.mp hlength,
    not_not.mp hdigest⟩, rfl, hbytes⟩

namespace Buildable

variable (h : Buildable action nonce binding)

include h in
theorem revision_matches :
    (1 ≤ (base36Encode binding.membershipRevision.toNat).length ∧
      (base36Encode binding.membershipRevision.toNat).length ≤ 3) ∧
      (base36Encode binding.membershipRevision.toNat).all isBaseDigit = true := by
  have hpos := h.revision_pos
  exact ⟨⟨base36Encode_ne_nil (by omega), h.revision_length⟩,
    List.all_eq_true.mpr fun c hc => isBaseDigit_of_mem hc⟩

include h in
theorem ascii (proposalId : Uuid) {field : Text}
    (hfield : field ∈ fields action proposalId nonce binding) :
    ∀ c ∈ field, c.val < 128 ∧ c ≠ colon := by
  simp only [fields, List.mem_cons, List.not_mem_nil, or_false] at hfield
  rcases hfield with rfl | rfl | rfl | rfl | rfl | rfl
  · exact allowedActions_ascii h.action_mem
  · exact fun c hc =>
      isHexDigit_ascii (List.all_eq_true.mp (short_matches proposalId).2 c hc)
  · exact isTokenOf_ascii (isTokenOf_encodeUuid binding.attemptId)
  · exact fun c hc => isBaseDigit_ascii (isBaseDigit_of_mem hc)
  · exact isTokenOf_ascii h.digest_token
  · exact isToken_ascii h.nonce_token

include h in
theorem callbackGroups_intercalate (proposalId : Uuid) :
    callbackGroups ([colon].intercalate (fields action proposalId nonce binding)) =
      some (action, proposalId.str.take 8, encodeUuid binding.attemptId,
        base36Encode binding.membershipRevision.toNat, binding.membershipDigest, nonce) := by
  have hcolon : ∀ field ∈ fields action proposalId nonce binding, colon ∉ field :=
    fun field hfield hmem => (h.ascii proposalId hfield colon hmem).2 rfl
  unfold callbackGroups
  rw [List.splitOn_intercalate colon hcolon (List.cons_ne_nil _ _)]
  dsimp only [fields]
  rw [if_pos ⟨h.action_mem, short_matches proposalId, isTokenOf_encodeUuid binding.attemptId,
    h.revision_matches, h.digest_token, h.nonce_token⟩]

end Buildable

theorem parse_of_build (h : buildCallbackData action proposalId nonce binding = .ok data) :
    parseCallbackData data = .ok (envelopeOf action proposalId nonce binding) := by
  obtain ⟨hbuildable, hdata, hbytes⟩ := buildCallbackData_ok h
  have hpos := hbuildable.revision_pos
  have hrevision := base36Decode_encode (n := binding.membershipRevision.toNat) (by omega)
  have hcast : (binding.membershipRevision.toNat : ℤ) = binding.membershipRevision := by omega
  unfold parseCallbackData
  rw [hbytes, hdata, hbuildable.callbackGroups_intercalate proposalId]
  simp only [ok_bind, decodeUuid_encodeUuid, hrevision, hcast]
  rfl

theorem callbackData_length (h : buildCallbackData action proposalId nonce binding = .ok data) :
    ∃ n, utf8Length? data = some n ∧ n ≤ 64 :=
  checkBytes_ok_iff.mp (buildCallbackData_ok h).2.2

theorem parseCallbackData_total (data : Text) :
    (∃ envelope, parseCallbackData data = .ok envelope ∧ 0 < envelope.membershipRevision) ∨
      ∃ e, parseCallbackData data = .error e ∧ e.isValueError = true := by
  unfold parseCallbackData
  cases hbytes : checkBytes data with
  | error e => exact .inr ⟨e, rfl, checkBytes_error hbytes⟩
  | ok _ =>
    rw [ok_bind]
    split
    · exact .inr ⟨_, rfl, rfl⟩
    next attempt revision digest _ _ =>
      cases hattempt : decodeUuid attempt with
      | error e =>
        obtain rfl := decodeUuid_error hattempt
        exact .inr ⟨_, rfl, rfl⟩
      | ok attemptId =>
        cases hrevision : base36Decode revision with
        | error e =>
          obtain rfl := base36Decode_error hrevision
          exact .inr ⟨_, rfl, rfl⟩
        | ok r => exact .inl ⟨_, rfl, base36Decode_pos hrevision⟩

structure CallbackEnvelope.Matches (envelope : CallbackEnvelope) : Prop where
  action_mem : envelope.action ∈ allowedActions
  subject : envelope.subjectShort.length = 8 ∧ envelope.subjectShort.all isHexDigit = true
  digest : isTokenOf 12 envelope.membershipDigest = true
  nonce : isToken envelope.nonce = true
  revision_pos : 0 < envelope.membershipRevision

theorem parseCallbackData_matches (h : parseCallbackData data = .ok envelope) :
    envelope.Matches := by
  unfold parseCallbackData at h
  obtain ⟨_, -, h⟩ := bind_ok_iff.mp h
  split at h
  · cases h
  next action short attempt revision digest nonce hgroups =>
    unfold callbackGroups at hgroups
    split at hgroups
    · split_ifs at hgroups with hmatch
      cases hgroups
      obtain ⟨haction, hshort, -, -, hdigest, hnonce⟩ := hmatch
      obtain ⟨⟨attemptId, r⟩, hdecoded, h⟩ := bind_ok_iff.mp h
      cases h
      refine ⟨haction, hshort, hdigest, hnonce, ?_⟩
      cases hattempt : decodeUuid attempt with
      | error e =>
        rw [hattempt] at hdecoded
        cases hdecoded
      | ok id =>
        cases hrevision : base36Decode revision with
        | error e =>
          rw [hattempt, hrevision] at hdecoded
          cases hdecoded
        | ok found =>
          rw [hattempt, hrevision] at hdecoded
          cases hdecoded
          exact base36Decode_pos hrevision
    · cases hgroups

/-- What is built fits into a button and is parsed back, so that data of distinct envelopes is
distinct; any text is parsed to an envelope with a positive revision, or refused with a
`ValueError`. -/
theorem callback_codec :
    (∀ action proposalId nonce binding data,
      buildCallbackData action proposalId nonce binding = .ok data →
        (∃ n, utf8Length? data = some n ∧ n ≤ 64) ∧
          parseCallbackData data = .ok (envelopeOf action proposalId nonce binding)) ∧
      (∀ action proposalId nonce binding data action' proposalId' nonce' binding' data',
        buildCallbackData action proposalId nonce binding = .ok data →
          buildCallbackData action' proposalId' nonce' binding' = .ok data' →
            envelopeOf action proposalId nonce binding ≠
              envelopeOf action' proposalId' nonce' binding' → data ≠ data') ∧
        ∀ data, (∃ envelope, parseCallbackData data = .ok envelope ∧
            0 < envelope.membershipRevision) ∨
          ∃ e, parseCallbackData data = .error e ∧ e.isValueError = true := by
  refine ⟨fun action proposalId nonce binding data h => ?_, ?_, parseCallbackData_total⟩
  · exact ⟨callbackData_length h, parse_of_build h⟩
  · rintro action proposalId nonce binding data action' proposalId' nonce' binding' _ h h' hne rfl
    exact hne (Except.ok.inj ((parse_of_build h).symm.trans (parse_of_build h')))

private def sampleId : Uuid := ⟨List.replicate 16 251, rfl⟩

private def sampleBinding : DispatchBinding where
  attemptId := sampleId
  cardKind := .manual
  membershipRevision := 46655
  membershipDigest := ofString "AZaz09_-AZaz"

/-- The data of one button. -/
theorem callback_codec_button :
    ∃ data, buildCallbackData (ofString "op") sampleId (ofString "nonce_12-345") sampleBinding =
        .ok data ∧
      (∃ n, utf8Length? data = some n ∧ n ≤ 64) ∧
        parseCallbackData data =
          .ok (envelopeOf (ofString "op") sampleId (ofString "nonce_12-345") sampleBinding) := by
  have hbuilt : ∃ data, buildCallbackData (ofString "op") sampleId (ofString "nonce_12-345")
      sampleBinding = .ok data ∧ utf8Length? data = some 64 :=
    exists_ok_of_check (by decide +kernel)
  obtain ⟨data, hdata, -⟩ := hbuilt
  exact ⟨data, hdata, callback_codec.1 _ _ _ _ _ hdata⟩

end KAssetTrader.CallbackData
