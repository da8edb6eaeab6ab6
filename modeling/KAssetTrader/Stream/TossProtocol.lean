import KAssetTrader.Stream.Topics

/-!
The frames of the provider. A declaration is the whole subscription of a connection, with
the codes of each type together. An answer carries the id of the declaration; an error
leaves the subscription as it was.
-/

namespace KAssetTrader.Stream

/-- `str.rpartition(":")`, less the colon. -/
def rpartition (text : String) : String × String :=
  let chars := text.toList.reverse
  (String.ofList ((chars.dropWhile (· ≠ ':')).drop 1).reverse,
    String.ofList (chars.takeWhile (· ≠ ':')).reverse)

def declareTypeOrder : List String := ["trade:kr", "trade:us", "orderbook:kr", "orderbook:us"]

structure DeclareFrame where
  requestId : ℕ
  elements : List (String × List String)

/-- The grouping loop of `declare_frame`; none where it raises. -/
def groupCodes : List String → Dict String (List String) → Option (Dict String (List String))
  | [], grouped => some grouped
  | key :: rest, grouped =>
    let (familyMarket, code) := rpartition key
    if familyMarket = "" ∨ code = "" then none
    else groupCodes rest
      (grouped.set familyMarket ((grouped.get? familyMarket).getD [] ++ [code]))

/-- `sorted(set(codes))`. -/
def sortedCodes (codes : List String) : List String := codes.dedup.insertionSort (· ≤ ·)

def declareFrame (upstreamKeys : List String) (requestId : ℕ) : Option DeclareFrame :=
  (groupCodes upstreamKeys Dict.empty).map fun grouped =>
    let known := declareTypeOrder.filterMap fun type =>
      (grouped.get? type).map fun codes => (type, sortedCodes codes)
    let others := (grouped.entries.filter fun e => decide (e.1 ∉ declareTypeOrder)).map
      fun e => (e.1, sortedCodes e.2)
    { requestId, elements := known ++ others.insertionSort fun a b => a.1 ≤ b.1 }

def DeclareFrame.requested (frame : DeclareFrame) : List String :=
  frame.elements.flatMap fun e => e.2.map fun code => e.1 ++ ":" ++ code

/-- What `classify_error` answers. -/
inductive ErrorAction where
  | fatal
  | capacity
  | throttle
  | reconnect
  | connectionLimit
  | blocked
  | retry

def classifyError (code : String) : ErrorAction :=
  if code ∈ ["wrong-format", "no-type", "invalid-type", "no-codes"] then .fatal
  else if code ∈ ["too-many-topics"] then .capacity
  else if code ∈ ["rate-limit-exceeded"] then .throttle
  else if code ∈ ["server-shutdown"] then .reconnect
  else if code ∈ ["too-many"] then .connectionLimit
  else if code ∈ ["edge-blocked"] then .blocked
  else .retry

/-- `SubscriptionsAck`, with the targets that were rejected. -/
structure SubscriptionsAck where
  requestId : Option ℕ
  subscribed : List String
  rejected : List String

structure UpstreamError where
  code : String
  requestId : Option ℕ

/-- `DECLARE_MIN_INTERVAL_SECONDS`, in microseconds. -/
def declareMinInterval : Moment := 500000

/-- `RATE_LIMIT_BACKOFF_SECONDS`. -/
def rateLimitBackoff : Moment := 1000000

variable {key : String} {keys : List String} {grouped grouped' : Dict String (List String)}

theorem rpartition_join (h : (rpartition key).1 ≠ "") :
    (rpartition key).1 ++ ":" ++ (rpartition key).2 = key := by
  apply String.toList_inj.mp
  have hsplit := List.takeWhile_append_dropWhile (p := (· ≠ ':')) (l := key.toList.reverse)
  cases hrest : key.toList.reverse.dropWhile (· ≠ ':') with
  | nil =>
    refine absurd ?_ h
    simp only [rpartition, hrest]
    rfl
  | cons head tail =>
    have hhead : head = ':' := by
      have hfails := List.head?_dropWhile_not (· ≠ ':') key.toList.reverse
      rw [hrest] at hfails
      simpa using hfails
    rw [hrest, hhead] at hsplit
    have hkey := congrArg List.reverse hsplit
    rw [List.reverse_reverse] at hkey
    rw [← hkey]
    simp only [rpartition, hrest]
    simp

theorem mem_groupCodes (h : groupCodes keys grouped = some grouped') {type code : String} :
    code ∈ (grouped'.get? type).getD [] ↔
      code ∈ (grouped.get? type).getD [] ∨ ∃ key ∈ keys, rpartition key = (type, code) := by
  induction keys generalizing grouped with
  | nil =>
    cases h
    simp
  | cons head rest ih =>
    simp only [groupCodes] at h
    split at h
    · cases h
    · rw [ih h, Dict.get?_set]
      split
      next heq =>
        subst heq
        simp only [Option.getD_some, List.mem_append, List.mem_singleton,
          List.exists_mem_cons_iff, or_assoc]
        have hhead : rpartition head = ((rpartition head).1, code) ↔
            code = (rpartition head).2 := by
          rw [Prod.ext_iff]
          simp [eq_comm]
        rw [hhead]
      next hne =>
        have hhead : rpartition head ≠ (type, code) := by
          intro heq
          rw [heq] at hne
          exact hne rfl
        simp [hhead]

theorem splits_of_groupCodes (h : groupCodes keys grouped = some grouped') :
    ∀ key ∈ keys, (rpartition key).1 ≠ "" := by
  induction keys generalizing grouped with
  | nil => exact List.forall_mem_nil _
  | cons head rest ih =>
    simp only [groupCodes] at h
    split at h
    · cases h
    next hsplits =>
      intro key hkey
      rcases List.mem_cons.mp hkey with rfl | hrest
      · exact fun hempty => hsplits (.inl hempty)
      · exact ih h key hrest

theorem mem_requested {requestId : ℕ} {frame : DeclareFrame}
    (h : declareFrame keys requestId = some frame) : key ∈ frame.requested ↔ key ∈ keys := by
  obtain ⟨grouped, hgrouped, hframe⟩ := Option.map_eq_some_iff.mp h
  have hcodes : key ∈ frame.requested ↔
      ∃ type code, code ∈ (grouped.get? type).getD [] ∧ type ++ ":" ++ code = key := by
    rw [← hframe]
    simp only [DeclareFrame.requested, List.mem_flatMap, List.mem_map, List.mem_append,
      List.mem_filterMap, List.mem_insertionSort, List.mem_filter, decide_eq_true_iff,
      Option.map_eq_some_iff]
    constructor
    · rintro ⟨⟨type, codes⟩, hentry, code, hcode, hkey⟩
      refine ⟨type, code, ?_, hkey⟩
      rcases hentry with ⟨_, _, found, hfound, heq⟩ | ⟨⟨_, found⟩, ⟨hfound, _⟩, heq⟩
      · cases heq
        rw [hfound]
        simpa [sortedCodes] using hcode
      · cases heq
        rw [grouped.get?_eq_some.mpr hfound]
        simpa [sortedCodes] using hcode
    · rintro ⟨type, code, hcode, hkey⟩
      cases hget : grouped.get? type with
      | none =>
        rw [hget] at hcode
        exact absurd hcode List.not_mem_nil
      | some codes =>
        rw [hget] at hcode
        refine ⟨(type, sortedCodes codes), ?_, code, by simpa [sortedCodes] using hcode, hkey⟩
        by_cases hknown : type ∈ declareTypeOrder
        · exact .inl ⟨type, hknown, codes, hget, rfl⟩
        · exact .inr ⟨(type, codes), ⟨grouped.get?_eq_some.mp hget, hknown⟩, rfl⟩
  rw [hcodes]
  constructor
  · rintro ⟨type, code, hcode, rfl⟩
    rcases (mem_groupCodes hgrouped).mp hcode with hnone | ⟨source, hsource, hsplit⟩
    · exact absurd hnone List.not_mem_nil
    · have hjoin := rpartition_join (splits_of_groupCodes hgrouped source hsource)
      rw [hsplit] at hjoin
      rw [hjoin]
      exact hsource
  · intro hkey
    refine ⟨(rpartition key).1, (rpartition key).2, ?_,
      rpartition_join (splits_of_groupCodes hgrouped key hkey)⟩
    exact (mem_groupCodes hgrouped).mpr (.inr ⟨key, hkey, rfl⟩)

end KAssetTrader.Stream
