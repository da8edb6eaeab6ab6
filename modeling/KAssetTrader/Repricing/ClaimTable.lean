import KAssetTrader.Repricing.Claims

/-!
What one statement does to the claim table. Every statement but the insert only closes
or deletes claims that are started; the insert adds the generation after one that has
expired. The shape of the table follows: the generations of an event are filled from
below, and while one of them is started the others have expired.
-/

namespace KAssetTrader.Repricing

open Dict

variable {row : ClaimRow} {rows t : Claims}

section Table

variable {id j : ℕ} {r : ClaimRow} {now : Instant}

/-- A terminal written over a started row: nothing else of the row changes. -/
structure Closes (row closed : ClaimRow) : Prop where
  started : row.state = .started
  ended : closed.state ≠ .started
  eventUuid : closed.eventUuid = row.eventUuid
  symbol : closed.symbol = row.symbol
  generation : closed.generation = row.generation
  ownerToken : closed.ownerToken = row.ownerToken

inductive RowMove (before : ClaimRow) : Option ClaimRow → Prop
  | same : RowMove before (some before)
  | closed {after : ClaimRow} : Closes before after → RowMove before (some after)
  | deleted : before.state = .started → RowMove before none

/-- A statement that inserts nothing, and that only writes rows that meet a condition. -/
structure Writes (p : ℕ → ClaimRow → Bool) (rows t : Claims) : Prop where
  move : ∀ id row, rows.get? id = some row → RowMove row (t.get? id)
  frame : ∀ id row, rows.get? id = some row → p id row = false → t.get? id = some row
  noNew : ∀ id row, t.get? id = some row → ∃ before, rows.get? id = some before

variable {p : ℕ → ClaimRow → Bool}

theorem Writes.before (h : Writes p rows t) (hr : t.get? id = some r) :
    ∃ row, rows.get? id = some row ∧ (r = row ∨ Closes row r) := by
  obtain ⟨row, hrow⟩ := h.noNew id r hr
  refine ⟨row, hrow, ?_⟩
  have hmove := h.move id row hrow
  rw [hr] at hmove
  cases hmove with
  | same => exact .inl rfl
  | closed hcloses => exact .inr hcloses

theorem Writes.ended (h : Writes p rows t) (hrow : rows.get? id = some row)
    (hended : row.state ≠ .started) : t.get? id = some row := by
  have hmove := h.move id row hrow
  revert hmove
  cases t.get? id with
  | none => intro hmove; cases hmove with | deleted hs => exact absurd hs hended
  | some after =>
    intro hmove
    cases hmove with
    | same => rfl
    | closed hcloses => exact absurd hcloses.started hended

theorem ClaimRow.expire_closes (h : row.state = .started) : Closes row (row.expire now) :=
  ⟨h, by simp [ClaimRow.expire], rfl, rfl, rfl, rfl⟩

theorem ClaimRow.finalise_closes (outcome : SessionOutcome) (h : row.state = .started) :
    Closes row (row.finalise outcome now) :=
  ⟨h, outcome.state_ne_started, rfl, rfl, rfl, rfl⟩

theorem writes_mapValues {f : ClaimRow → ClaimRow}
    (hclose : ∀ id row, p id row = true → Closes row (f row)) :
    Writes p rows (rows.mapValues fun id row => if p id row = true then f row else row) := by
  constructor
  · intro id row hrow
    rw [get?_mapValues, hrow, Option.map_some]
    split
    next hp => exact .closed (hclose id row hp)
    · exact .same
  · intro id row hrow hp
    rw [get?_mapValues, hrow, Option.map_some, if_neg (by simp [hp])]
  · intro id row hrow
    rw [get?_mapValues] at hrow
    obtain ⟨before, hbefore, _⟩ := Option.map_eq_some_iff.mp hrow
    exact ⟨before, hbefore⟩

theorem sweepExpired_writes : Writes (fun _ row => row.lapsed now) rows (sweepExpired rows now) :=
  writes_mapValues fun _ _ h => ClaimRow.expire_closes (of_decide_eq_true h).1

theorem expireRow_writes :
    Writes (fun key row => decide (key = id ∧ row.state = .started)) rows
      (expireRow rows id now) := by
  have h : Writes (fun key row => decide (key = id ∧ row.state = .started)) rows _ :=
    writes_mapValues (f := (·.expire now))
      fun _ _ h => ClaimRow.expire_closes (of_decide_eq_true h).2
  simp only [decide_eq_true_eq] at h
  exact h

/-- The lapsed claim that the transaction expires, in its own view of the table. -/
theorem get?_expireRow (hrow : rows.get? id = some row) (hstarted : row.state = .started) :
    (expireRow rows id now).get? id = some (row.expire now) := by
  rw [expireRow, get?_mapValues, hrow, Option.map_some, if_pos ⟨rfl, hstarted⟩]

variable {handle : ClaimHandle} {outcome : SessionOutcome}

theorem heldBy_iff : row.heldBy handle = true ↔
    row.eventUuid = handle.eventUuid ∧ row.generation = handle.generation ∧
      row.ownerToken = handle.ownerToken ∧ row.state = .started :=
  decide_eq_true_iff

theorem any_heldBy_iff : (rows.values.any fun row => row.heldBy handle) = true ↔
    ∃ id row, rows.get? id = some row ∧ row.heldBy handle = true := by
  simp only [List.any_eq_true, values, List.mem_map, Prod.exists, get?_eq_some]
  constructor
  · rintro ⟨row, ⟨id, _, hmem, rfl⟩, hheld⟩
    exact ⟨id, _, hmem, hheld⟩
  · rintro ⟨id, row, hmem, hheld⟩
    exact ⟨row, ⟨id, row, hmem, rfl⟩, hheld⟩

theorem finalise_ok_iff : finalise rows handle outcome now = .ok t ↔
    (∃ id row, rows.get? id = some row ∧ row.heldBy handle = true) ∧
      t = rows.mapValues fun _ row =>
        if row.heldBy handle = true then row.finalise outcome now else row := by
  rw [← any_heldBy_iff, finalise]
  split
  next h =>
    rw [Except.ok.injEq, and_iff_right h]
    exact eq_comm
  next h => simp [h]

theorem release_ok_iff : release rows handle = .ok t ↔
    (∃ id row, rows.get? id = some row ∧ row.heldBy handle = true) ∧
      t = rows.filter fun _ row => !row.heldBy handle := by
  rw [← any_heldBy_iff, release]
  split
  next h =>
    rw [Except.ok.injEq, and_iff_right h]
    exact eq_comm
  next h => simp [h]

theorem finalise_writes (h : finalise rows handle outcome now = .ok t) :
    Writes (fun _ row => row.heldBy handle) rows t := by
  obtain ⟨_, rfl⟩ := finalise_ok_iff.mp h
  exact writes_mapValues fun _ _ hheld =>
    ClaimRow.finalise_closes outcome (heldBy_iff.mp hheld).2.2.2

theorem release_writes (h : release rows handle = .ok t) :
    Writes (fun _ row => row.heldBy handle) rows t := by
  obtain ⟨_, rfl⟩ := release_ok_iff.mp h
  constructor
  · intro id row hrow
    cases hheld : row.heldBy handle with
    | true =>
      have hnone : (rows.filter fun _ row => !row.heldBy handle).get? id = none := by
        rw [Option.eq_none_iff_forall_ne_some]
        intro r hr
        obtain ⟨hrow', hnot⟩ := (rows.get?_filter_eq_some).mp hr
        cases hrow.symm.trans hrow'
        simp [hheld] at hnot
      rw [hnone]
      exact .deleted (heldBy_iff.mp hheld).2.2.2
    | false =>
      rw [(rows.get?_filter_eq_some).mpr ⟨hrow, by simp [hheld]⟩]
      exact .same
  · intro id row hrow hheld
    exact (rows.get?_filter_eq_some).mpr ⟨hrow, by simp [hheld]⟩
  · intro id row hrow
    exact ⟨row, ((rows.get?_filter_eq_some).mp hrow).1⟩

end Table

variable {call : ClaimCall}

section Shape

/-- What the table keeps. The generations of an event are filled from below, and every
generation under the last one has expired. -/
structure Shape (rows : Claims) (nextId : ℕ) (tokens : List ℕ) : Prop where
  ids : ∀ id row, rows.get? id = some row → id < nextId
  positive : ∀ id row, rows.get? id = some row → 1 ≤ row.generation
  tokens : ∀ id row, rows.get? id = some row → row.ownerToken ∈ tokens
  keys : ∀ id row j r, rows.get? id = some row → rows.get? j = some r →
    row.eventUuid = r.eventUuid → row.generation = r.generation → id = j
  oneSymbol : ∀ id row j r, rows.get? id = some row → rows.get? j = some r →
    row.state = .started → r.state = .started → row.symbol = r.symbol → id = j
  filled : ∀ id row g, rows.get? id = some row → 1 ≤ g → g < row.generation →
    ∃ j r, rows.get? j = some r ∧ r.eventUuid = row.eventUuid ∧ r.generation = g ∧
      r.state = .expiredUnprocessed

variable {nextId : ℕ} {tokens : List ℕ} {new : ClaimRow}

theorem Shape.writes {p : ℕ → ClaimRow → Bool} (h : Shape rows nextId tokens)
    (hw : Writes p rows t) : Shape t nextId tokens := by
  have hback : ∀ id r, t.get? id = some r → ∃ row, rows.get? id = some row ∧
      r.eventUuid = row.eventUuid ∧ r.symbol = row.symbol ∧ r.generation = row.generation ∧
      r.ownerToken = row.ownerToken ∧ (r.state = .started → row.state = .started) := by
    intro id r hr
    obtain ⟨row, hrow, rfl | hcloses⟩ := hw.before hr
    · exact ⟨_, hrow, rfl, rfl, rfl, rfl, fun hs => hs⟩
    · exact ⟨row, hrow, hcloses.eventUuid, hcloses.symbol, hcloses.generation,
        hcloses.ownerToken, fun _ => hcloses.started⟩
  constructor
  · intro id r hr
    obtain ⟨row, hrow, _⟩ := hback id r hr
    exact h.ids id row hrow
  · intro id r hr
    obtain ⟨row, hrow, _, _, hgeneration, _⟩ := hback id r hr
    rw [hgeneration]
    exact h.positive id row hrow
  · intro id r hr
    obtain ⟨row, hrow, _, _, _, htoken, _⟩ := hback id r hr
    rw [htoken]
    exact h.tokens id row hrow
  · intro id r j s hr hs hevent hgeneration
    obtain ⟨row, hrow, hevent₁, _, hgeneration₁, _⟩ := hback id r hr
    obtain ⟨row', hrow', hevent₂, _, hgeneration₂, _⟩ := hback j s hs
    apply h.keys id row j row' hrow hrow'
    · rw [← hevent₁, ← hevent₂, hevent]
    · rw [← hgeneration₁, ← hgeneration₂, hgeneration]
  · intro id r j s hr hs hrs hss hsymbol
    obtain ⟨row, hrow, _, hsymbol₁, _, _, hstarted₁⟩ := hback id r hr
    obtain ⟨row', hrow', _, hsymbol₂, _, _, hstarted₂⟩ := hback j s hs
    apply h.oneSymbol id row j row' hrow hrow' (hstarted₁ hrs) (hstarted₂ hss)
    rw [← hsymbol₁, ← hsymbol₂, hsymbol]
  · intro id r g hr hpos hlt
    obtain ⟨row, hrow, hevent, _, hgeneration, _⟩ := hback id r hr
    obtain ⟨j, s, hs, hsevent, hsgeneration, hstate⟩ :=
      h.filled id row g hrow hpos (by omega)
    exact ⟨j, s, hw.ended hs (by simp [hstate]), hsevent.trans hevent.symm, hsgeneration, hstate⟩

theorem insertRow_ok_iff : insertRow rows nextId new = .ok t ↔
    (∀ id row, rows.get? id = some row → row.conflicts new = false) ∧
      t = rows.set nextId new := by
  have hany : (rows.values.any fun row => row.conflicts new) = true ↔
      ∃ id row, rows.get? id = some row ∧ row.conflicts new = true := by
    simp only [List.any_eq_true, values, List.mem_map, Prod.exists, get?_eq_some]
    constructor
    · rintro ⟨row, ⟨id, _, hmem, rfl⟩, hconflicts⟩
      exact ⟨id, _, hmem, hconflicts⟩
    · rintro ⟨id, row, hmem, hconflicts⟩
      exact ⟨row, ⟨id, row, hmem, rfl⟩, hconflicts⟩
  unfold insertRow
  split
  next h =>
    obtain ⟨id, row, hrow, hconflicts⟩ := hany.mp h
    constructor
    · intro hok
      cases hok
    · rintro ⟨hfree, _⟩
      rw [hfree id row hrow] at hconflicts
      cases hconflicts
  next h =>
    rw [Except.ok.injEq]
    constructor
    · intro heq
      refine ⟨fun id row hrow => ?_, heq.symm⟩
      cases hconflicts : row.conflicts new with
      | false => rfl
      | true => exact absurd (hany.mpr ⟨id, row, hrow, hconflicts⟩) h
    · rintro ⟨_, rfl⟩
      rfl

theorem conflicts_eq_false (h : row.conflicts new = false) :
    ¬ (row.eventUuid = new.eventUuid ∧ row.generation = new.generation) ∧
      ¬ (row.state = .started ∧ row.symbol = new.symbol) :=
  not_or.mp (of_decide_eq_false h)

def Follows (rows : Claims) (event : EventUuid) (generation : ℕ) : Prop :=
  generation = 1 ∨ ∃ id row, rows.get? id = some row ∧ row.eventUuid = event ∧
    row.generation + 1 = generation ∧ row.state = .expiredUnprocessed

theorem Shape.insert (h : Shape rows nextId tokens) (hins : insertRow rows nextId new = .ok t)
    (htoken : new.ownerToken ∉ tokens)
    (hfollows : Follows rows new.eventUuid new.generation) :
    Shape t (nextId + 1) (new.ownerToken :: tokens) := by
  obtain ⟨hfree, rfl⟩ := insertRow_ok_iff.mp hins
  have hback : ∀ {id r}, (rows.set nextId new).get? id = some r →
      (id = nextId ∧ r = new) ∨ (id ≠ nextId ∧ rows.get? id = some r) := of_get?_set
  have hold : ∀ {id row}, rows.get? id = some row →
      (rows.set nextId new).get? id = some row := by
    intro id row hrow
    rw [get?_set, if_neg (Nat.ne_of_lt (h.ids id row hrow)), hrow]
  constructor
  · intro id r hr
    rcases hback hr with ⟨rfl, _⟩ | ⟨_, hr⟩
    · omega
    · have := h.ids id r hr
      omega
  · intro id r hr
    rcases hback hr with ⟨_, rfl⟩ | ⟨_, hr⟩
    · rcases hfollows with hone | ⟨_, _, _, _, hnext, _⟩ <;> omega
    · exact h.positive id r hr
  · intro id r hr
    rcases hback hr with ⟨_, rfl⟩ | ⟨_, hr⟩
    · exact List.mem_cons_self
    · exact List.mem_cons_of_mem _ (h.tokens id r hr)
  · intro id r j s hr hs hevent hgeneration
    rcases hback hr with ⟨rfl, rfl⟩ | ⟨_, hr'⟩ <;> rcases hback hs with ⟨rfl, rfl⟩ | ⟨_, hs'⟩
    · rfl
    · exact absurd ⟨hevent.symm, hgeneration.symm⟩ (conflicts_eq_false (hfree j s hs')).1
    · exact absurd ⟨hevent, hgeneration⟩ (conflicts_eq_false (hfree id r hr')).1
    · exact h.keys id r j s hr' hs' hevent hgeneration
  · intro id r j s hr hs hrs hss hsymbol
    rcases hback hr with ⟨rfl, rfl⟩ | ⟨_, hr'⟩ <;> rcases hback hs with ⟨rfl, rfl⟩ | ⟨_, hs'⟩
    · rfl
    · exact absurd ⟨hss, hsymbol.symm⟩ (conflicts_eq_false (hfree j s hs')).2
    · exact absurd ⟨hrs, hsymbol⟩ (conflicts_eq_false (hfree id r hr')).2
    · exact h.oneSymbol id r j s hr' hs' hrs hss hsymbol
  · intro id r g hr hpos hlt
    rcases hback hr with ⟨_, rfl⟩ | ⟨_, hr⟩
    · rcases hfollows with hone | ⟨j, s, hs, hevent, hnext, hstate⟩
      · omega
      · by_cases hg : g = s.generation
        · exact ⟨j, s, hold hs, hevent, hg.symm, hstate⟩
        · obtain ⟨k, u, hu, huevent, hugeneration, hustate⟩ :=
            h.filled j s g hs hpos (by omega)
          exact ⟨k, u, hold hu, huevent.trans hevent, hugeneration, hustate⟩
    · obtain ⟨j, s, hs, hrest⟩ := h.filled id r g hr hpos hlt
      exact ⟨j, s, hold hs, hrest⟩

theorem Shape.others_expired {id j : ℕ} {row r : ClaimRow} (h : Shape rows nextId tokens)
    (hrow : rows.get? id = some row) (hstarted : row.state = .started)
    (hr : rows.get? j = some r) (hevent : r.eventUuid = row.eventUuid) :
    j = id ∨ r.state = .expiredUnprocessed := by
  rcases Nat.lt_trichotomy r.generation row.generation with hlt | heq | hgt
  · obtain ⟨k, s, hs, hsevent, hsgeneration, hstate⟩ :=
      h.filled id row r.generation hrow (h.positive j r hr) hlt
    obtain rfl := h.keys k s j r hs hr (hsevent.trans hevent.symm) hsgeneration
    cases hs.symm.trans hr
    exact .inr hstate
  · exact .inl (h.keys j r id row hr hrow hevent heq)
  · obtain ⟨k, s, hs, hsevent, hsgeneration, hstate⟩ :=
      h.filled j r row.generation hr (h.positive id row hrow) hgt
    obtain rfl := h.keys k s id row hs hrow (hsevent.trans hevent) hsgeneration
    cases hs.symm.trans hrow
    rw [hstarted] at hstate
    cases hstate

theorem ownView_writes {expired : Option ℕ} :
    Writes (fun key row => decide (expired = some key ∧ row.state = .started)) rows
      (ownView rows call expired) := by
  cases expired with
  | none =>
    constructor
    · intro id row hrow
      rw [ownView, hrow]
      exact .same
    · exact fun id row hrow _ => hrow
    · exact fun id row hrow => ⟨row, hrow⟩
  | some id =>
    have hwrites : Writes _ rows (expireRow rows id call.now) := expireRow_writes
    refine ⟨hwrites.move, fun key r hr hp => hwrites.frame key r hr ?_, hwrites.noNew⟩
    exact decide_eq_false fun hwritten => of_decide_eq_false hp ⟨by rw [hwritten.1], hwritten.2⟩

theorem ownView_follows {id generation : ℕ} (hrow : rows.get? id = some row)
    (hevent : row.eventUuid = call.eventUuid) (hnext : row.generation + 1 = generation)
    (hstarted : row.state = .started) :
    Follows (ownView rows call (some id)) call.eventUuid generation :=
  .inr ⟨id, _, get?_expireRow hrow hstarted, hevent, hnext, rfl⟩

end Shape

variable {call' : ClaimCall}

theorem currentRow_mem {id : ℕ} {row : ClaimRow} {event : EventUuid}
    (h : currentRow rows event = some (id, row)) :
    rows.get? id = some row ∧ row.eventUuid = event := by
  have hmem := List.argmax_mem (Option.mem_def.mpr h)
  rw [List.mem_filter] at hmem
  exact ⟨(rows.get?_eq_some).mpr hmem.1, of_decide_eq_true hmem.2⟩

theorem readLatest_expiring {id generation : ℕ}
    (h : readLatest rows call = some (.expiring call' id generation)) :
    call = call' ∧ ∃ row, rows.get? id = some row ∧ row.eventUuid = call.eventUuid ∧
      row.generation = generation ∧ row.state = .started := by
  unfold readLatest at h
  split at h
  · cases h
  next id latest hcurrent =>
    obtain ⟨hrow, hevent⟩ := currentRow_mem hcurrent
    split at h
    next hstarted =>
      split at h
      · cases h
      · cases h
        exact ⟨rfl, latest, hrow, hevent, rfl, hstarted⟩
    · split at h <;> cases h

theorem readLatest_inserting {generation : ℕ} {expired : Option ℕ}
    (h : readLatest rows call = some (.inserting call' generation expired)) :
    call = call' ∧ expired = none ∧ Follows rows call.eventUuid generation := by
  unfold readLatest at h
  split at h
  · cases h
    exact ⟨rfl, rfl, .inl rfl⟩
  next id latest hcurrent =>
    obtain ⟨hrow, hevent⟩ := currentRow_mem hcurrent
    split at h
    · split at h <;> cases h
    next hstarted =>
      split at h
      · cases h
      next hopen =>
        cases h
        have hexpired : latest.state = .expiredUnprocessed := by
          cases hstate : latest.state <;>
            simp_all [ClaimLifecycle.nonReclaimable]
        exact ⟨rfl, rfl, .inr ⟨id, latest, hrow, hevent, rfl, hexpired⟩⟩

end KAssetTrader.Repricing
