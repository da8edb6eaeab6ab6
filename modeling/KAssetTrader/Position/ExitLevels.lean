import KAssetTrader.Position.State

/-!
Looking up the exit levels in force when an observation starts, and raising the
trailing stop from an instant on. The stored versions are a timeline of levels,
and a raise is the splice of that timeline that lifts the stop: the pointwise
meaning of a raise, and its commuting and idempotence, are the general facts
about splices at this timeline.
-/

namespace KAssetTrader.Position

open Checked ManagedPositionState Timeline

def exitLevelsCoverObservation (s : ManagedPositionState) (startsAt : Instant) : Bool :=
  let earliest := match s.exitLevelHistory with
    | [] => s.exitLevelsEffectiveAt
    | first :: _ => first.effectiveAt
  earliest.all (fun t => t ≤ startsAt)

/-- A version in force when an observation starts at `startsAt`, taken alone. -/
def ExitLevelVersion.holdsAt (startsAt : Instant) (v : ExitLevelVersion) : Bool :=
  v.effectiveAt.all (fun t => t ≤ startsAt)

/-- `_exit_levels_for_bar`: the current levels, or else the latest earlier
version that has already taken effect. -/
def exitLevelsForBar (s : ManagedPositionState) (bar : PositionBar) :
    Except String ExitLevels :=
  if s.currentVersion.holdsAt bar.startsAt then .ok s.currentVersion.toExitLevels
  else match s.exitLevelHistory.reverse.find? (·.holdsAt bar.startsAt) with
    | some version => .ok version.toExitLevels
    | none => .error "exit-level history does not cover the observation"

def ExitLevels.raiseTo (raisedStop : Decimal) (levels : ExitLevels) : ExitLevels :=
  { levels with currentStop := max levels.currentStop raisedStop }

def ExitLevelVersion.raiseTo (raisedStop : Decimal) (v : ExitLevelVersion) :
    ExitLevelVersion :=
  { v with toExitLevels := v.toExitLevels.raiseTo raisedStop }

def ExitLevelVersion.notBefore (activation : Instant) (v : ExitLevelVersion) : Bool :=
  v.effectiveAt.any (fun t => activation ≤ t)

/-- Unless a version already starts at the activation, copy the one before it
there with the raised stop. -/
def insertVersion (raisedStop : Decimal) (activation : Instant) (insertion : ℕ)
    (versions : List ExitLevelVersion) : Except String (List ExitLevelVersion) :=
  if (versions[insertion]?).bind (·.effectiveAt) = some activation then .ok versions
  else match insertion with
    | 0 => .error "exit-level history does not cover trailing activation"
    | sourceIndex + 1 =>
      match versions[sourceIndex]? with
      | none => .error "list index out of range"
      | some source => do
          let added ← ExitLevelVersion.postInit
            { source.raiseTo raisedStop with effectiveAt := some activation }
          return versions.insertIdx insertion added

/-- Raise the stop of every version from `changedFrom` on. -/
def raiseVersions (raisedStop : Decimal) (changedFrom : ℕ)
    (versions : List ExitLevelVersion) : Except String (List ExitLevelVersion) :=
  (versions.mapIdx (fun index version =>
    if changedFrom ≤ index then (version.raiseTo raisedStop).postInit else .ok version)).mapM id

def ManagedPositionState.withLevels (s : ManagedPositionState)
    (history : List ExitLevelVersion) (current : ExitLevelVersion) : ManagedPositionState :=
  { s with
    initialAtr := current.initialAtr
    initialStop := current.initialStop
    currentStop := current.currentStop
    exitLevelsEffectiveAt := current.effectiveAt
    exitLevelHistory := history }

def raiseTrailingStop (s : ManagedPositionState) (raisedStop : Decimal)
    (effectiveAt : Instant) : Except String ManagedPositionState :=
  if raisedStop ≤ 0 then .error "trailing stop must be positive and finite"
  else if effectiveAt < s.entryAt then
    .error "trailing stop effective_at must not precede entry_at"
  else do
    let current ← s.currentVersion.postInit
    let versions := s.exitLevelHistory ++ [current]
    let insertion := versions.findIdx (·.notBefore effectiveAt)
    let versions ← insertVersion raisedStop effectiveAt insertion versions
    let versions ← raiseVersions raisedStop insertion versions
    match versions.getLast? with
    | none => .error "list index out of range"
    | some current => (s.withLevels versions.dropLast current).postInit

variable {s : ManagedPositionState}

def ExitLevelVersion.entry (v : ExitLevelVersion) : WithBot Instant × ExitLevels :=
  (activation v.effectiveAt, v.toExitLevels)

def ManagedPositionState.timeline (s : ManagedPositionState) :
    List (WithBot Instant × ExitLevels) :=
  s.versions.map ExitLevelVersion.entry

theorem activation_injective : Function.Injective activation := by
  intro a b h
  cases a <;> cases b <;> simp_all [activation]

theorem entry_injective : Function.Injective ExitLevelVersion.entry := by
  rintro ⟨a, x⟩ ⟨b, y⟩ h
  simp only [ExitLevelVersion.entry, Prod.mk.injEq] at h
  rw [activation_injective h.1, h.2]

theorem holdsAt_iff (t : Instant) (v : ExitLevelVersion) :
    v.holdsAt t ↔ v.entry.1 ≤ (t : WithBot Instant) := by
  cases h : v.effectiveAt <;> simp [ExitLevelVersion.holdsAt, ExitLevelVersion.entry, h]

theorem notBefore_iff (t : Instant) (v : ExitLevelVersion) :
    v.notBefore t ↔ ¬ v.entry.1 < (t : WithBot Instant) := by
  cases h : v.effectiveAt <;> simp [ExitLevelVersion.notBefore, ExitLevelVersion.entry, h]

@[simp] theorem withLevels_versions (history : List ExitLevelVersion)
    (current : ExitLevelVersion) :
    (s.withLevels history current).versions = history ++ [current] := rfl

theorem ordered_iff_starts : Ordered s.timeline ↔ (starts s.versions).Pairwise (· < ·) := by
  rw [Ordered, timeline, starts, List.pairwise_map, List.pairwise_map]
  rfl

theorem ManagedPositionState.Valid.timeline_ordered (h : s.Valid) : Ordered s.timeline :=
  ordered_iff_starts.mpr h.ordered

theorem timeline_eq :
    s.timeline = s.exitLevelHistory.map ExitLevelVersion.entry ++ [s.currentVersion.entry] := by
  simp [timeline, versions]

theorem exitLevelsCoverObservation_iff (h : s.Valid) (t : Instant) :
    exitLevelsCoverObservation s t ↔ Covers s.timeline (t : WithBot Instant) := by
  have hhead : exitLevelsCoverObservation s t ↔
      ∃ v ∈ s.timeline.head?, v.1 ≤ (t : WithBot Instant) := by
    cases hhistory : s.exitLevelHistory with
    | nil =>
      cases heff : s.exitLevelsEffectiveAt <;>
        simp [exitLevelsCoverObservation, timeline_eq, hhistory, heff,
          currentVersion, ExitLevelVersion.entry]
    | cons first rest =>
      cases heff : first.effectiveAt <;>
        simp [exitLevelsCoverObservation, timeline_eq, hhistory, heff,
          ExitLevelVersion.entry]
  rw [hhead]
  constructor
  · rintro ⟨v, hv, ht⟩
    exact ⟨v, List.mem_of_mem_head? hv, ht⟩
  · rintro ⟨v, hv, ht⟩
    have hordered := h.timeline_ordered
    cases htimeline : s.timeline with
    | nil => simp [htimeline] at hv
    | cons first rest =>
      rw [htimeline] at hv hordered
      refine ⟨first, rfl, ?_⟩
      rcases List.mem_cons.mp hv with rfl | hrest
      · exact ht
      · exact ((List.pairwise_cons.mp hordered).1 v hrest).le.trans ht

theorem exitLevelsForBar_eq (bar : PositionBar) :
    exitLevelsForBar s bar =
      match inForce s.timeline (bar.startsAt : WithBot Instant) with
      | some levels => .ok levels
      | none => .error "exit-level history does not cover the observation" := by
  have hhistory : inForce (s.exitLevelHistory.map ExitLevelVersion.entry)
      (bar.startsAt : WithBot Instant) =
        (s.exitLevelHistory.reverse.find? (·.holdsAt bar.startsAt)).map
          (·.toExitLevels) := by
    have hfilter : (fun v : ExitLevelVersion =>
      decide (v.entry.1 ≤ (bar.startsAt : WithBot Instant)))
        = (·.holdsAt bar.startsAt) := by
      funext v
      rw [Bool.eq_iff_iff, decide_eq_true_iff, holdsAt_iff]
    rw [inForce, List.filter_map, List.getLast?_map, Function.comp_def, hfilter,
      List.getLast?_filter, Option.map_map]
    rfl
  rw [timeline_eq, inForce_append, hhistory]
  by_cases hcurrent : s.currentVersion.holdsAt bar.startsAt = true
  · have hone : inForce [s.currentVersion.entry] (bar.startsAt : WithBot Instant) =
        some s.currentVersion.toExitLevels := by
      simp [inForce, (holdsAt_iff _ _).mp hcurrent]
      rfl
    simp [exitLevelsForBar, hcurrent, hone]
  · have hone : inForce [s.currentVersion.entry] (bar.startsAt : WithBot Instant) = none := by
      refine inForce_eq_none fun v hv => ?_
      rw [List.mem_singleton.mp hv]
      exact not_le.mp (fun hle => hcurrent ((holdsAt_iff _ _).mpr hle))
    rw [hone, exitLevelsForBar, if_neg hcurrent]
    cases s.exitLevelHistory.reverse.find? (·.holdsAt bar.startsAt) <;> rfl

variable {r : Decimal} {t : Instant}

theorem ExitLevelVersion.Valid.raiseTo {v : ExitLevelVersion} (h : v.Valid) (r : Decimal) :
    (v.raiseTo r).Valid :=
  ⟨h.initialAtr_pos, h.initialStop_pos, lt_max_of_lt_left h.currentStop_pos⟩

@[simp] theorem raiseTo_raiseTo (r : Decimal) (levels : ExitLevels) :
    (levels.raiseTo r).raiseTo r = levels.raiseTo r := by
  simp [ExitLevels.raiseTo]

theorem raiseTo_comm (r q : Decimal) (levels : ExitLevels) :
    (levels.raiseTo r).raiseTo q = (levels.raiseTo q).raiseTo r := by
  simp [ExitLevels.raiseTo, max_right_comm]

theorem insertIdx_length_append {α : Type*} (front back : List α) (x : α) :
    (front ++ back).insertIdx front.length x = front ++ x :: back := by
  induction front with
  | nil => simp
  | cons a front ih => simp [ih]

theorem findIdx_notBefore {front back : List ExitLevelVersion}
    (hfront : ∀ v ∈ front, v.entry.1 < (t : WithBot Instant))
    (hback : ∀ v ∈ back, (t : WithBot Instant) ≤ v.entry.1) :
    (front ++ back).findIdx (·.notBefore t) = front.length := by
  induction front with
  | nil =>
    cases back with
    | nil => rfl
    | cons v rest =>
      have hv : v.notBefore t = true :=
        (notBefore_iff t v).mpr (not_lt.mpr (hback v (by simp)))
      simp [List.findIdx_cons, hv]
  | cons v front ih =>
    have hv : v.notBefore t = false := by
      rw [Bool.eq_false_iff]
      exact fun hnot => (notBefore_iff t v).mp hnot (hfront v (by simp))
    rw [List.cons_append, List.findIdx_cons, hv, ih (fun w hw => hfront w (by simp [hw]))]
    rfl

theorem raiseVersions_append {front back : List ExitLevelVersion}
    (hback : ∀ v ∈ back, v.Valid) :
    raiseVersions r front.length (front ++ back) = .ok (front ++ back.map (·.raiseTo r)) := by
  have hmap : (front ++ back).mapIdx (fun index version =>
      if front.length ≤ index then (version.raiseTo r).postInit else .ok version) =
        (front ++ back.map (·.raiseTo r)).map .ok := by
    rw [List.mapIdx_append, List.map_append, List.map_map]
    congr 1
    · refine List.ext_getElem (by simp) fun i hi _ => ?_
      have hlt : ¬ front.length ≤ i := by simpa using hi
      simp [hlt]
    · refine List.ext_getElem (by simp) fun i hi _ => ?_
      have hvalid : (back.get ⟨i, by simpa using hi⟩).Valid := hback _ (List.getElem_mem _)
      simpa using (ExitLevelVersion.postInit_ok_iff _).mpr (hvalid.raiseTo r)
  rw [raiseVersions, hmap, List.mapM_map]
  exact mapM_eq_ok (fun _ _ => rfl)

/-- The versions that start before `t`, and the ones that do not. -/
structure SplitAt (t : Instant) (versions front back : List ExitLevelVersion) : Prop where
  versions_eq : versions = front ++ back
  earlier_eq : earlier (t : WithBot Instant) (versions.map (·.entry)) = front.map (·.entry)
  since_eq : since (t : WithBot Instant) (versions.map (·.entry)) = back.map (·.entry)
  insertion_eq : versions.findIdx (·.notBefore t) = front.length

theorem exists_splitAt {versions : List ExitLevelVersion}
    (hordered : Ordered (versions.map (·.entry))) :
    ∃ front back, SplitAt t versions front back := by
  let before : ExitLevelVersion → Bool := fun v => v.entry.1 < (t : WithBot Instant)
  have hsplit : versions = versions.takeWhile before ++ versions.dropWhile before :=
    List.takeWhile_append_dropWhile.symm
  have hearlier : earlier (t : WithBot Instant) (versions.map (·.entry)) =
      (versions.takeWhile before).map (·.entry) := List.takeWhile_map ..
  have hsince : since (t : WithBot Instant) (versions.map (·.entry)) =
      (versions.dropWhile before).map (·.entry) := List.dropWhile_map ..
  refine ⟨_, _, hsplit, hearlier, hsince, ?_⟩
  conv_lhs => rw [hsplit]
  refine findIdx_notBefore (fun v hv => ?_) (fun v hv => ?_)
  · exact lt_of_mem_earlier _ (versions.map (·.entry))
      (by rw [hearlier]; exact List.mem_map_of_mem hv)
  · exact le_of_mem_since _ hordered (by rw [hsince]; exact List.mem_map_of_mem hv)

theorem SplitAt.starts_at_iff {versions front back : List ExitLevelVersion}
    (h : SplitAt t versions front back) :
    (versions[front.length]?).bind (·.effectiveAt) = some t ↔
      (since (t : WithBot Instant) (versions.map (·.entry))).head?.map Prod.fst =
        some (t : WithBot Instant) := by
  rw [h.since_eq, h.versions_eq, List.getElem?_append_right le_rfl, Nat.sub_self]
  cases back with
  | nil => simp
  | cons v rest =>
    cases heff : v.effectiveAt <;> simp [ExitLevelVersion.entry, heff]

/-- The version added at the activation, a raised copy of the one before it. -/
def ExitLevelVersion.raisedAt (r : Decimal) (t : Instant) (source : ExitLevelVersion) :
    ExitLevelVersion :=
  { source.raiseTo r with effectiveAt := some t }

theorem ExitLevelVersion.Valid.raisedAt {v : ExitLevelVersion} (h : v.Valid) (r : Decimal)
    (t : Instant) : (v.raisedAt r t).Valid :=
  ⟨h.initialAtr_pos, h.initialStop_pos, lt_max_of_lt_left h.currentStop_pos⟩

theorem SplitAt.insertVersion_added {versions init back : List ExitLevelVersion}
    {last : ExitLevelVersion} (h : SplitAt t versions (init ++ [last]) back)
    (hlast : last.Valid)
    (hnew : ¬ (versions[(init ++ [last]).length]?).bind (·.effectiveAt) = some t) :
    insertVersion r t (init ++ [last]).length versions =
      .ok ((init ++ [last]) ++ last.raisedAt r t :: back) := by
  have hindex : versions[init.length]? = some last := by
    simp [h.versions_eq]
  have hadded : (last.raisedAt r t).postInit = .ok (last.raisedAt r t) :=
    (ExitLevelVersion.postInit_ok_iff _).mpr (hlast.raisedAt r t)
  rw [insertVersion.eq_def, if_neg hnew]
  simp only [List.length_append, List.length_singleton, hindex]
  rw [show ({ last.raiseTo r with effectiveAt := some t } : ExitLevelVersion) =
    last.raisedAt r t from rfl, hadded, ok_bind, h.versions_eq]
  exact congrArg Except.ok (by
    simpa using insertIdx_length_append (init ++ [last]) back (last.raisedAt r t))

theorem SplitAt.raised {versions front back : List ExitLevelVersion}
    (h : SplitAt t versions front back) (hvalid : ∀ v ∈ versions, v.Valid)
    (added : List ExitLevelVersion) (hadded : ∀ v ∈ added, v.Valid) :
    (front ++ (added ++ back).map (·.raiseTo r)).map (·.entry) =
        earlier (t : WithBot Instant) (versions.map (·.entry)) ++
          (added.map (·.entry) ++ since (t : WithBot Instant) (versions.map (·.entry))).map
            (Prod.map id (ExitLevels.raiseTo r)) ∧
      raiseVersions r front.length (front ++ (added ++ back)) =
        .ok (front ++ (added ++ back).map (·.raiseTo r)) ∧
      ∀ v ∈ front ++ (added ++ back).map (·.raiseTo r), v.Valid := by
  have hback : ∀ v ∈ added ++ back, v.Valid := by
    intro v hv
    rcases List.mem_append.mp hv with hv | hv
    · exact hadded v hv
    · exact hvalid v (by simp [h.versions_eq, hv])
  refine ⟨?_, raiseVersions_append hback, ?_⟩
  · rw [h.earlier_eq, h.since_eq]
    simp [Function.comp_def, ExitLevelVersion.raiseTo, ExitLevelVersion.entry]
  · intro v hv
    rcases List.mem_append.mp hv with hv | hv
    · exact hvalid v (by simp [h.versions_eq, hv])
    · obtain ⟨w, hw, rfl⟩ := List.mem_map.mp hv
      exact (hback w hw).raiseTo r

theorem raise_versions {versions : List ExitLevelVersion}
    (hvalid : ∀ v ∈ versions, v.Valid) (hordered : Ordered (versions.map (·.entry)))
    (hcovered : Covers (versions.map (·.entry)) (t : WithBot Instant)) :
    ∃ raised,
      (insertVersion r t (versions.findIdx (·.notBefore t)) versions >>=
        raiseVersions r (versions.findIdx (·.notBefore t))) = .ok raised ∧
      raised.map (·.entry) =
        splice (t : WithBot Instant) (ExitLevels.raiseTo r) (versions.map (·.entry)) ∧
      ∀ v ∈ raised, v.Valid := by
  obtain ⟨front, back, h⟩ := exists_splitAt (t := t) hordered
  rw [h.insertion_eq]
  rcases splice_cases (ExitLevels.raiseTo r) hcovered hordered with
    ⟨hhead, hsplice⟩ | ⟨source, hsource, hlater, hsplice⟩
  · obtain ⟨htimeline, hraise, hraised⟩ := h.raised (r := r) hvalid [] (by simp)
    refine ⟨_, ?_, htimeline.trans hsplice.symm, hraised⟩
    rw [insertVersion.eq_def, if_pos (h.starts_at_iff.mpr hhead), ok_bind]
    conv_lhs => rw [h.versions_eq]
    exact hraise
  · have hnew : ¬ (versions[front.length]?).bind (·.effectiveAt) = some t := by
      intro hstarts
      obtain ⟨v, hv, hvt⟩ := Option.map_eq_some_iff.mp (h.starts_at_iff.mp hstarts)
      exact absurd (hlater v (List.mem_of_mem_head? hv)) (by rw [hvt]; exact lt_irrefl _)
    rw [h.earlier_eq, List.getLast?_map] at hsource
    obtain ⟨last, hlast, rfl⟩ := Option.map_eq_some_iff.mp hsource
    obtain ⟨init, rfl⟩ := List.getLast?_eq_some_iff.mp hlast
    have hlastValid : last.Valid := hvalid last (by simp [h.versions_eq])
    obtain ⟨htimeline, hraise, hraised⟩ :=
      h.raised (r := r) hvalid [last.raisedAt r t] (by simpa using hlastValid.raisedAt r t)
    refine ⟨_, ?_, htimeline.trans ?_, hraised⟩
    · rw [h.insertVersion_added hlastValid hnew, ok_bind]
      exact hraise
    · -- The copy is raised when it is added and once more with the others.
      rw [hsplice]
      simp [ExitLevelVersion.entry, ExitLevelVersion.raisedAt, ExitLevelVersion.raiseTo]

theorem raiseTrailingStop_splices (h : s.Valid) (hr : 0 < r) (hentry : s.entryAt ≤ t)
    (hcovered : Covers s.timeline (t : WithBot Instant)) :
    ∃ history current,
      raiseTrailingStop s r t = .ok (s.withLevels history current) ∧
      (s.withLevels history current).Valid ∧
      (s.withLevels history current).timeline =
        splice (t : WithBot Instant) (ExitLevels.raiseTo r) s.timeline := by
  obtain ⟨raised, hraised, htimeline, hvalid⟩ :=
    raise_versions (r := r) h.versions h.timeline_ordered hcovered
  have hne : raised ≠ [] := by
    rintro rfl
    have hcov := (covers_splice_iff (ExitLevels.raiseTo r) h.timeline_ordered hcovered
      (t : WithBot Instant)).mpr hcovered
    obtain ⟨v, hv, -⟩ := htimeline ▸ hcov
    simp at hv
  obtain ⟨history, current, rfl⟩ : ∃ history current, raised = history ++ [current] := by
    rcases List.eq_nil_or_concat raised with hnil | ⟨history, current, hraised⟩
    · exact absurd hnil hne
    · exact ⟨history, current, by rw [hraised, List.concat_eq_append]⟩
  have hcurrent : current.Valid := hvalid current (by simp)
  have hordered : Ordered (s.withLevels history current).timeline := by
    rw [timeline, withLevels_versions, htimeline]
    exact splice_ordered _ h.timeline_ordered hcovered
  have hstate : (s.withLevels history current).Valid :=
    { symbol_nonempty := h.symbol_nonempty
      strategy_nonempty := h.strategy_nonempty
      cycle_positive := h.cycle_positive
      entryPrice_pos := h.entryPrice_pos
      initialStop_pos := hcurrent.initialStop_pos
      currentStop_pos := hcurrent.currentStop_pos
      highestClose_pos := h.highestClose_pos
      initialAtr_pos := hcurrent.initialAtr_pos
      history_valid := fun v hv => hvalid v (List.mem_append_left _ hv)
      ordered := ordered_iff_starts.mp hordered }
  refine ⟨history, current, ?_, hstate, ?_⟩
  · have hversions : s.exitLevelHistory ++ [s.currentVersion] = s.versions := rfl
    obtain ⟨versions, hinsert, hraise⟩ := bind_ok_iff.mp hraised
    rw [raiseTrailingStop, if_neg (not_le.mpr hr), if_neg (not_lt.mpr hentry),
      (ExitLevelVersion.postInit_ok_iff _).mpr h.currentVersion, ok_bind]
    simp only [hversions, hinsert, hraise, ok_bind, List.getLast?_append,
      List.getLast?_singleton, Option.some_or, List.dropLast_concat]
    exact hstate.postInit
  · rw [timeline, withLevels_versions, htimeline]
    rfl

theorem insertVersion_uncovered {versions : List ExitLevelVersion}
    (hlater : ∀ v ∈ versions, (t : WithBot Instant) < v.entry.1) :
    insertVersion r t (versions.findIdx (·.notBefore t)) versions =
      .error "exit-level history does not cover trailing activation" := by
  have hfirst : versions.findIdx (·.notBefore t) = 0 := by
    simpa using findIdx_notBefore (List.forall_mem_nil _) (fun v hv => (hlater v hv).le)
  rw [hfirst, insertVersion.eq_def, if_neg]
  cases versions with
  | nil => simp
  | cons v rest =>
    have hv := hlater v (by simp)
    cases heff : v.effectiveAt with
    | none => simp [heff]
    | some at' =>
      have hlt : t < at' := by simpa [ExitLevelVersion.entry, heff] using hv
      simpa [heff] using hlt.ne'

theorem raiseTrailingStop_ok (h : s.Valid) {raised : ManagedPositionState}
    (hraise : raiseTrailingStop s r t = .ok raised) :
    Covers s.timeline (t : WithBot Instant) ∧ ∃ history current,
      raised = s.withLevels history current ∧ (s.withLevels history current).Valid ∧
      (s.withLevels history current).timeline =
        splice (t : WithBot Instant) (ExitLevels.raiseTo r) s.timeline := by
  have hchecks := hraise
  unfold raiseTrailingStop at hchecks
  split at hchecks
  · cases hchecks
  split at hchecks
  · cases hchecks
  rename_i hr hentry
  have hcovered : Covers s.timeline (t : WithBot Instant) := by
    by_contra hnot
    have hlater : ∀ v ∈ s.versions, (t : WithBot Instant) < v.entry.1 := by
      intro v hv
      by_contra hle
      exact hnot ⟨v.entry, List.mem_map_of_mem hv, not_lt.mp hle⟩
    obtain ⟨current, hcurrent, hchecks⟩ := bind_ok_iff.mp hchecks
    rw [(ExitLevelVersion.postInit_ok_iff _).mpr h.currentVersion] at hcurrent
    cases hcurrent
    obtain ⟨inserted, hinserted, -⟩ := bind_ok_iff.mp hchecks
    change insertVersion r t (s.versions.findIdx (·.notBefore t)) s.versions = _ at hinserted
    rw [insertVersion_uncovered hlater] at hinserted
    cases hinserted
  obtain ⟨history, current, hok, hvalid, htimeline⟩ :=
    raiseTrailingStop_splices h (not_le.mp hr) (not_lt.mp hentry) hcovered
  exact ⟨hcovered, history, current, Except.ok.inj (hraise.symm.trans hok), hvalid, htimeline⟩

theorem withLevels_current {history : List ExitLevelVersion} {current : ExitLevelVersion}
    (h : s.Valid) (hcovered : Covers s.timeline (t : WithBot Instant))
    (htimeline : (s.withLevels history current).timeline =
      splice (t : WithBot Instant) (ExitLevels.raiseTo r) s.timeline) :
    current.toExitLevels = s.currentVersion.toExitLevels.raiseTo r := by
  have hordered := h.timeline_ordered
  rw [timeline_eq] at hordered hcovered htimeline
  rw [timeline_eq] at htimeline
  exact splice_last _ hordered hcovered htimeline.symm

/-- The levels a lookup finds before and after a raise: nothing changes for an
observation that starts before the activation, and from it on the stop is
lifted. -/
theorem exitLevelsForBar_withLevels {history : List ExitLevelVersion}
    {current : ExitLevelVersion} (h : s.Valid)
    (hcovered : Covers s.timeline (t : WithBot Instant))
    (htimeline : (s.withLevels history current).timeline =
      splice (t : WithBot Instant) (ExitLevels.raiseTo r) s.timeline)
    {bar : PositionBar} {levels : ExitLevels} (hlevels : exitLevelsForBar s bar = .ok levels) :
    exitLevelsForBar (s.withLevels history current) bar =
      .ok (if bar.startsAt < t then levels else levels.raiseTo r) := by
  rw [exitLevelsForBar_eq] at hlevels
  rw [exitLevelsForBar_eq, htimeline, inForce_splice _ h.timeline_ordered hcovered]
  cases hinForce : inForce s.timeline (bar.startsAt : WithBot Instant) with
  | none => simp [hinForce] at hlevels
  | some found =>
    obtain rfl : found = levels := by simpa [hinForce] using hlevels
    by_cases hbefore : bar.startsAt < t
    · simp [hbefore]
    · simp [hbefore]

theorem exists_exitLevelsForBar (h : s.Valid) {bar : PositionBar}
    (hcovered : exitLevelsCoverObservation s bar.startsAt) :
    ∃ levels, exitLevelsForBar s bar = .ok levels := by
  obtain ⟨levels, hlevels⟩ := Option.isSome_iff_exists.mp
    (inForce_isSome_iff.mpr ((exitLevelsCoverObservation_iff h _).mp hcovered))
  exact ⟨levels, by rw [exitLevelsForBar_eq, hlevels]⟩

theorem withLevels_eq_of_timeline {history history' : List ExitLevelVersion}
    {current current' : ExitLevelVersion}
    (h : (s.withLevels history current).timeline = (s.withLevels history' current').timeline) :
    s.withLevels history current = s.withLevels history' current' := by
  have hversions : history ++ [current] = history' ++ [current'] :=
    List.map_injective_iff.mpr entry_injective h
  obtain ⟨rfl, hcurrent⟩ := List.append_inj' hversions rfl
  rw [List.singleton_inj.mp hcurrent]

@[simp] theorem withLevels_withLevels (history history' : List ExitLevelVersion)
    (current current' : ExitLevelVersion) :
    (s.withLevels history current).withLevels history' current' =
      s.withLevels history' current' := rfl

theorem raiseTrailingStop_twice {q : Decimal} {u : Instant} (h : s.Valid) (hr : 0 < r)
    (hq : 0 < q) (ht : s.entryAt ≤ t) (hu : s.entryAt ≤ u)
    (hct : Covers s.timeline (t : WithBot Instant))
    (hcu : Covers s.timeline (u : WithBot Instant)) :
    ∃ history current,
      (raiseTrailingStop s r t >>= fun raised => raiseTrailingStop raised q u) =
        .ok (s.withLevels history current) ∧
      (s.withLevels history current).timeline =
        splice (u : WithBot Instant) (ExitLevels.raiseTo q)
          (splice (t : WithBot Instant) (ExitLevels.raiseTo r) s.timeline) := by
  obtain ⟨history, current, hraise, hvalid, htimeline⟩ :=
    raiseTrailingStop_splices h hr ht hct
  have hcovered : Covers (s.withLevels history current).timeline (u : WithBot Instant) := by
    rw [htimeline]
    exact (covers_splice_iff _ h.timeline_ordered hct _).mpr hcu
  obtain ⟨history', current', hraise', -, htimeline'⟩ :=
    raiseTrailingStop_splices hvalid hq hu hcovered
  refine ⟨history', current', ?_, ?_⟩
  · rw [hraise, ok_bind, hraise', withLevels_withLevels]
  · rw [← htimeline, ← htimeline', withLevels_withLevels]

theorem raiseTrailingStop_comm {q : Decimal} {u : Instant} (h : s.Valid) (hr : 0 < r)
    (hq : 0 < q) (ht : s.entryAt ≤ t) (hu : s.entryAt ≤ u)
    (hct : Covers s.timeline (t : WithBot Instant))
    (hcu : Covers s.timeline (u : WithBot Instant)) :
    (raiseTrailingStop s r t >>= fun raised => raiseTrailingStop raised q u) =
      (raiseTrailingStop s q u >>= fun raised => raiseTrailingStop raised r t) := by
  obtain ⟨history, current, hraise, htimeline⟩ := raiseTrailingStop_twice h hr hq ht hu hct hcu
  obtain ⟨history', current', hraise', htimeline'⟩ :=
    raiseTrailingStop_twice h hq hr hu ht hcu hct
  have hcomm := splice_comm (f := ExitLevels.raiseTo r) (g := ExitLevels.raiseTo q)
    h.timeline_ordered hct hcu (fun levels => raiseTo_comm q r levels)
  rw [hraise, hraise', withLevels_eq_of_timeline
    (htimeline.trans (hcomm.symm.trans htimeline'.symm))]

theorem raiseTrailingStop_idem {raised : ManagedPositionState} (h : s.Valid) (hr : 0 < r)
    (ht : s.entryAt ≤ t) (hct : Covers s.timeline (t : WithBot Instant))
    (hraise : raiseTrailingStop s r t = .ok raised) :
      raiseTrailingStop raised r t = .ok raised := by
  obtain ⟨history, current, honce, -, htimeline⟩ := raiseTrailingStop_splices h hr ht hct
  obtain ⟨history', current', htwice, htimeline'⟩ :=
    raiseTrailingStop_twice h hr hr ht ht hct hct
  cases hraise.symm.trans honce
  rw [honce, ok_bind] at htwice
  have hidem := splice_idem (f := ExitLevels.raiseTo r) h.timeline_ordered hct (raiseTo_raiseTo r)
  rw [htwice, withLevels_eq_of_timeline (htimeline'.trans (hidem.trans htimeline.symm))]

/-- The stops looked up never fall from an observation to a later one. -/
def StopsRise (s : ManagedPositionState) : Prop :=
  ∀ bar bar' levels levels', bar.startsAt ≤ bar'.startsAt →
    exitLevelsForBar s bar = .ok levels → exitLevelsForBar s bar' = .ok levels' →
      levels.currentStop ≤ levels'.currentStop

theorem StopsRise.raise {history : List ExitLevelVersion} {current : ExitLevelVersion}
    (hrise : StopsRise s) (h : s.Valid)
    (hcovered : Covers s.timeline (t : WithBot Instant))
    (htimeline : (s.withLevels history current).timeline =
      splice (t : WithBot Instant) (ExitLevels.raiseTo r) s.timeline) :
    StopsRise (s.withLevels history current) := by
  have hback (bar : PositionBar) (levels : ExitLevels)
      (hlevels : exitLevelsForBar (s.withLevels history current) bar = .ok levels) :
      ∃ old, exitLevelsForBar s bar = .ok old ∧
        levels = if bar.startsAt < t then old else old.raiseTo r := by
    have hcov : exitLevelsCoverObservation s bar.startsAt := by
      rw [exitLevelsCoverObservation_iff h,
        ← covers_splice_iff (ExitLevels.raiseTo r) h.timeline_ordered hcovered, ← htimeline,
        ← inForce_isSome_iff]
      rw [exitLevelsForBar_eq] at hlevels
      cases hinForce : inForce (s.withLevels history current).timeline
          (bar.startsAt : WithBot Instant) with
      | none => simp [hinForce] at hlevels
      | some found => rfl
    obtain ⟨old, hold⟩ := exists_exitLevelsForBar h hcov
    refine ⟨old, hold, Except.ok.inj (hlevels.symm.trans ?_)⟩
    exact exitLevelsForBar_withLevels h hcovered htimeline hold
  intro bar bar' levels levels' hle hlevels hlevels'
  obtain ⟨old, hold, rfl⟩ := hback bar levels hlevels
  obtain ⟨old', hold', rfl⟩ := hback bar' levels' hlevels'
  have hstops := hrise bar bar' old old' hle hold hold'
  by_cases hbefore : bar.startsAt < t <;> by_cases hbefore' : bar'.startsAt < t
  · simpa [hbefore, hbefore'] using hstops
  · simpa [hbefore, hbefore', ExitLevels.raiseTo] using Or.inl hstops
  · exact absurd (hle.trans_lt hbefore') hbefore
  · simpa [hbefore, hbefore', ExitLevels.raiseTo] using max_le_max_right r hstops

/-- Raising the stop lifts what every later bar reads, leaves what earlier bars read, and does so
in any order and any number of times. -/
theorem raiseTrailingStop_lifts_lookups (s : ManagedPositionState) (r : Decimal) (t : Instant)
    (h : s.Valid) (hr : 0 < r) (ht : s.entryAt ≤ t)
    (hcovered : exitLevelsCoverObservation s t) :
    ∃ raised, raiseTrailingStop s r t = .ok raised ∧ raised.Valid ∧
      (∀ bar, exitLevelsCoverObservation s bar.startsAt →
        ∃ levels, exitLevelsForBar s bar = .ok levels ∧
          (bar.startsAt < t → exitLevelsForBar raised bar = .ok levels) ∧
          (t ≤ bar.startsAt → exitLevelsForBar raised bar =
            .ok { levels with currentStop := max levels.currentStop r })) ∧
      (∀ q u, 0 < q → s.entryAt ≤ u → exitLevelsCoverObservation s u →
        ∃ other both, raiseTrailingStop s q u = .ok other ∧
          raiseTrailingStop raised q u = .ok both ∧
          raiseTrailingStop other r t = .ok both) ∧
      raiseTrailingStop raised r t = .ok raised ∧
      (StopsRise s → StopsRise raised) := by
  have hct := (exitLevelsCoverObservation_iff h t).mp hcovered
  obtain ⟨history, current, hraise, hvalid, htimeline⟩ := raiseTrailingStop_splices h hr ht hct
  refine ⟨_, hraise, hvalid, ?_, ?_, raiseTrailingStop_idem h hr ht hct hraise,
    fun hrise => hrise.raise h hct htimeline⟩
  · intro bar hbar
    obtain ⟨levels, hlevels⟩ := exists_exitLevelsForBar h hbar
    have hraised := exitLevelsForBar_withLevels h hct htimeline hlevels
    refine ⟨levels, hlevels, fun hbefore => ?_, fun hfrom => ?_⟩
    · rw [hraised, if_pos hbefore]
    · rw [hraised, if_neg (not_lt.mpr hfrom)]
      rfl
  · intro q u hq hu hcu
    have hcu := (exitLevelsCoverObservation_iff h u).mp hcu
    obtain ⟨history', current', hother, -, -⟩ := raiseTrailingStop_splices h hq hu hcu
    obtain ⟨both, bothCurrent, hboth, -⟩ := raiseTrailingStop_twice h hr hq ht hu hct hcu
    have hcomm := raiseTrailingStop_comm h hr hq ht hu hct hcu
    rw [hboth, hother, ok_bind] at hcomm
    rw [hraise, ok_bind] at hboth
    exact ⟨_, _, hother, hboth, hcomm.symm⟩

/-- A position whose current stop lies below its earlier one: the constructor
orders the instants of the versions, not their stops. -/
def fallingStops : ManagedPositionState where
  market := .krx
  symbol := "005930"
  entryPrice := 12
  initialAtr := 1
  initialStop := 4
  currentStop := 5
  highestClose := 12
  partialExitCompleted := false
  entryAt := 0
  lastEvaluatedAt := none
  strategyVersion := "v1"
  positionCycleId := some 1
  exitLevelsEffectiveAt := some 10
  exitLevelHistory :=
    [{ initialAtr := 1, initialStop := 4, currentStop := 10, effectiveAt := some 0 }]

theorem fallingStops_valid : fallingStops.Valid :=
  (fallingStops.postInit_ok_iff (by
    intro v hv
    obtain rfl := List.mem_singleton.mp hv
    exact ⟨by norm_num, by norm_num, by norm_num⟩)).mp (by decide +kernel)

/-- A history whose stops fall is valid. -/
theorem raiseTrailingStop_lifts_lookups_fallingStops :
    fallingStops.Valid ∧ ∃ raised, raiseTrailingStop fallingStops 6 20 = .ok raised ∧
      raised.Valid ∧ raiseTrailingStop raised 6 20 = .ok raised := by
  obtain ⟨raised, hraise, hvalid, -, -, hidem, -⟩ :=
    raiseTrailingStop_lifts_lookups fallingStops 6 20 fallingStops_valid (by norm_num)
      (by decide) (by decide)
  exact ⟨fallingStops_valid, raised, hraise, hvalid, hidem⟩

def quietBar (asOf : Instant) : PositionBar where
  asOf := asOf
  openPrice := 12
  high := 12
  low := 12
  close := 12

/-- The constructor does not order the stops of a history. -/
theorem raised_stops_can_fall :
    ¬ ∀ (s raised : ManagedPositionState) (r : Decimal) (t : Instant), s.Valid →
      s.entryAt ≤ t → exitLevelsCoverObservation s t →
      raiseTrailingStop s r t = .ok raised → StopsRise raised := by
  intro hall
  have hraise : raiseTrailingStop fallingStops 6 20 = .ok (fallingStops.withLevels
      [{ initialAtr := 1, initialStop := 4, currentStop := 10, effectiveAt := some 0 },
        { initialAtr := 1, initialStop := 4, currentStop := 5, effectiveAt := some 10 }]
      { initialAtr := 1, initialStop := 4, currentStop := 6, effectiveAt := some 20 }) := by
    decide +kernel
  have hrise := hall fallingStops _ 6 20 fallingStops_valid (by decide) (by decide) hraise
  have hfall : (10 : Decimal) ≤ 5 :=
    hrise (quietBar 5) (quietBar 15) { initialAtr := 1, initialStop := 4, currentStop := 10 }
      { initialAtr := 1, initialStop := 4, currentStop := 5 } (by decide) (by decide +kernel)
      (by decide +kernel)
  norm_num at hfall

end KAssetTrader.Position
