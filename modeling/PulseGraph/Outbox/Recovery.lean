/-
# What happens to the backlog when a channel comes back

`src/outbox/recovery.py`: the queued intents of an incident are collapsed to the
newest one, a payload is filled from the incident's current state when it is sent,
and a digest explains the gap.

`Collapse` says what collapsing some channels does to every row
(`coalescePending_collapse`), and `hydratePayload_incidentId` which incident a filled
payload is about.
-/

import Mathlib.Data.List.Dedup
import PulseGraph.Db.IsoText
import PulseGraph.Graph.StormGrouping
import PulseGraph.Library.Checked
import PulseGraph.Outbox.ChannelHealth

namespace PulseGraph

open Library (Table)

variable {K : Type}

/-! ## Collapsing the queue -/

/-- The rows of a channel that wait to be sent for one incident. -/
def isPendingFor (channel : Channel) (incidentId : String) (r : OutboxRow) : Bool :=
  r.channel = channel && r.status = .pending && r.incidentId = incidentId

/-- `json_set(payload_json, '$.delivered_via_fallback', …)`. -/
def OutboxRow.markFallback (via : FallbackMarker) (r : OutboxRow) : OutboxRow :=
  { r with payload := { r.payload with deliveredViaFallback := some via } }

/-- `superseded`, by the row that won. -/
def OutboxRow.supersede (winner : ℕ) (r : OutboxRow) : OutboxRow :=
  { r with status := .superseded, supersededBy := some winner }

/-- The groups `coalesce_pending` reads: an incident with several rows waiting on the
channel, and the newest of them. -/
def coalesceGroups (channel : Channel) (db : Database K) : List (String × ℕ) :=
  let pending := db.outbox.select fun _ r => r.channel = channel && r.status = .pending
  ((pending.map fun r => r.2.incidentId).dedup.filterMap fun incidentId =>
    let queued := pending.filter fun r => r.2.incidentId = incidentId
    if 1 < queued.length then some (incidentId, (queued.map Prod.fst).foldr max 0) else none)

/-- The marker carried over to the winner: the newest one on a row of the group. -/
def carriedMarker (channel : Channel) (incidentId : String) (outbox : Table ℕ OutboxRow) :
    Option FallbackMarker :=
  (firstBy (fun a b => decide (b.1 < a.1)) (outbox.select fun _ r =>
    isPendingFor channel incidentId r && r.payload.deliveredViaFallback.isSome)).bind
      fun r => r.2.payload.deliveredViaFallback

/-- One group of `coalesce_pending`: how many rows were superseded, and the queue after. -/
def coalesceGroup (channel : Channel) (s : ℕ × Table ℕ OutboxRow) (group : String × ℕ) :
    ℕ × Table ℕ OutboxRow :=
  let outbox := match carriedMarker channel group.1 s.2 with
    | some via => s.2.modify group.2 (OutboxRow.markFallback via)
    | none => s.2
  let loses := fun (k : ℕ) (r : OutboxRow) => isPendingFor channel group.1 r && decide (k < group.2)
  (s.1 + outbox.count loses,
    outbox.update fun k r => if loses k r then r.supersede group.2 else r)

/-- `coalesce_pending`: collapse each incident's queued intents down to its newest one. -/
def coalescePending (channel : Channel) (db : Database K) : ℕ × Database K :=
  let s := (coalesceGroups channel db).foldl (coalesceGroup channel) (0, db.outbox)
  (s.1, { db with outbox := s.2 })

/-! ## Filling a payload -/

/-- Python's truth value of a text that may be missing. -/
def truthy (s : Option String) : Option String := s.filter (· ≠ "")

/-- What an incident's own row fills in. -/
def hydrateIncident (incidentId : String) (i : Incident) (payload : Payload) : Payload :=
  { payload with
    incidentId := payload.incidentId.or (some incidentId)
    title := some i.title
    summary := some (((truthy i.summary).or (truthy payload.summary)).getD "")
    severity := some i.severity
    state := some i.status
    alertCount := some i.alertCount
    rootCauseHint := i.rootCauseHint
    firstAlertAt := some i.firstAlertAt
    timestamp := some i.lastAlertAt
    acknowledgedBy := (truthy i.acknowledgedBy).or payload.acknowledgedBy
    via := (i.resolvedVia.or i.acknowledgedVia).or payload.via
    resolutionSource := (truthy i.resolutionSource).or payload.resolutionSource
    flapping := i.flappingSince.isSome || payload.flapping
    reopenCount := if i.flappingSince.isSome then some i.reopenCount else payload.reopenCount }

/-- What the storm of an anchor fills in. -/
def hydrateGroup (snapshot : GroupSnapshot) (payload : Payload) : Payload :=
  { payload with
    group := some snapshot
    title := some snapshot.title
    severity := some snapshot.severity
    alertCount := some snapshot.totalAlertCount }

/-- `hydrate_payload`: fill a queued payload from the incident's current state. -/
def hydratePayload (incidentId : String) (payload : Payload) (db : Database K) : Payload :=
  match db.incidents.find? incidentId with
  | none => payload
  | some i =>
      let hydrated := hydrateIncident incidentId i payload
      match (groupForAnchor incidentId db).bind fun groupId => groupSnapshot groupId db with
      | some snapshot => if 1 < snapshot.memberCount then hydrateGroup snapshot hydrated else hydrated
      | none => hydrated

/-- `effective_action`: a queued action, or `resolve` for an incident that is resolved by now. -/
def effectiveAction (queuedAction : Action) (incidentStatus : Option IncidentState) : Action :=
  if incidentStatus = some .RESOLVED then .resolve else queuedAction

/-! ## Explaining the gap -/

/-- `build_recovery_digest`: what the channel missed, or nothing; the marker counts the
rows a fallback delivered. -/
def buildRecoveryDigest (channel : Channel) (outageStart : Option ℤ) (recoveredAt : ℤ)
    (db : Database K) : Option (RecoveryDigest × ℕ) :=
  outageStart.bind fun start =>
    let incidents := db.incidents.select fun _ i =>
      decide (start ≤ i.updatedAt) && decide (i.updatedAt ≤ recoveredAt)
    let rows := db.outbox.select fun _ r =>
      decide (start ≤ r.createdAt) && decide (r.createdAt ≤ recoveredAt)
    let queued := rows.countP fun r => r.2.status = .pending
    if incidents.length = 0 ∧ queued = 0 then none
    else some
      ({ channel := channel
         outageStartedAt := start
         recoveredAt := recoveredAt
         durationSeconds := max 0 ((recoveredAt - start).tdiv 1000)
         incidentsTouched := incidents.length
         criticalIncidents := incidents.countP fun r => r.2.severity = .critical
         resolvedDuringOutage := incidents.countP fun r => r.2.status = .RESOLVED
         queuedMessages := queued
         collapsedMessages := rows.countP fun r => r.2.status = .superseded },
        rows.countP fun r => r.2.failoverOf.isSome)

/-- The row of a digest: before every severity class. -/
def digestRow (now : ℤ) (channel : Channel) (digest : RecoveryDigest × ℕ) : OutboxRow where
  incidentId := "digest:" ++ channel.text ++ ":" ++ isoText digest.1.outageStartedAt
  channel := channel
  action := .create
  payload := { digest := some digest.1, deliveredViaFallback := some (.count digest.2) }
  nextAttemptAt := now
  priority := -1
  originChannel := channel
  createdAt := now

/-- `enqueue_recovery_digest`. -/
def enqueueRecoveryDigest (now : ℤ) (channel : Channel) (digest : RecoveryDigest × ℕ)
    (db : Database K) : Database K :=
  { db with outbox := db.outbox.push (digestRow now channel digest) }

/-! ## What a collapse does to a row -/

section Collapse

variable {q q₁ q₂ : Table ℕ OutboxRow} {channel : Channel} {db : Database K}

theorem isPendingFor_iff {x : String} {r : OutboxRow} : isPendingFor channel x r = true ↔
    r.channel = channel ∧ r.status = .pending ∧ r.incidentId = x := by
  unfold isPendingFor
  simp only [Bool.and_eq_true, decide_eq_true_eq, and_assoc]

/-- A row after a collapse of the queue `q`: as it was, the winner of its group with a
marker, or a loser superseded by the newest row that waits for the same incident on
the same channel. -/
inductive Collapsed (q : Table ℕ OutboxRow) (k : ℕ) (r : OutboxRow) : OutboxRow → Prop
  | same : Collapsed q k r r
  | winner (via : FallbackMarker) : r.status = .pending → Collapsed q k r (r.markFallback via)
  | loser {j : ℕ} {w : OutboxRow} : r.status = .pending → k < j → q.find? j = some w →
      isPendingFor r.channel r.incidentId w = true →
      (∀ k' r', q.find? k' = some r' → isPendingFor r.channel r.incidentId r' = true → k' ≤ j) →
      Collapsed q k r (r.supersede j)

/-- What no collapse changes. -/
theorem Collapsed.frame {k : ℕ} {r r' : OutboxRow} (h : Collapsed q k r r') :
    r'.incidentId = r.incidentId ∧ r'.channel = r.channel ∧ r'.action = r.action ∧
      r'.attempts = r.attempts ∧ r'.externalRef = r.externalRef ∧ r'.lockedBy = r.lockedBy ∧
      r'.lockedUntil = r.lockedUntil ∧ r'.payload.incidentId = r.payload.incidentId ∧
      r'.payload.digest = r.payload.digest := by
  cases h <;> exact ⟨rfl, rfl, rfl, rfl, rfl, rfl, rfl, rfl, rfl⟩

/-- Collapsing the channels `chs` takes the queue `q` to the queue `q'`. -/
structure Collapse (chs : Channel → Prop) (q q' : Table ℕ OutboxRow) : Prop where
  row : ∀ k r, q.find? k = some r → ∃ r', q'.find? k = some r' ∧ Collapsed q k r r' ∧
    (r' = r ∨ chs r.channel)
  unread : ∀ k, q.find? k = none → q'.find? k = none

theorem Collapse.refl (chs : Channel → Prop) (q : Table ℕ OutboxRow) : Collapse chs q q :=
  ⟨fun _ r hr => ⟨r, hr, .same, .inl rfl⟩, fun _ => id⟩

theorem Collapse.mono {chs chs' : Channel → Prop} (h : Collapse chs q q₁) (hc : ∀ c, chs c → chs' c) :
    Collapse chs' q q₁ :=
  ⟨fun k r hr => by
    obtain ⟨r', hr', hcol, hsame⟩ := h.row k r hr
    exact ⟨r', hr', hcol, hsame.imp_right (hc _)⟩, h.unread⟩

/-- The row a collapse started from. -/
theorem Collapse.source {chs : Channel → Prop} (h : Collapse chs q q₁) {k : ℕ} {r' : OutboxRow}
    (hr' : q₁.find? k = some r') : ∃ r, q.find? k = some r ∧ Collapsed q k r r' ∧
      (r' = r ∨ chs r.channel) := by
  cases hr : q.find? k with
  | none => exact absurd (h.unread k hr) (by simp [hr'])
  | some r =>
      obtain ⟨r₁, hr₁, hcol, hsame⟩ := h.row k r hr
      obtain rfl := Option.some.inj (hr₁.symm.trans hr')
      exact ⟨r, rfl, hcol, hsame⟩

/-- Channels are collapsed independently of each other. -/
theorem Collapse.trans {chs₁ chs₂ : Channel → Prop} (h₁ : Collapse chs₁ q q₁)
    (h₂ : Collapse chs₂ q₁ q₂) (hd : ∀ c, chs₁ c → ¬ chs₂ c) :
    Collapse (fun c => chs₁ c ∨ chs₂ c) q q₂ := by
  -- the rows of the second group of channels are untouched by the first collapse
  have hkept : ∀ {k r}, chs₂ r.channel → (q₁.find? k = some r ↔ q.find? k = some r) := by
    intro k r hc
    constructor
    · intro hr
      obtain ⟨r₀, hr₀, hcol, hsame⟩ := h₁.source hr
      rcases hsame with rfl | hc₁
      · exact hr₀
      · exact absurd hc (hd _ (hcol.frame.2.1 ▸ hc₁))
    · intro hr
      obtain ⟨r₁, hr₁, -, hsame⟩ := h₁.row k r hr
      rcases hsame with rfl | hc₁
      · exact hr₁
      · exact absurd hc (hd _ hc₁)
  refine ⟨fun k r hr => ?_, fun k hk => h₂.unread k (h₁.unread k hk)⟩
  by_cases hc : chs₂ r.channel
  · obtain ⟨r', hr', hcol, -⟩ := h₂.row k r ((hkept hc).2 hr)
    refine ⟨r', hr', ?_, .inr (.inr hc)⟩
    cases hcol with
    | same => exact .same
    | winner via hp => exact .winner via hp
    | @loser j w hp hlt hw hpend hmax =>
        have hcw : chs₂ w.channel := (isPendingFor_iff.1 hpend).1 ▸ hc
        refine .loser hp hlt ((hkept hcw).1 hw) hpend fun k' r' hr' hp' => ?_
        exact hmax k' r' ((hkept ((isPendingFor_iff.1 hp').1 ▸ hc)).2 hr') hp'
  · obtain ⟨r₁, hr₁, hcol, hsame⟩ := h₁.row k r hr
    obtain ⟨r', hr', -, hsame'⟩ := h₂.row k r₁ hr₁
    rcases hsame' with rfl | hc₂
    · exact ⟨r', hr', hcol, hsame.imp_right .inl⟩
    · exact absurd (hcol.frame.2.1 ▸ hc₂) hc

/-- The groups of a collapse: the newest row that waits for an incident. -/
theorem mem_coalesceGroups {x : String} {j : ℕ} (h : (x, j) ∈ coalesceGroups channel db) :
    (∃ w, db.outbox.find? j = some w ∧ isPendingFor channel x w = true) ∧
      ∀ k r, db.outbox.find? k = some r → isPendingFor channel x r = true → k ≤ j := by
  unfold coalesceGroups at h
  dsimp only at h
  obtain ⟨x', -, hx⟩ := List.mem_filterMap.1 h
  split_ifs at hx with hlen
  obtain ⟨rfl, rfl⟩ := Prod.mk.inj (Option.some.inj hx)
  have hmem : ∀ {k r}, (k, r) ∈ ((db.outbox.select fun _ r =>
      r.channel = channel && r.status = .pending).filter fun r => r.2.incidentId = x') ↔
      db.outbox.find? k = some r ∧ isPendingFor channel x' r = true := by
    intro k r
    rw [List.mem_filter, Table.mem_select, isPendingFor_iff]
    simp only [Bool.and_eq_true, decide_eq_true_eq]
    tauto
  refine ⟨?_, fun k r hr hp => ?_⟩
  · have hne : (((db.outbox.select fun _ r => r.channel = channel && r.status = .pending).filter
        fun r => r.2.incidentId = x').map Prod.fst) ≠ [] := by
      intro hnil
      rw [List.map_eq_nil_iff] at hnil
      rw [hnil] at hlen
      exact absurd hlen (by simp)
    obtain ⟨⟨j, w⟩, hw, hj⟩ := List.mem_map.1 (Table.foldr_max_mem hne)
    rw [← hj]
    exact ⟨w, hmem.1 hw⟩
  · exact Table.le_foldr_max (List.mem_map.2 ⟨(k, r), hmem.2 ⟨hr, hp⟩, rfl⟩)

/-- Two rows that wait for an incident make a group. -/
theorem exists_mem_coalesceGroups {x : String} {k k' : ℕ} {r r' : OutboxRow}
    (hr : db.outbox.find? k = some r) (hp : isPendingFor channel x r = true)
    (hr' : db.outbox.find? k' = some r') (hp' : isPendingFor channel x r' = true) (hne : k ≠ k') :
    ∃ j, (x, j) ∈ coalesceGroups channel db := by
  have hmem : ∀ {k r}, db.outbox.find? k = some r → isPendingFor channel x r = true →
      (k, r) ∈ db.outbox.select fun _ r => r.channel = channel && r.status = .pending := by
    intro k r hr hp
    obtain ⟨hc, hpending, -⟩ := isPendingFor_iff.1 hp
    exact Table.mem_select.2 ⟨hr, by simp [hc, hpending]⟩
  unfold coalesceGroups
  dsimp only
  refine ⟨_, List.mem_filterMap.2 ⟨x, ?_, if_pos ?_⟩⟩
  · exact List.mem_dedup.2 (List.mem_map.2 ⟨(k, r), hmem hr hp, (isPendingFor_iff.1 hp).2.2⟩)
  · -- the two rows are among those of the incident
    have hsub : [(k, r), (k', r')] ⊆ (db.outbox.select fun _ r => r.channel = channel &&
        r.status = .pending).filter fun r => r.2.incidentId = x := by
      intro row hrow
      rcases List.mem_cons.1 hrow with rfl | hrow
      · exact List.mem_filter.2 ⟨hmem hr hp, decide_eq_true (isPendingFor_iff.1 hp).2.2⟩
      · obtain rfl := List.mem_singleton.1 hrow
        exact List.mem_filter.2 ⟨hmem hr' hp', decide_eq_true (isPendingFor_iff.1 hp').2.2⟩
    have hnd : [(k, r), (k', r')].Nodup := by simp [hne]
    exact (List.subperm_of_subset hnd hsub).length_le

/-- What one group of a collapse does to a row. -/
theorem find?_coalesceGroup {s : ℕ × Table ℕ OutboxRow} {x : String} {j k : ℕ} {r : OutboxRow}
    (hr : s.2.find? k = some r) : ∃ r₁, (r₁ = r ∨ k = j ∧ ∃ via, r₁ = r.markFallback via) ∧
      (coalesceGroup channel s (x, j)).2.find? k =
        some (if isPendingFor channel x r₁ && decide (k < j) then r₁.supersede j else r₁) := by
  unfold coalesceGroup
  dsimp only
  cases carriedMarker channel x s.2 with
  | none =>
      dsimp only
      exact ⟨r, .inl rfl, (Table.find?_update _).trans (by rw [hr]; rfl)⟩
  | some via =>
      dsimp only
      by_cases hk : k = j
      · refine ⟨r.markFallback via, .inr ⟨hk, via, rfl⟩, (Table.find?_update _).trans ?_⟩
        rw [Table.find?_modify, if_pos hk, ← hk, hr]
        rfl
      · refine ⟨r, .inl rfl, (Table.find?_update _).trans ?_⟩
        rw [Table.find?_modify, if_neg hk, hr]
        rfl

theorem find?_coalesceGroup_none {s : ℕ × Table ℕ OutboxRow} {g : String × ℕ} {k : ℕ}
    (hk : s.2.find? k = none) : (coalesceGroup channel s g).2.find? k = none := by
  unfold coalesceGroup
  dsimp only
  cases carriedMarker channel g.1 s.2 with
  | none => exact (Table.find?_update _).trans (by rw [hk]; rfl)
  | some via =>
      refine (Table.find?_update _).trans ?_
      rw [Table.find?_modify]
      split_ifs with h
      · rw [← h, hk]; rfl
      · rw [hk]; rfl

/-- The queue while the groups of a collapse are worked through: a row is as it was, or
the marked winner of a group, or superseded by the winner of its group. -/
structure PartlyCollapsed (channel : Channel) (groups : List (String × ℕ))
    (q q' : Table ℕ OutboxRow) : Prop where
  row : ∀ k r, q.find? k = some r → ∃ r', q'.find? k = some r' ∧
    (r' = r ∨ (∃ via, (r.incidentId, k) ∈ groups ∧ r' = r.markFallback via) ∨
      ∃ j, (r.incidentId, j) ∈ groups ∧ k < j ∧ isPendingFor channel r.incidentId r = true ∧
        r' = r.supersede j)
  unread : ∀ k, q.find? k = none → q'.find? k = none

/-- One more group. -/
theorem PartlyCollapsed.step {groups : List (String × ℕ)} {s : ℕ × Table ℕ OutboxRow} {x : String}
    {j : ℕ} (h : PartlyCollapsed channel groups q s.2) (hgroup : (x, j) ∈ groups)
    (hwins : ∃ w, q.find? j = some w ∧ isPendingFor channel x w = true)
    (hone : ∀ j', (x, j') ∈ groups → j' = j) :
    PartlyCollapsed channel groups q (coalesceGroup channel s (x, j)).2 := by
  refine ⟨fun k r hr => ?_, fun k hk => find?_coalesceGroup_none (h.unread k hk)⟩
  obtain ⟨r', hr', hcases⟩ := h.row k r hr
  obtain ⟨r₁, hr₁, hfind⟩ := @find?_coalesceGroup channel s x j k r' hr'
  refine ⟨_, hfind, ?_⟩
  -- the winner's row waits for the incident of its group
  have hwinner : k = j → r.incidentId = x := by
    rintro rfl
    obtain ⟨w, hw, hp⟩ := hwins
    obtain rfl := Option.some.inj (hr.symm.trans hw)
    exact (isPendingFor_iff.1 hp).2.2
  by_cases hlose : (isPendingFor channel x r₁ && decide (k < j)) = true
  · rw [if_pos hlose]
    simp only [Bool.and_eq_true, decide_eq_true_eq] at hlose
    obtain ⟨hp, hlt⟩ := hlose
    obtain rfl : r₁ = r' := hr₁.resolve_right fun h => absurd h.1 hlt.ne
    obtain ⟨-, hpending, hinc⟩ := isPendingFor_iff.1 hp
    rcases hcases with rfl | ⟨via, hmem, rfl⟩ | ⟨j', -, -, -, rfl⟩
    · exact .inr (.inr ⟨j, hinc ▸ hgroup, hlt, hinc ▸ hp, rfl⟩)
    · have hx : r.incidentId = x := hinc
      exact absurd (hone k (hx ▸ hmem)) hlt.ne
    · exact absurd hpending (by simp [OutboxRow.supersede])
  · rw [if_neg hlose]
    rcases hr₁ with rfl | ⟨hk, via, rfl⟩
    · exact hcases
    · have hmem : (r.incidentId, k) ∈ groups := by rw [hwinner hk, hk]; exact hgroup
      rcases hcases with rfl | ⟨via', -, rfl⟩ | ⟨j', hmem', hlt, -, rfl⟩
      · exact .inr (.inl ⟨via, hmem, rfl⟩)
      · exact .inr (.inl ⟨via, hmem, rfl⟩)
      · exact absurd (hk.trans (hone j' (hwinner hk ▸ hmem')).symm) hlt.ne

/-- **A collapse of one channel.** -/
theorem coalescePending_collapse (channel : Channel) (db : Database K) :
    Collapse (· = channel) db.outbox (coalescePending channel db).2.outbox := by
  have hprogress : PartlyCollapsed channel (coalesceGroups channel db) db.outbox
      (coalescePending channel db).2.outbox := by
    unfold coalescePending
    refine List.foldlRecOn
      (motive := fun s : ℕ × Table ℕ OutboxRow =>
        PartlyCollapsed channel (coalesceGroups channel db) db.outbox s.2)
      _ _ ?_ ?_
    · exact ⟨fun k r hr => ⟨r, hr, .inl rfl⟩, fun k hk => hk⟩
    rintro s hs ⟨x, j⟩ hgroup
    obtain ⟨⟨w, hw, hp⟩, hmax⟩ := mem_coalesceGroups hgroup
    refine hs.step hgroup ⟨w, hw, hp⟩ fun j' hj' => ?_
    obtain ⟨⟨w', hw', hp'⟩, hmax'⟩ := mem_coalesceGroups hj'
    exact le_antisymm (hmax j' w' hw' hp') (hmax' j w hw hp)
  refine ⟨fun k r hr => ?_, hprogress.unread⟩
  obtain ⟨r', hr', hcases⟩ := hprogress.row k r hr
  refine ⟨r', hr', ?_⟩
  rcases hcases with rfl | ⟨via, hmem, rfl⟩ | ⟨j, hmem, hlt, hp, rfl⟩
  · exact ⟨.same, .inl rfl⟩
  · obtain ⟨⟨w, hw, hp⟩, -⟩ := mem_coalesceGroups hmem
    obtain rfl := Option.some.inj (hr.symm.trans hw)
    obtain ⟨hc, hpending, -⟩ := isPendingFor_iff.1 hp
    exact ⟨.winner via hpending, .inr hc⟩
  · obtain ⟨⟨w, hw, hpw⟩, hmax⟩ := mem_coalesceGroups hmem
    obtain ⟨rfl, hpending, -⟩ := isPendingFor_iff.1 hp
    exact ⟨.loser hpending hlt hw hpw hmax, .inr rfl⟩

/-- One row at most waits for each incident on the channel. -/
def OneWaits (channel : Channel) (q : Table ℕ OutboxRow) : Prop :=
  ∀ x k r k' r', q.find? k = some r → isPendingFor channel x r = true →
    q.find? k' = some r' → isPendingFor channel x r' = true → k = k'

/-- A row that waits after a collapse waited before it. -/
theorem Collapse.waits {chs : Channel → Prop} {x : String} (h : Collapse chs q q₁) {k : ℕ} {r' : OutboxRow}
    (hr' : q₁.find? k = some r') (hp : isPendingFor channel x r' = true) :
    ∃ r, q.find? k = some r ∧ isPendingFor channel x r = true := by
  obtain ⟨r, hr, hcol, -⟩ := h.source hr'
  refine ⟨r, hr, ?_⟩
  obtain ⟨hc, hpending, hx⟩ := isPendingFor_iff.1 hp
  obtain ⟨hid, hch, -⟩ := hcol.frame
  refine isPendingFor_iff.2 ⟨hch ▸ hc, ?_, hid ▸ hx⟩
  cases hcol with
  | same => exact hpending
  | winner _ hp' => exact hp'
  | loser hp' _ _ _ _ => exact hp'

/-- A collapse adds nothing to a channel. -/
theorem Collapse.oneWaits {chs : Channel → Prop} (h : Collapse chs q q₁) (hone : OneWaits channel q) :
    OneWaits channel q₁ := by
  intro x k r k' r' hr hp hr' hp'
  obtain ⟨r₀, hr₀, hp₀⟩ := h.waits hr hp
  obtain ⟨r₁, hr₁, hp₁⟩ := h.waits hr' hp'
  exact hone x k r₀ k' r₁ hr₀ hp₀ hr₁ hp₁

/-- No row that waits for the incident on the channel is older than `j`. -/
def NoneOlder (channel : Channel) (x : String) (j : ℕ) (q : Table ℕ OutboxRow) : Prop :=
  ∀ k r, q.find? k = some r → isPendingFor channel x r = true → ¬ k < j

/-- The row before one group of a collapse, where it still waits. -/
theorem coalesceGroup_source {s : ℕ × Table ℕ OutboxRow} {x y : String} {j k : ℕ} {r' : OutboxRow}
    (hr' : (coalesceGroup channel s (x, j)).2.find? k = some r') (hp : isPendingFor channel y r' = true) :
    ∃ r, s.2.find? k = some r ∧ isPendingFor channel y r = true ∧ (y = x → ¬ k < j) := by
  cases hr : s.2.find? k with
  | none => cases hr'.symm.trans (find?_coalesceGroup_none hr)
  | some r =>
      obtain ⟨r₁, hr₁, hfind⟩ := @find?_coalesceGroup channel s x j k r hr
      obtain rfl := Option.some.inj (hr'.symm.trans hfind)
      by_cases hlose : (isPendingFor channel x r₁ && decide (k < j)) = true
      · rw [if_pos hlose] at hp
        obtain ⟨-, hpending, -⟩ := isPendingFor_iff.1 hp
        cases hpending
      · rw [if_neg hlose] at hp
        refine ⟨r, rfl, ?_, ?_⟩
        · rcases hr₁ with rfl | ⟨-, via, rfl⟩
          · exact hp
          · exact hp
        · rintro rfl hlt
          exact hlose (by rw [hp, decide_eq_true hlt]; rfl)

/-- **After a collapse one row at most waits for each incident.** -/
theorem coalescePending_oneWaits (channel : Channel) (db : Database K) :
    OneWaits channel (coalescePending channel db).2.outbox := by
  have hcol := coalescePending_collapse channel db
  -- an older row of two was superseded with its group
  have hlt : ∀ {x k r k' r'}, (coalescePending channel db).2.outbox.find? k = some r →
      isPendingFor channel x r = true → (coalescePending channel db).2.outbox.find? k' = some r' →
      isPendingFor channel x r' = true → ¬ k < k' := by
    intro x k r k' r' hr hp hr' hp' hlt
    obtain ⟨r₀, hr₀, hp₀⟩ := hcol.waits hr hp
    obtain ⟨r₁, hr₁, hp₁⟩ := hcol.waits hr' hp'
    obtain ⟨j, hgroup⟩ : ∃ j, (x, j) ∈ coalesceGroups channel db := by
      refine exists_mem_coalesceGroups hr₀ hp₀ hr₁ hp₁ hlt.ne
    obtain ⟨-, hmax⟩ := mem_coalesceGroups hgroup
    have hnone : NoneOlder channel x j (coalescePending channel db).2.outbox := by
      unfold coalescePending
      refine Library.foldl_establishes (P := fun s : ℕ × Table ℕ OutboxRow => NoneOlder channel x j s.2)
        hgroup (fun s k r hr hp => ?_) fun s g hs k r hr hp => ?_
      · obtain ⟨-, -, -, hnot⟩ := coalesceGroup_source hr hp
        exact hnot rfl
      · obtain ⟨r₀, hr₀, hp₀, -⟩ := @coalesceGroup_source channel s g.1 x g.2 k r hr hp
        exact hs k r₀ hr₀ hp₀
    exact hnone k r hr hp (hlt.trans_le (hmax k' r₁ hr₁ hp₁))
  intro x k r k' r' hr hp hr' hp'
  exact le_antisymm (not_lt.1 (hlt hr' hp' hr hp)) (not_lt.1 (hlt hr hp hr' hp'))

end Collapse

/-! ## What filling a payload keeps -/

section Hydrate

variable {db : Database K} {x : String} {payload : Payload}

/-- A filled payload is about the incident it was about, or about the incident it is filled from. -/
theorem hydratePayload_incidentId : (hydratePayload x payload db).incidentId = payload.incidentId ∨
    (hydratePayload x payload db).incidentId = payload.incidentId.or (some x) := by
  unfold hydratePayload
  split
  · exact .inl rfl
  · refine .inr ?_
    dsimp only
    split
    · split_ifs <;> rfl
    · rfl

/-- The state on a filled payload is the incident's own, also on the card of a storm. -/
theorem hydratePayload_state {i : Incident} (hi : db.incidents.find? x = some i) :
    (hydratePayload x payload db).state = some i.status := by
  unfold hydratePayload
  rw [hi]
  dsimp only
  split
  · split_ifs <;> rfl
  · rfl

/-- Who handled an incident is read off its own row. -/
theorem hydratePayload_provenance {i : Incident} (hi : db.incidents.find? x = some i) :
    (hydratePayload x payload db).via = (i.resolvedVia.or i.acknowledgedVia).or payload.via ∧
      (hydratePayload x payload db).resolutionSource =
        (truthy i.resolutionSource).or payload.resolutionSource := by
  unfold hydratePayload
  rw [hi]
  dsimp only
  split
  · split_ifs <;> exact ⟨rfl, rfl⟩
  · exact ⟨rfl, rfl⟩

/-- So is who is named as having acknowledged it. -/
theorem hydratePayload_acknowledgedBy {i : Incident} (hi : db.incidents.find? x = some i) :
    (hydratePayload x payload db).acknowledgedBy = (truthy i.acknowledgedBy).or payload.acknowledgedBy := by
  unfold hydratePayload
  rw [hi]
  dsimp only
  split
  · split_ifs <;> rfl
  · rfl

theorem hydratePayload_digest : (hydratePayload x payload db).digest = payload.digest := by
  unfold hydratePayload
  split
  · rfl
  · dsimp only
    split
    · split_ifs <;> rfl
    · rfl

end Hydrate

end PulseGraph
