/-
# The breaker and the record of its outages

The breaker's row and its outage row are written by three functions of
`src/outbox/channel_health.py`.  They agree (`Coherent`) when a channel that is not
`CLOSED` has exactly one outage in progress, and a `CLOSED` one has none and fewer
failures than the threshold.  A call that records a success or a failure keeps them in
agreement from every state; one that records a probe does so unless another worker has
closed the channel since the probe went out.  So the two agree in all of a run exactly
when no probe's result was recorded on a closed channel (`coherent_iff`).
-/

import PulseGraph.Outbox.ChannelHealth
import PulseGraph.Library.Run

namespace PulseGraph

open Library (Table Run Transition)

variable {K : Type} (rt : Runtime K)

/-! ## Outages in progress -/

/-- The outages of a channel in progress. -/
def openOutages (channel : Channel) (db : Database K) : ℕ :=
  db.channelOutages.count fun _ o => o.channel = channel && o.recoveredAt.isNone

section Count

variable {db db' : Database K} {channel : Channel} {now : ℤ}

theorem openOutages_congr (h : db'.channelOutages = db.channelOutages) (c : Channel) :
    openOutages c db' = openOutages c db := by
  rw [openOutages, h, openOutages]

/-- Rewriting the outage in progress ends none. -/
theorem openOutages_modifyOpenOutage {f : ChannelOutage → ChannelOutage}
    (hf : ∀ o, (f o).channel = o.channel ∧ (f o).recoveredAt = o.recoveredAt) (c : Channel) :
    openOutages c (modifyOpenOutage channel f db) = openOutages c db := by
  unfold modifyOpenOutage
  split
  · rfl
  · next row _ =>
      simp only [openOutages, Table.count_eq_sum]
      refine Table.sum_update fun k o => ?_
      split_ifs <;> simp_all

/-- Closing a channel ends one of its outages. -/
theorem openOutages_closeOutage (c : Channel) : openOutages c (closeOutage channel now db) =
    openOutages c db - if c = channel then 1 else 0 := by
  unfold closeOutage modifyOpenOutage
  cases hrow : openOutageRow channel db with
  | none =>
      show openOutages c db = _
      have hnone := firstBy_eq_none.1 hrow
      split_ifs with hc
      · subst hc
        have hzero : openOutages c db = 0 := by
          rw [openOutages, Table.count, List.countP_eq_length_filter]
          exact congrArg List.length hnone
        omega
      · omega
  | some row =>
      obtain ⟨k, o⟩ := row
      obtain ⟨ho, hsel⟩ := Table.mem_select.1 (firstBy_mem hrow)
      simp only [Bool.and_eq_true, decide_eq_true_eq] at hsel
      have hsum := Table.sum_modify (g := fun _ o => if o.channel = c && o.recoveredAt.isNone then 1 else 0)
        ho fun o => { o with recoveredAt := some now }
      simp only [openOutages, Table.count_eq_sum]
      by_cases hc : c = channel
      · subst hc
        simp only [hsel.1, hsel.2, Option.isNone_some, Bool.and_false, Bool.false_eq_true, if_false,
          decide_true, Bool.and_true, if_true] at hsum ⊢
        omega
      · have hne : ¬ channel = c := fun h => hc h.symm
        simp only [hsel.1, hne, hc, decide_false, Bool.false_and, Bool.false_eq_true, if_false] at hsum ⊢
        omega

/-- Declaring a channel down begins one. -/
theorem openOutages_declared {reason : String} (c : Channel)
    (h : db'.channelOutages = declaredOutages now channel reason db) :
    openOutages c db' = openOutages c db + if c = channel then 1 else 0 := by
  simp only [openOutages, Table.count_eq_sum, h, declaredOutages, Table.push]
  rw [Table.sum_insert Table.find?_nextKey]
  by_cases hc : c = channel
  · simp [hc]
  · simp [hc, Ne.symm hc]

end Count

/-! ## Agreement -/

/-- The outages of a channel are recorded: one is in progress while it is not closed, and none else. -/
structure Recorded (channel : Channel) (db : Database K) : Prop where
  closed : (getState channel db).state = .CLOSED → openOutages channel db = 0
  down : (getState channel db).state ≠ .CLOSED → openOutages channel db = 1

/-- **The breaker of a channel agrees with the record of its outages.** -/
structure Coherent (channel : Channel) (db : Database K) : Prop where
  closed : (getState channel db).state = .CLOSED →
    (getState channel db).consecutiveFailures < rt.settings.outboxBreakerFailureThreshold ∧
      openOutages channel db = 0
  down : (getState channel db).state ≠ .CLOSED → openOutages channel db = 1

section Calls

variable {rt} {db db' : Database K} {channel c : Channel} {now : ℤ}

/-- The two agree when the outages are recorded and a closed channel is below the threshold. -/
theorem coherent_iff_recorded : Coherent rt c db ↔ Recorded c db ∧ ((getState c db).state = .CLOSED →
    (getState c db).consecutiveFailures < rt.settings.outboxBreakerFailureThreshold) := by
  constructor
  · intro h
    exact ⟨⟨fun hc => (h.closed hc).2, h.down⟩, fun hc => (h.closed hc).1⟩
  · rintro ⟨h, hbelow⟩
    exact ⟨fun hc => ⟨hbelow hc, h.closed hc⟩, h.down⟩

theorem Recorded.congr (hc : Recorded c db) (hstate : getState c db' = getState c db)
    (houtages : openOutages c db' = openOutages c db) : Recorded c db' := by
  constructor
  · rw [hstate, houtages]
    exact hc.closed
  · rw [hstate, houtages]
    exact hc.down

theorem Coherent.congr (hc : Coherent rt c db) (hstate : getState c db' = getState c db)
    (houtages : openOutages c db' = openOutages c db) : Coherent rt c db' := by
  obtain ⟨hrec, hbelow⟩ := coherent_iff_recorded.1 hc
  exact coherent_iff_recorded.2 ⟨hrec.congr hstate houtages, by rw [hstate]; exact hbelow⟩

/-- Before the first call no outage is in progress. -/
theorem recorded_empty : Recorded c (Database.empty : Database K) := ⟨fun _ => rfl, fun h => absurd rfl h⟩

/-- Before the first call nothing is wrong with any channel. -/
theorem coherent_empty (hthr : 0 < rt.settings.outboxBreakerFailureThreshold) :
    Coherent rt c (Database.empty : Database K) :=
  coherent_iff_recorded.2 ⟨recorded_empty, fun _ => hthr⟩

/-- Recording a success keeps the record of every channel. -/
theorem Recorded.success (hc : Recorded c db) : Recorded c (recordSuccess now channel db).2 := by
  obtain ⟨⟨hstate, -⟩, hothers, houtages⟩ := @recordSuccess_move _ db channel now
  have hcount := openOutages_congr houtages c
  by_cases heq : c = channel
  · subst heq
    refine ⟨fun _ => ?_, fun h => absurd hstate h⟩
    rw [hcount]
    split_ifs with hclosed
    · exact hc.closed hclosed
    · rw [openOutages_closeOutage, hc.down hclosed, if_pos rfl]
  · refine hc.congr (hothers c heq) (hcount.trans ?_)
    split_ifs
    · rfl
    · rw [openOutages_closeOutage, if_neg heq]
      omega

/-- Recording a success keeps every channel in agreement. -/
theorem Coherent.success (hthr : 0 < rt.settings.outboxBreakerFailureThreshold)
    (hc : Coherent rt c db) : Coherent rt c (recordSuccess now channel db).2 := by
  obtain ⟨hrec, hbelow⟩ := coherent_iff_recorded.1 hc
  refine coherent_iff_recorded.2 ⟨hrec.success, ?_⟩
  obtain ⟨⟨-, hfailures, -⟩, hothers, -⟩ := @recordSuccess_move _ db channel now
  by_cases heq : c = channel
  · subst heq
    rw [hfailures]
    exact fun _ => hthr
  · rw [hothers c heq]
    exact hbelow

/-- Recording a failure keeps the record of every channel. -/
theorem Recorded.failure {verdict : FailureVerdict} {newlyDown : Bool}
    (h : recordFailure rt now channel verdict db = some (newlyDown, db')) (hc : Recorded c db) :
    Recorded c db' := by
  obtain ⟨hmove, hothers⟩ := recordFailure_move h
  by_cases heq : c = channel
  swap
  · refine hc.congr (hothers c heq) ?_
    cases hmove with
    | declared _ _ _ _ ho => rw [openOutages_declared c ho, if_neg heq, Nat.add_zero]
    | spared _ _ ho => exact openOutages_congr ho c
    | setBack _ _ _ _ _ _ _ ho => exact openOutages_congr ho c
    | counted _ _ _ _ ho => exact openOutages_congr ho c
  subst heq
  cases hmove with
  | spared _ hstate ho =>
      have hcount := openOutages_congr ho c
      constructor
      · rw [hstate, hcount]
        exact hc.closed
      · rw [hstate, hcount]
        exact hc.down
  | setBack _ hne _ hstate _ _ _ ho =>
      refine ⟨fun h => ?_, fun _ => (openOutages_congr ho c).trans (hc.down hne)⟩
      rw [hstate] at h
      cases h
  | counted _ hclosed _ hstate ho =>
      refine ⟨fun _ => (openOutages_congr ho c).trans (hc.closed hclosed), fun h => ?_⟩
      rw [hstate] at h
      exact absurd hclosed h
  | declared _ hclosed _ hstate ho =>
      constructor
      · intro h
        rw [hstate] at h
        cases h
      · intro _
        rw [openOutages_declared c ho, hc.closed hclosed, if_pos rfl]

/-- Recording a failure keeps every channel in agreement. -/
theorem Coherent.failure {verdict : FailureVerdict} {newlyDown : Bool}
    (h : recordFailure rt now channel verdict db = some (newlyDown, db')) (hc : Coherent rt c db) :
    Coherent rt c db' := by
  obtain ⟨hrec, hbelow⟩ := coherent_iff_recorded.1 hc
  refine coherent_iff_recorded.2 ⟨hrec.failure h, ?_⟩
  obtain ⟨hmove, hothers⟩ := recordFailure_move h
  by_cases heq : c = channel
  swap
  · rw [hothers c heq]
    exact hbelow
  subst heq
  intro hclosed
  cases hmove with
  | spared _ hstate _ =>
      rw [hstate] at hclosed ⊢
      exact hbelow hclosed
  | setBack _ _ _ hstate =>
      rw [hstate] at hclosed
      cases hclosed
  | counted _ _ hcount hstate _ =>
      rw [hstate]
      exact hcount
  | declared _ _ _ hstate _ =>
      rw [hstate] at hclosed
      cases hclosed

/-- A probe begins and ends no outage. -/
theorem openOutages_probeResult {healthy : Bool} {detail : String}
    (h : recordProbeResult rt now channel healthy detail db = some db') (c : Channel) :
    openOutages c db' = openOutages c db := by
  obtain ⟨-, ⟨-, -, -, ho⟩ | ⟨-, -, -, ho⟩⟩ := recordProbeResult_move h
  · exact openOutages_congr ho c
  · refine (openOutages_congr ho c).trans (openOutages_modifyOpenOutage ?_ c)
    exact fun _ => ⟨rfl, rfl⟩

/-- Recording a probe keeps the record of every channel, if its own is not closed. -/
theorem Recorded.probeResult {healthy : Bool} {detail : String}
    (h : recordProbeResult rt now channel healthy detail db = some db')
    (hne : (getState channel db).state ≠ .CLOSED) (hc : Recorded c db) : Recorded c db' := by
  have hcount := openOutages_probeResult h c
  by_cases heq : c = channel
  · subst heq
    refine ⟨fun hclosed => ?_, fun _ => hcount.trans (hc.down hne)⟩
    rw [recordProbeResult_state h] at hclosed
    split_ifs at hclosed
  · exact hc.congr ((recordProbeResult_move h).1 c heq) hcount

/-- Recording a probe keeps every channel in agreement, if its own is not closed. -/
theorem Coherent.probeResult {healthy : Bool} {detail : String}
    (h : recordProbeResult rt now channel healthy detail db = some db')
    (hne : (getState channel db).state ≠ .CLOSED) (hc : Coherent rt c db) : Coherent rt c db' := by
  obtain ⟨hrec, hbelow⟩ := coherent_iff_recorded.1 hc
  refine coherent_iff_recorded.2 ⟨hrec.probeResult h hne, fun hclosed => ?_⟩
  by_cases heq : c = channel
  · subst heq
    rw [recordProbeResult_state h] at hclosed
    split_ifs at hclosed
  · rw [(recordProbeResult_move h).1 c heq] at hclosed ⊢
    exact hbelow hclosed

/-- **A probe recorded on a closed channel breaks the agreement**: the channel is on trial or down,
and no outage is in progress. -/
theorem not_coherent_of_stale {healthy : Bool} {detail : String}
    (h : recordProbeResult rt now channel healthy detail db = some db')
    (hclosed : (getState channel db).state = .CLOSED) (hc : Coherent rt channel db) :
    ¬ Coherent rt channel db' := by
  intro hc'
  have hcount := (openOutages_probeResult h channel).trans (hc.closed hclosed).2
  have hdown : (getState channel db').state ≠ .CLOSED := by
    rw [recordProbeResult_state h]
    split_ifs <;> simp
  have hone := hc'.down hdown
  omega

end Calls

/-! ## Any calls of any workers -/

/-- What a worker calls on a breaker, and what everything else does to the database. -/
inductive BreakerCall (K : Type) where
  /-- a worker sees the channel `OPEN`, and will probe it -/
  | observe (w : String) (channel : Channel)
  | success (now : ℤ) (channel : Channel)
  | failure (now : ℤ) (channel : Channel) (verdict : FailureVerdict)
  | probeResult (w : String) (now : ℤ) (channel : Channel) (healthy : Bool) (detail : String)
  /-- a transaction on the other tables -/
  | elsewhere (write : Database K → Database K)

/-- The database, and who has seen which channel `OPEN`. -/
structure Breakers (K : Type) where
  db : Database K
  observed : List (String × Channel)

/-- One call; one that raises leaves the database alone. -/
def breakerNext (s : Breakers K) : BreakerCall K → Option (Breakers K)
  | .observe w channel =>
      if (getState channel s.db).state = .OPEN then some { s with observed := (w, channel) :: s.observed }
      else none
  | .success now channel => some { s with db := (recordSuccess now channel s.db).2 }
  | .failure now channel verdict =>
      some { s with db := ((recordFailure rt now channel verdict s.db).map Prod.snd).getD s.db }
  | .probeResult w now channel healthy detail =>
      if (w, channel) ∈ s.observed then
        some { s with db := (recordProbeResult rt now channel healthy detail s.db).getD s.db }
      else none
  | .elsewhere write =>
      some { s with
        db := { write s.db with
          channelHealth := s.db.channelHealth
          channelOutages := s.db.channelOutages } }

/-- **The runs of the breakers**: from a database in which every channel is in agreement, any calls
of any workers in any order. -/
def BreakerRun : List (Transition (Breakers K) (BreakerCall K)) → Breakers K → Prop :=
  Run (fun s => (∀ c, Coherent rt c s.db) ∧ s.observed = []) fun s call s' => breakerNext rt s call = some s'

/-- The call records a probe's result on a channel that is closed by now. -/
def recordsStale (t : Transition (Breakers K) (BreakerCall K)) : Bool :=
  match t.label with
  | .probeResult _ now channel healthy detail =>
      (getState channel t.source.db).state = .CLOSED &&
        (recordProbeResult rt now channel healthy detail t.source.db).isSome
  | _ => false

section Runs

variable {rt} {s s' : Breakers K} {h : List (Transition (Breakers K) (BreakerCall K))}

/-- A call that records no stale probe keeps every channel in agreement. -/
theorem coherent_of_breakerNext {call : BreakerCall K}
    (hthr : 0 < rt.settings.outboxBreakerFailureThreshold) (hnext : breakerNext rt s call = some s')
    (hfresh : recordsStale rt ⟨s, call, s'⟩ = false) {c : Channel} (hc : Coherent rt c s.db) :
    Coherent rt c s'.db := by
  unfold breakerNext at hnext
  cases call with
  | observe w channel =>
      dsimp only at hnext
      split_ifs at hnext
      obtain rfl := Option.some.inj hnext
      exact hc
  | success now channel =>
      obtain rfl := Option.some.inj hnext
      exact hc.success hthr
  | failure now channel verdict =>
      obtain rfl := Option.some.inj hnext
      dsimp only
      cases hr : recordFailure rt now channel verdict s.db with
      | none => exact hc
      | some r => exact hc.failure hr
  | probeResult w now channel healthy detail =>
      dsimp only at hnext
      split_ifs at hnext
      obtain rfl := Option.some.inj hnext
      dsimp only
      cases hr : recordProbeResult rt now channel healthy detail s.db with
      | none => exact hc
      | some db =>
          refine hc.probeResult hr fun hclosed => ?_
          simp [recordsStale, hclosed, hr] at hfresh
  | elsewhere write =>
      obtain rfl := Option.some.inj hnext
      exact hc.congr rfl rfl

/-- A call that records a stale probe breaks the agreement of its channel. -/
theorem not_coherent_of_recordsStale {call : BreakerCall K} (hnext : breakerNext rt s call = some s')
    (hstale : recordsStale rt ⟨s, call, s'⟩ = true) (hc : ∀ c, Coherent rt c s.db) :
    ∃ c, ¬ Coherent rt c s'.db := by
  cases call with
  | probeResult w now channel healthy detail =>
      simp only [recordsStale, Bool.and_eq_true, decide_eq_true_eq] at hstale
      obtain ⟨hclosed, hreturns⟩ := hstale
      obtain ⟨db, hr⟩ := Option.isSome_iff_exists.1 hreturns
      unfold breakerNext at hnext
      dsimp only at hnext
      split_ifs at hnext
      obtain rfl := Option.some.inj hnext
      rw [hr]
      exact ⟨channel, not_coherent_of_stale hr hclosed (hc channel)⟩
  | _ => cases hstale

/-- **When the breakers and the record of their outages agree**: in every state of a run exactly
when no probe's result was recorded on a channel that another worker had closed. -/
theorem coherent_iff (hthr : 0 < rt.settings.outboxBreakerFailureThreshold) (r : BreakerRun rt h s) :
    (∀ x ∈ s :: h.map (·.source), ∀ c, Coherent rt c x.db) ↔
      ∀ t ∈ h, recordsStale rt t = false := by
  constructor
  · intro hall t ht
    refine Bool.eq_false_iff.2 fun hstale => ?_
    obtain ⟨g, -, hnext⟩ := r.source_run ht
    have hsource := hall t.source (List.mem_cons_of_mem _ (List.mem_map_of_mem ht))
    obtain ⟨c, hbroken⟩ := not_coherent_of_recordsStale hnext hstale hsource
    exact hbroken (hall t.target (r.target_mem ht) c)
  · intro hfresh
    refine Run.induct_of_forall (I := fun h s => ∀ x ∈ s :: h.map (·.source), ∀ c, Coherent rt c x.db)
      r hfresh ?_ ?_
    · rintro s ⟨hs, -⟩ x hx c
      obtain rfl := List.mem_singleton.1 hx
      exact hs c
    · intro h s call s' _ _ ih hfresh hnext x hx c
      rcases List.mem_cons.1 hx with rfl | hx
      · exact coherent_of_breakerNext hthr hnext hfresh (ih s List.mem_cons_self c)
      · exact ih x hx c

/-- What a replay from a fresh database computes is true of a run. -/
theorem BreakerRun.of_replay (hthr : 0 < rt.settings.outboxBreakerFailureThreshold)
    {calls : List (BreakerCall K)} {β : Type}
    {f : List (Transition (Breakers K) (BreakerCall K)) × Breakers K → β} {b : β}
    (h : (Library.replay (breakerNext rt) calls ([], ⟨Database.empty, []⟩)).map f = some b) :
    ∃ h s, BreakerRun rt h s ∧ f (h, s) = b :=
  Run.exists_of_replay ⟨fun _ => coherent_empty hthr, rfl⟩ h

end Runs

/-- Slack cannot be reached three times, two workers see it down, and the first one's probe succeeds. -/
def outageCalls : List (BreakerCall ℚ) :=
  List.replicate 3 (.failure 1000 .slack (classify (.transportError "ConnectTimeout"))) ++
    [.observe "a" .slack, .observe "b" .slack, .probeResult "a" 9000 .slack true "probe_ok"]

theorem coherent_iff_outage : ∃ h s, BreakerRun Runtime.reference h s ∧
    (getState .slack s.db).state = .HALF_OPEN ∧
    ∀ x ∈ s :: h.map (·.source), ∀ c, Coherent Runtime.reference c x.db := by
  have hrun : (Library.replay (breakerNext Runtime.reference) outageCalls ([], ⟨Database.empty, []⟩)).map
      (fun x => ((getState .slack x.2.db).state, x.1.all fun t => !recordsStale Runtime.reference t)) =
        some (.HALF_OPEN, true) := by decide +kernel
  obtain ⟨h, s, r, hs⟩ := BreakerRun.of_replay (by decide) hrun
  obtain ⟨hstate, hfresh⟩ := Prod.mk.inj hs
  refine ⟨h, s, r, hstate, (coherent_iff (by decide) r).2 fun t ht => ?_⟩
  simpa using List.all_eq_true.1 hfresh t ht

/-- **A late probe leaves a channel on trial with no outage**: the channel is closed by a delivery
before the second worker's probe is recorded. -/
theorem not_coherent : ¬ ∀ h s, BreakerRun Runtime.reference h s →
    ∀ c, Coherent Runtime.reference c s.db := by
  intro hall
  have hrun : (Library.replay (breakerNext Runtime.reference)
      (outageCalls ++ [.success 9500 .slack, .probeResult "b" 9600 .slack true "probe_ok"])
      ([], ⟨Database.empty, []⟩)).map
      (fun x => ((getState .slack x.2.db).state, openOutages .slack x.2.db)) = some (.HALF_OPEN, 0) := by
    decide +kernel
  obtain ⟨h, s, r, hs⟩ := BreakerRun.of_replay (by decide) hrun
  obtain ⟨hstate, houtages⟩ := Prod.mk.inj hs
  have hone := (hall h s r .slack).down (by rw [hstate]; decide)
  rw [houtages] at hone
  exact absurd hone (by decide)

end PulseGraph
