/-
# One digest for an outage

A digest is queued at every probe that succeeds, and an outage may see many: a channel on
trial that fails goes back to `OPEN`, and is probed again.  What keeps the channel from being
told twice is that the digests of an outage have one incident id between them, so that the
collapse of a pass leaves one of them to claim, and that its delivery ends the outage.

**Proved here.**  Every digest that is no stand-in is of an outage (`digestOf_of_run`), and with a
single worker that does not die at most one of the digests queued for an outage is delivered
(`oneDigest_of_run`).  The invariant is `DigestInvariant`: one
digest of the outage at most waits, except from a probe that succeeds to the next collapse
(`DigestInvariant.one`), and once one was taken, none waits and the outage is over or about
to be ended (`DigestInvariant.taken`).
-/

import PulseGraph.Outbox.OneCard
import PulseGraph.Outbox.OpenChannel

namespace PulseGraph

open Library (Table Run Transition)

variable {K : Type}

/-! ## What is recorded of an outage -/

section Outages

variable {rt : Runtime K} {w : String} {db db' : Database K} {phase phase' : Phase} {step : WorkerStep}
  {c : Channel} {n : ℕ} {o : ChannelOutage}

/-- Where and when an outage began stays on record, and one that is over stays over. -/
def Endures (o o' : ChannelOutage) : Prop :=
  o'.channel = o.channel ∧ o'.detectedAt = o.detectedAt ∧ (o'.recoveredAt = none → o.recoveredAt = none)

theorem Annotates.endures {t t' : Table ℕ ChannelOutage} (h : Annotates t t') (ho : t.find? n = some o) :
    ∃ o', t'.find? n = some o' ∧ Endures o o' := by
  obtain ⟨f, rfl, hsame⟩ := h
  obtain ⟨hc, hd, hr⟩ := hsame n o
  exact ⟨f n o, by rw [Table.find?_update, ho]; rfl, hc, hd, fun hnone => hr.symm.trans hnone⟩

/-- The outage in progress, where there is one. -/
theorem openOutageRow_eq_some (h : openOutageRow c db = some (n, o)) :
    db.channelOutages.find? n = some o ∧ o.channel = c ∧ o.recoveredAt = none := by
  obtain ⟨ho, hsel⟩ := Table.mem_select.1 (firstBy_mem h)
  simp only [Bool.and_eq_true, decide_eq_true_eq, Option.isNone_iff_eq_none] at hsel
  exact ⟨ho, hsel⟩

/-- An outage in progress is the one that is found, while its channel has no other. -/
theorem openOutageRow_of_one (hone : openOutages c db = 1) (ho : db.channelOutages.find? n = some o)
    (hc : o.channel = c) (hr : o.recoveredAt = none) : openOutageRow c db = some (n, o) := by
  have hmem : (n, o) ∈ db.channelOutages.select fun _ o => o.channel = c && o.recoveredAt.isNone :=
    Table.mem_select.2 ⟨ho, by simp [hc, hr]⟩
  rw [openOutages, Table.count, List.countP_eq_length_filter] at hone
  obtain ⟨row, hrow⟩ := List.length_eq_one_iff.1 hone
  have hselect : (db.channelOutages.select fun _ o => o.channel = c && o.recoveredAt.isNone) = [row] := hrow
  rw [hselect] at hmem
  obtain rfl := List.mem_singleton.1 hmem
  rw [openOutageRow, hselect]
  rfl

theorem recordSuccess_endures {now : ℤ} (ho : db.channelOutages.find? n = some o) :
    ∃ o', (recordSuccess now c db).2.channelOutages.find? n = some o' ∧ Endures o o' := by
  have hsame : Endures o o := ⟨rfl, rfl, id⟩
  obtain ⟨-, -, hout⟩ := @recordSuccess_move _ db c now
  rw [hout]
  split_ifs
  · exact ⟨o, ho, hsame⟩
  · unfold closeOutage modifyOpenOutage
    split
    · exact ⟨o, ho, hsame⟩
    · next row _ =>
        refine ⟨if n = row.1 then { o with recoveredAt := some now } else o, ?_, ?_⟩
        · show (Table.modify _ _ _).find? n = _
          rw [Table.find?_modify]
          split_ifs with hn
          · rw [← hn, ho]
            rfl
          · exact ho
        · split_ifs
          · exact ⟨rfl, rfl, fun h => by cases h⟩
          · exact hsame

/-- **A step of a worker keeps the record of an outage.** -/
theorem WorkerMove.endures (h : WorkerMove rt w db phase step phase' db')
    (ho : db.channelOutages.find? n = some o) :
    ∃ o', db'.channelOutages.find? n = some o' ∧ Endures o o' := by
  have hsame : Endures o o := ⟨rfl, rfl, id⟩
  cases h.breakers with
  | still _ hout => exact hout.endures ho
  | @probed now outcome detail channel states db₁ hr _ hout =>
      rw [hout]
      obtain ⟨-, ⟨-, -, -, hout₁⟩ | ⟨-, -, -, hout₁⟩⟩ := recordProbeResult_move hr
      · exact ⟨o, hout₁ ▸ ho, hsame⟩
      · rw [hout₁]
        refine Annotates.endures (annotates_modifyOpenOutage ?_) ho
        exact fun _ => ⟨rfl, rfl, rfl⟩
  | succeeded hdb =>
      rw [hdb]
      exact recordSuccess_endures ho
  | failed hr =>
      cases (recordFailure_move hr).1 with
      | declared _ _ _ _ hout =>
          rw [hout]
          exact ⟨o, Table.find?_push_of_some ho, hsame⟩
      | spared _ _ hout => exact ⟨o, hout ▸ ho, hsame⟩
      | setBack _ _ _ _ _ _ _ hout => exact ⟨o, hout ▸ ho, hsame⟩
      | counted _ _ _ _ hout => exact ⟨o, hout ▸ ho, hsame⟩

/-- **A delivery ends the outage of its channel.** -/
theorem recordSuccess_ends {now : ℤ} (hrec : Recorded c db) (ho : db.channelOutages.find? n = some o)
    (hc : o.channel = c) {o' : ChannelOutage}
    (ho' : (recordSuccess now c db).2.channelOutages.find? n = some o') : o'.recoveredAt ≠ none := by
  intro hopen
  obtain ⟨o₁, ho₁, -, -, hover⟩ := @recordSuccess_endures _ db c n o now ho
  obtain rfl := Option.some.inj (ho₁.symm.trans ho')
  have hr := hover hopen
  -- the outage is the one in progress, so the channel is not closed
  have hdown : (getState c db).state ≠ .CLOSED := by
    intro hclosed
    have hzero := hrec.closed hclosed
    rw [openOutages, Table.count, List.countP_eq_zero] at hzero
    refine hzero (n, o) (Table.find?_eq_some_iff.1 ho) ?_
    simp [hc, hr]
  obtain ⟨-, -, hout⟩ := @recordSuccess_move _ db c now
  rw [hout, if_neg hdown, closeOutage, modifyOpenOutage,
    openOutageRow_of_one (hrec.down hdown) ho hc hr] at ho'
  dsimp only at ho'
  rw [Table.find?_modify, if_pos rfl, ho] at ho'
  obtain rfl := Option.some.inj ho'
  cases hopen

end Outages

/-! ## Digests -/

/-- The incident id the digests of an outage have between them. -/
def digestName (o : ChannelOutage) : String := "digest:" ++ o.channel.text ++ ":" ++ isoText o.detectedAt

/-- A probe succeeds in a turn, and a digest of the outage `n` is queued under the key `k`. -/
def EnqueuesDigest (n k : ℕ) (t : Transition (Deployment K) Turn) : Prop :=
  ∃ w now channel states o, t.label = .worker w (.probeReturns now none) ∧
    t.source.phase w = .awaitingProbe channel states ∧ openOutageRow channel t.target.db = some (n, o) ∧
    t.source.db.outbox.find? k = none ∧ (t.target.db.outbox.find? k).isSome = true

/-- The row `k` was queued as a digest of the outage `n`. -/
def DigestOf (h : List (Transition (Deployment K) Turn)) (n k : ℕ) : Prop := ∃ t ∈ h, EnqueuesDigest n k t

/-- A digest of the outage is delivered. -/
def DeliversDigest (h : List (Transition (Deployment K) Turn)) (n : ℕ) (t : Transition (Deployment K) Turn) :
    Prop :=
  ∃ d newRef, answerOf t = some (d, newRef) ∧ DigestOf h n d.row.outboxId

/-- **One digest for an outage**: no two deliveries are of digests of it. -/
def OneDigest (h : List (Transition (Deployment K) Turn)) (n : ℕ) : Prop :=
  h.Pairwise fun later earlier => ¬ (DeliversDigest h n later ∧ DeliversDigest h n earlier)

/-- A worker is about to collapse the queue before it claims anything. -/
def Phase.beforeCollapse : Phase → Bool
  | .idle => true
  | .probing _ => true
  | .awaitingProbe _ _ => true
  | .polled _ _ _ => true
  | _ => false

/-- A digest of the outage waits to be sent. -/
def DigestWaits (h : List (Transition (Deployment K) Turn)) (n : ℕ) (db : Database K) (k : ℕ) : Prop :=
  DigestOf h n k ∧ ∃ r, db.outbox.find? k = some r ∧ r.status = .pending

/-- A worker is about to mark a digest of the outage as sent. -/
def Phase.deliversDigest (h : List (Transition (Deployment K) Turn)) (n : ℕ) : Phase → Prop
  | .delivered d _ _ => DigestOf h n d.row.outboxId
  | _ => False

/-- What is kept of the outage `n`, where `phase` is the only worker's. -/
structure DigestInvariant (n : ℕ) (h : List (Transition (Deployment K) Turn)) (phase : Phase)
    (db : Database K) : Prop where
  /-- its digests are on its channel, under one incident id -/
  row : ∀ k, DigestOf h n k → ∃ o r, db.channelOutages.find? n = some o ∧ db.outbox.find? k = some r ∧
    r.channel = o.channel ∧ r.incidentId = digestName o
  held : ∀ row ∈ phase.inHand, ∃ r, db.outbox.find? row.outboxId = some r ∧ r.status = .pending ∧
    row.channel = r.channel
  answered : ∀ t ∈ h, ∀ d newRef, answerOf t = some (d, newRef) → ∃ r, db.outbox.find? d.row.outboxId = some r
  /-- one of them at most waits, except from a probe that succeeds to the next collapse -/
  one : ∀ k k', DigestWaits h n db k → DigestWaits h n db k' → k = k' ∨ phase.beforeCollapse = true ∧
    ∀ o, db.channelOutages.find? n = some o → (getState o.channel db).state = .HALF_OPEN
  /-- once one was taken, none waits, and the outage is over or about to be ended -/
  taken : ∀ t ∈ h, DeliversDigest h n t → phase.deliversDigest h n ∨ (∀ k, ¬ DigestWaits h n db k) ∧
    ∀ o, db.channelOutages.find? n = some o → o.recoveredAt = none → ∃ batch, phase = .marked o.channel batch

section Names

variable {h : List (Transition (Deployment K) Turn)} {t : Transition (Deployment K) Turn} {n k : ℕ}

theorem digestOf_cons : DigestOf (t :: h) n k ↔ EnqueuesDigest n k t ∨ DigestOf h n k := by
  simp [DigestOf]

theorem isDigestId_digestName (o : ChannelOutage) : isDigestId (digestName o) = true := by
  simp [digestName, isDigestId, String.toList_append]

/-- Two outages of one beginning have one name. -/
theorem Endures.digestName {o o' : ChannelOutage} (h : Endures o o') : digestName o' = digestName o := by
  unfold PulseGraph.digestName
  rw [h.1, h.2.1]

end Names

section Steps

variable {rt : Runtime K} {db db' : Database K} {n k : ℕ}

/-- A probe that succeeds queues a digest of the outage in progress, and leaves the channel on trial. -/
theorem afterProbe_digest {now : ℤ} {channel : Channel} {r : OutboxRow}
    (h : afterProbe rt now channel none db = some db') (hk : db.outbox.find? k = none)
    (hk' : db'.outbox.find? k = some r) : (getState channel db').state = .HALF_OPEN ∧
      ∃ n o, openOutageRow channel db' = some (n, o) ∧ r.channel = channel ∧ r.incidentId = digestName o := by
  unfold afterProbe at h
  obtain ⟨db₁, hr, rfl⟩ := Option.map_eq_some_iff.1 h
  have hstate : (getState channel db₁).state = .HALF_OPEN := recordProbeResult_state hr
  rw [if_pos hstate] at hk' ⊢
  obtain ⟨hhealth, houtages⟩ := @prepareBacklog_breakers _ db₁ now channel
  refine ⟨(congrArg ChannelState.state (getState_congr hhealth channel)).trans hstate, ?_⟩
  have hunread : (coalescePending channel db₁).2.outbox.find? k = none := by
    refine (coalescePending_collapse channel db₁).unread k ?_
    rw [(recordProbeResult_frame hr).outbox]
    exact hk
  have hopen : openOutageRow channel (prepareBacklog now channel db₁) = openOutageRow channel db₁ := by
    rw [openOutageRow, houtages, openOutageRow]
  rw [hopen]
  unfold prepareBacklog at hk'
  dsimp only at hk'
  split at hk'
  · next digest hbuild =>
      change (Table.push _ _).find? k = _ at hk'
      rw [Table.find?_push, hunread] at hk'
      split_ifs at hk'
      obtain rfl := Option.some.inj hk'
      unfold buildRecoveryDigest at hbuild
      obtain ⟨start, hstart, hdigest⟩ := Option.bind_eq_some_iff.1 hbuild
      have hread : (openOutage channel db₁).1 = some start := hstart
      unfold openOutage at hread
      split at hread
      · cases hread
      · next row hrow =>
          obtain ⟨hdb, hc, -⟩ := openOutageRow_eq_some hrow
          refine ⟨row.1, row.2, hrow, rfl, ?_⟩
          dsimp only at hdigest
          split_ifs at hdigest
          obtain rfl := Option.some.inj hdigest
          obtain rfl := Option.some.inj hread
          show "digest:" ++ channel.text ++ ":" ++ isoText row.2.detectedAt = _
          rw [digestName, hc]
  · rw [hunread] at hk'
    cases hk'

variable [Field K] [LinearOrder K] {t : Transition (Deployment K) Turn}

/-- **What is queued as a digest of an outage**: a row on its channel, which is on trial. -/
theorem EnqueuesDigest.spec (he : EnqueuesDigest n k t)
    (hnext : deploymentNext rt t.source t.label = some t.target) : ∃ w now channel states o r,
      t.label = .worker w (.probeReturns now none) ∧ t.source.phase w = .awaitingProbe channel states ∧
      t.target.phase w = .probing states ∧ t.source.db.outbox.find? k = none ∧
      t.target.db.channelOutages.find? n = some o ∧ o.channel = channel ∧ o.recoveredAt = none ∧
      t.target.db.outbox.find? k = some r ∧ r.channel = o.channel ∧ r.incidentId = digestName o ∧
      (getState o.channel t.target.db).state = .HALF_OPEN := by
  obtain ⟨w, now, channel, states, o, hlabel, hphase, hopen, hk, hsome⟩ := he
  obtain ⟨r, hr⟩ := Option.isSome_iff_exists.1 hsome
  rw [hlabel] at hnext
  obtain ⟨hmove, -⟩ := deploymentNext_worker hnext
  rw [hphase] at hmove
  obtain ⟨ho, hc, hrec⟩ := openOutageRow_eq_some hopen
  refine ⟨w, now, channel, states, o, r, hlabel, hphase, ?_⟩
  generalize t.target.phase w = phase', t.target.db = db' at *
  cases hmove with
  | probeRaises _ =>
      rw [hk] at hr
      cases hr
  | probed hafter =>
      obtain ⟨hstate, n', o', hopen', hch, hid⟩ := afterProbe_digest hafter hk hr
      obtain ⟨rfl, rfl⟩ := Prod.mk.inj (Option.some.inj (hopen.symm.trans hopen'))
      exact ⟨rfl, hk, ho, hc, hrec, hr, hch.trans hc.symm, hid, hc.symm ▸ hstate⟩

end Steps

/-! ## A step of the worker -/

section Worker

variable {rt : Runtime K} {w : String} {s s' : Deployment K} {h : List (Transition (Deployment K) Turn)}
  {step : WorkerStep} {n : ℕ}

/-- A row in hand waits. -/
theorem waits_held {db db' : Database K} {phase phase' : Phase}
    (hmove : WorkerMove rt w db phase step phase' db') (hn : (phase.inHand.map (·.outboxId)).Nodup)
    (hI : ∀ row ∈ phase.inHand, ∃ r, db.outbox.find? row.outboxId = some r ∧ r.status = .pending ∧
      row.channel = r.channel) :
    ∀ row ∈ phase'.inHand, ∃ r, db'.outbox.find? row.outboxId = some r ∧ r.status = .pending ∧
      row.channel = r.channel := by
  refine hmove.held hn (fun k r hp _ => ⟨hp, rfl⟩) (fun row r via hP => hP) hI

/-- A call that returns success leaves its worker about to mark the row. -/
theorem deliversDigest_of_answer {db' : Database K} {phase' : Phase} {d : Dispatch} {batch : List ClaimedRow}
    {now : ℤ} {newRef : Option String} {db : Database K}
    (hmove : WorkerMove rt w db (.calling d batch) (.callReturns now (.ok newRef)) phase' db')
    (hd : DigestOf h n d.row.outboxId) : phase'.deliversDigest h n := by
  cases hmove
  exact hd

variable [Field K] [LinearOrder K]

/-- **A digest that waits after a step** waited before it, or is queued by it. -/
theorem DigestInvariant.waits_of_step (hI : DigestInvariant n h (s.phase w) s.db)
    (hnext : deploymentNext rt s (.worker w step) = some s') {k : ℕ}
    (hk : DigestWaits (⟨s, .worker w step, s'⟩ :: h) n s'.db k) :
    EnqueuesDigest n k ⟨s, .worker w step, s'⟩ ∨ DigestWaits h n s.db k := by
  obtain ⟨hdigest, r', hr', hp'⟩ := hk
  rcases digestOf_cons.1 hdigest with he | hd
  · exact .inl he
  obtain ⟨o, r, -, hr, -⟩ := hI.row k hd
  obtain ⟨r₁, hr₁, hs⟩ := (deploymentNext_worker hnext).1.rows.1 k r hr
  obtain rfl := Option.some.inj (hr₁.symm.trans hr')
  refine .inr ⟨hd, r, hr, (hs.waited (fun row hrow hid => ?_) hp').1⟩
  obtain ⟨r₀, hr₀, hp₀, -⟩ := hI.held row hrow
  rw [hid] at hr₀
  obtain rfl := Option.some.inj (hr.symm.trans hr₀)
  exact hp₀

/-- A step leaves the digests of an outage on its channel. -/
theorem DigestInvariant.row_step (hI : DigestInvariant n h (s.phase w) s.db)
    (hnext : deploymentNext rt s (.worker w step) = some s') :
    ∀ k, DigestOf (⟨s, .worker w step, s'⟩ :: h) n k → ∃ o r, s'.db.channelOutages.find? n = some o ∧
      s'.db.outbox.find? k = some r ∧ r.channel = o.channel ∧ r.incidentId = digestName o := by
  intro k hk
  rcases digestOf_cons.1 hk with he | hd
  · obtain ⟨w', now, channel, states, o, r, -, -, -, -, ho, -, -, hr, hc, hid, -⟩ := he.spec hnext
    exact ⟨o, r, ho, hr, hc, hid⟩
  · obtain ⟨o, r, ho, hr, hc, hid⟩ := hI.row k hd
    have hmove := (deploymentNext_worker hnext).1
    obtain ⟨o', ho', hend⟩ := hmove.endures ho
    obtain ⟨r', hr', hs⟩ := hmove.rows.1 k r hr
    obtain ⟨hid', hc', -⟩ := hs.names
    exact ⟨o', r', ho', hr', hc'.trans (hc.trans hend.1.symm), hid'.trans (hid.trans hend.digestName.symm)⟩

/-- **One digest of an outage waits, from the collapse of a pass to the next probe that succeeds.** -/
theorem DigestInvariant.one_step (hI : DigestInvariant n h (s.phase w) s.db)
    (hsees : (s.phase w).sees s.db) (hnext : deploymentNext rt s (.worker w step) = some s')
    (hstep : step ≠ .crash) {k k' : ℕ} (hk : DigestWaits (⟨s, .worker w step, s'⟩ :: h) n s'.db k)
    (hk' : DigestWaits (⟨s, .worker w step, s'⟩ :: h) n s'.db k') :
    k = k' ∨ (s'.phase w).beforeCollapse = true ∧
      ∀ o, s'.db.channelOutages.find? n = some o → (getState o.channel s'.db).state = .HALF_OPEN := by
  have hnew : ∀ {j}, EnqueuesDigest n j (⟨s, .worker w step, s'⟩ : Transition (Deployment K) Turn) →
      (s'.phase w).beforeCollapse = true ∧
        ∀ o, s'.db.channelOutages.find? n = some o → (getState o.channel s'.db).state = .HALF_OPEN := by
    intro j he
    obtain ⟨w', now, channel, states, o, r, hlabel, -, hphase, -, ho, -, -, -, -, -, hstate⟩ := he.spec hnext
    cases hlabel
    have hprobing : s'.phase w = .probing states := hphase
    refine ⟨by rw [hprobing]; rfl, fun o' ho' => ?_⟩
    obtain rfl := Option.some.inj (ho.symm.trans ho')
    exact hstate
  rcases hI.waits_of_step hnext hk with he | hwait
  · exact .inr (hnew he)
  rcases hI.waits_of_step hnext hk' with he | hwait'
  · exact .inr (hnew he)
  rcases hI.one k k' hwait hwait' with heq | ⟨hbefore, hhalf⟩
  · exact .inl heq
  -- two digests wait, and the worker has yet to collapse the queue
  obtain ⟨o, r, ho, hr, hc, hid⟩ := hI.row_step hnext k hk.1
  obtain ⟨o', r', ho', hr', hc', hid'⟩ := hI.row_step hnext k' hk'.1
  obtain rfl := Option.some.inj (ho.symm.trans ho')
  obtain ⟨o₀, -, ho₀, -⟩ := hI.row k hwait.1
  have hmove := (deploymentNext_worker hnext).1
  obtain ⟨o₁, ho₁, hend⟩ := hmove.endures ho₀
  obtain rfl := Option.some.inj (ho.symm.trans ho₁)
  have hstate := hhalf o₀ ho₀
  obtain ⟨-, r₁, hr₁, hp⟩ := hk
  obtain ⟨-, r₂, hr₂, hp'⟩ := hk'
  obtain rfl := Option.some.inj (hr.symm.trans hr₁)
  obtain rfl := Option.some.inj (hr'.symm.trans hr₂)
  have hkeeps : ∀ o, s'.db.channelOutages.find? n = some o →
      getState o.channel s'.db = getState o₀.channel s.db → (getState o.channel s'.db).state = .HALF_OPEN :=
    fun o _ hsame => (congrArg ChannelState.state hsame).trans hstate
  have hchannel : o.channel = o₀.channel := hend.1
  generalize s.phase w = phase, s'.phase w = phase', s.db = db, s'.db = db' at *
  cases hmove with
  | wake => exact .inr ⟨rfl, hhalf⟩
  | look _ => exact .inr ⟨rfl, hhalf⟩
  | skip => exact .inr ⟨rfl, hhalf⟩
  | probeRaises _ => exact .inr ⟨rfl, hhalf⟩
  | nothingUp => exact .inr ⟨rfl, hhalf⟩
  | poll => exact .inr ⟨rfl, hhalf⟩
  | @probed now outcome channel states _ hafter =>
      refine .inr ⟨rfl, fun o' ho' => hkeeps o' ho' ?_⟩
      obtain rfl := Option.some.inj (ho.symm.trans ho')
      have hne : o₀.channel ≠ channel := by
        rintro rfl
        rw [hsees.1] at hstate
        cases hstate
      unfold afterProbe at hafter
      obtain ⟨db₁, hrecord, rfl⟩ := Option.map_eq_some_iff.1 hafter
      rw [hchannel, ← (recordProbeResult_move hrecord).1 _ hne]
      refine getState_congr ?_ _
      split_ifs
      · exact (prepareBacklog_breakers now channel).1
      · rfl
  | @coalesce now available halfOpen =>
      -- the channel is on trial, so the pass collapses it
      have hpoll : (available, halfOpen) = pollChannels db := hsees
      have havail : o.channel ∈ available := by
        rw [(Prod.mk.inj hpoll).1, hchannel]
        refine List.mem_filter.2 ⟨?_, ?_⟩
        · cases o₀.channel <;> decide
        · rw [ChannelState.isAvailable, hstate]
          rfl
      refine .inl (coalesceAvailable_oneWaits havail db (digestName o) k r k' r' hr ?_ hr' ?_)
      · exact isPendingFor_iff.2 ⟨hc, hp, hid⟩
      · exact isPendingFor_iff.2 ⟨hc', hp', hid'⟩
  | crash => exact absurd rfl hstep
  | _ => cases hbefore

omit [Field K] [LinearOrder K] in
/-- What was delivered before a turn was queued before it. -/
theorem DigestInvariant.delivered (hI : DigestInvariant n h (s.phase w) s.db) {turn : Turn}
    {u : Transition (Deployment K) Turn} (hu : u ∈ h) (hdel : DeliversDigest (⟨s, turn, s'⟩ :: h) n u) :
    DeliversDigest h n u := by
  obtain ⟨d, newRef, hanswer, hd⟩ := hdel
  refine ⟨d, newRef, hanswer, (digestOf_cons.1 hd).resolve_left ?_⟩
  rintro ⟨-, -, -, -, -, -, -, -, hunread, -⟩
  obtain ⟨r, hr⟩ := hI.answered u hu d newRef hanswer
  rw [hr] at hunread
  cases hunread

/-- **After a digest was taken** none waits, and the outage ends with the next transaction. -/
theorem DigestInvariant.taken_step (hI : DigestInvariant n h (s.phase w) s.db)
    (hrec : ∀ c, Recorded c s.db) (hnext : deploymentNext rt s (.worker w step) = some s')
    (hstep : step ≠ .crash) {u : Transition (Deployment K) Turn} (hu : u ∈ h) (hdel : DeliversDigest h n u) :
    (s'.phase w).deliversDigest (⟨s, .worker w step, s'⟩ :: h) n ∨
      (∀ k, ¬ DigestWaits (⟨s, .worker w step, s'⟩ :: h) n s'.db k) ∧
      ∀ o, s'.db.channelOutages.find? n = some o → o.recoveredAt = none →
        ∃ batch, s'.phase w = .marked o.channel batch := by
  refine .inr ?_
  have hmove := (deploymentNext_worker hnext).1
  have hwaits := fun k => @DigestInvariant.waits_of_step _ rt w s s' h step n _ _ hI hnext k
  -- the record of the outage, before and after the step
  have hbefore : ∀ {o'}, s'.db.channelOutages.find? n = some o' → ∃ o, s.db.channelOutages.find? n = some o ∧
      Endures o o' := by
    obtain ⟨d, newRef, -, hd⟩ := hdel
    obtain ⟨o, -, ho, -⟩ := hI.row _ hd
    obtain ⟨o₁, ho₁, hend⟩ := hmove.endures ho
    intro o' ho'
    obtain rfl := Option.some.inj (ho₁.symm.trans ho')
    exact ⟨o, ho, hend⟩
  have hspec := fun k (he : EnqueuesDigest n k ⟨s, .worker w step, s'⟩) => he.spec hnext
  rcases hI.taken u hu hdel with hdelivers | ⟨hnone, hends⟩
  · cases hp : s.phase w with
    | delivered d newRef batch =>
        rw [hp] at hdelivers
        have hd : DigestOf h n d.row.outboxId := hdelivers
        obtain ⟨o, r, ho, hr, hc, hid⟩ := hI.row _ hd
        obtain ⟨r₀, hr₀, hp₀, hch⟩ := hI.held d.row (by rw [hp]; exact List.mem_cons_self)
        obtain rfl := Option.some.inj (hr.symm.trans hr₀)
        rw [hp] at hmove
        constructor
        · intro k hk
          rcases hwaits k hk with he | hwait
          · obtain ⟨w', now, channel, states, -, -, hlabel, hphase, -⟩ := hspec k he
            cases hlabel
            exact absurd (hp.symm.trans hphase) (by simp)
          -- the one digest that waited is the one that is marked
          obtain rfl : k = d.row.outboxId := by
            refine (hI.one k d.row.outboxId hwait ⟨hd, r, hr, hp₀⟩).resolve_right fun hb => ?_
            rw [hp] at hb
            cases hb.1
          obtain ⟨-, r', hr', hp'⟩ := hk
          generalize s'.phase w = phase', s'.db = db' at *
          cases hmove with
          | markSent =>
              rw [markSent, Table.find?_modify, if_pos rfl, hr] at hr'
              obtain rfl := Option.some.inj hr'
              cases hp'
          | crash => exact hstep rfl
        · intro o' ho' hopen
          obtain ⟨o₁, ho₁, hend⟩ := hbefore ho'
          obtain rfl := Option.some.inj (ho.symm.trans ho₁)
          rw [hend.1, ← hc, ← hch]
          generalize s'.phase w = phase', s'.db = db' at *
          cases hmove with
          | markSent => exact ⟨batch, rfl⟩
          | crash => exact absurd rfl hstep
    | _ =>
        rw [hp] at hdelivers
        exact hdelivers.elim
  · have hover : ∀ {o'}, s'.db.channelOutages.find? n = some o' → o'.recoveredAt = none → False := by
      intro o' ho' hopen
      obtain ⟨o, ho, hend⟩ := hbefore ho'
      obtain ⟨batch, hp⟩ := hends o ho (hend.2.2 hopen)
      rw [hp] at hmove
      generalize s'.phase w = phase', s'.db = db' at *
      cases hmove with
      | recordSuccess => exact recordSuccess_ends (hrec o.channel) ho rfl ho' hopen
      | crash => exact hstep rfl
    refine ⟨fun k hk => ?_, fun o' ho' hopen => (hover ho' hopen).elim⟩
    rcases hwaits k hk with he | hwait
    · obtain ⟨-, -, -, -, o, -, -, -, -, -, ho, -, hopen, -⟩ := hspec k he
      exact hover ho hopen
    · exact hnone k hwait

end Worker

/-! ## Every run -/

section Runs

variable [Field K] [LinearOrder K] {rt : Runtime K} {w : String} {s s' : Deployment K}
  {h : List (Transition (Deployment K) Turn)} {n : ℕ}

/-- A request moves no digest. -/
theorem DigestInvariant.request {q : Request} (hI : DigestInvariant n h (s.phase w) s.db)
    (hn : Named s.db) (hnext : deploymentNext rt s (.request q) = some s') :
    DigestInvariant n (⟨s, .request q, s'⟩ :: h) (s'.phase w) s'.db := by
  obtain ⟨hengine, hphase⟩ := deploymentNext_request hnext
  have hq := engineNext_queuedTo hengine
  have hout := (engineNext_breakers hengine).2
  have hdigest : ∀ {k}, DigestOf (⟨s, .request q, s'⟩ :: h) n k ↔ DigestOf h n k := by
    intro k
    refine digestOf_cons.trans ⟨fun hd => hd.resolve_left ?_, .inr⟩
    rintro ⟨w', now, channel, states, o, hlabel, -⟩
    cases hlabel
  have hwaits : ∀ {k}, DigestWaits (⟨s, .request q, s'⟩ :: h) n s'.db k → DigestWaits h n s.db k := by
    rintro k ⟨hd, r', hr', hp'⟩
    obtain ⟨o, r, -, hr, -⟩ := hI.row k (hdigest.1 hd)
    obtain ⟨r₁, hr₁, hm⟩ := hq.kept k r hr
    obtain rfl := Option.some.inj (hr₁.symm.trans hr')
    rw [hm.frame] at hp'
    exact ⟨hdigest.1 hd, r, hr, hp'⟩
  rw [hphase]
  refine ⟨fun k hk => ?_, fun row hrow => ?_, fun t ht d newRef hanswer => ?_, fun k k' hk hk' => ?_,
    fun t ht hdel => ?_⟩
  · obtain ⟨o, r, ho, hr, hc, hid⟩ := hI.row k (hdigest.1 hk)
    obtain ⟨r', hr', hm⟩ := hq.kept k r hr
    refine ⟨o, r', by rw [hout]; exact ho, hr', ?_⟩
    -- what a request moves waits for an incident, and no incident has a digest's name
    rcases hm.eq_or_update with rfl | ⟨-, -, ⟨a, -, hanchor⟩, -⟩
    · exact ⟨hc, hid⟩
    · obtain ⟨i, -, -, hi, -⟩ := hanchor.nonAnchor
      have hknown : Known s'.db r.incidentId := by
        rw [Known, hi]
        rfl
      have hname := (engineNext_named hengine hn).incident _ hknown
      rw [hid, isDigestId_digestName] at hname
      cases hname
  · obtain ⟨r, hr, hp, hc⟩ := hI.held row hrow
    obtain ⟨r', hr', hm⟩ := hq.kept _ r hr
    refine ⟨r', hr', ?_⟩
    rw [hm.frame]
    exact ⟨hp, hc⟩
  · rcases List.mem_cons.1 ht with rfl | ht
    · cases hanswer
    · obtain ⟨r, hr⟩ := hI.answered t ht d newRef hanswer
      exact deploymentNext_row hnext hr
  · rcases hI.one k k' (hwaits hk) (hwaits hk') with heq | ⟨hbefore, hhalf⟩
    · exact .inl heq
    · refine .inr ⟨hbefore, fun o ho => ?_⟩
      rw [engineNext_getState hengine]
      exact hhalf o (by rw [← hout]; exact ho)
  · rcases List.mem_cons.1 ht with rfl | ht
    · obtain ⟨d, newRef, hanswer, -⟩ := hdel
      cases hanswer
    rcases hI.taken t ht (hI.delivered ht hdel) with hdelivers | ⟨hnone, hends⟩
    · refine .inl ?_
      cases hp : s.phase w with
      | delivered d newRef batch =>
          rw [hp] at hdelivers
          exact hdigest.2 hdelivers
      | _ =>
          rw [hp] at hdelivers
          exact hdelivers.elim
    · refine .inr ⟨fun k hk => hnone k (hwaits hk), fun o ho hopen => ?_⟩
      exact hends o (by rw [← hout]; exact ho) hopen

/-- A turn keeps the invariant. -/
theorem DigestInvariant.next {turn : Turn} (hI : DigestInvariant n h (s.phase w) s.db)
    (hrun : DeploymentRun rt h s) (hall : ∀ t ∈ h, t.label.isOf [w] = true)
    (hone : turn.isOf [w] = true) (halive : crashes (⟨s, turn, s'⟩ : Transition (Deployment K) Turn) = false)
    (hnext : deploymentNext rt s turn = some s') :
    DigestInvariant n (⟨s, turn, s'⟩ :: h) (s'.phase w) s'.db := by
  cases turn with
  | request q => exact hI.request hrun.named hnext
  | worker w' step =>
      obtain rfl : w' = w := List.mem_singleton.1 (List.contains_iff_mem.1 hone)
      have hmove := (deploymentNext_worker hnext).1
      have hstep : step ≠ .crash := by
        rintro rfl
        exact absurd halive (by simp [crashes])
      have hlast : ∀ {d newRef}, answerOf (⟨s, .worker w' step, s'⟩ : Transition (Deployment K) Turn) =
          some (d, newRef) → ∃ now batch, step = .callReturns now (.ok newRef) ∧ s.phase w' = .calling d batch := by
        intro d newRef hanswer
        obtain ⟨w₁, now, batch, hlabel, hp⟩ := answerOf_eq_some hanswer
        cases hlabel
        exact ⟨now, batch, rfl, hp⟩
      refine ⟨hI.row_step hnext, waits_held hmove (hrun.nodup_inHand w') hI.held,
        fun t ht d newRef hanswer => ?_, fun k k' hk hk' => ?_, fun t ht hdel => ?_⟩
      · have hread : ∃ r, s.db.outbox.find? d.row.outboxId = some r := by
          rcases List.mem_cons.1 ht with rfl | ht
          · obtain ⟨now, batch, -, hp⟩ := hlast hanswer
            obtain ⟨r, hr, -⟩ := hI.held d.row (by rw [hp]; exact List.mem_cons_self)
            exact ⟨r, hr⟩
          · exact hI.answered t ht d newRef hanswer
        obtain ⟨r, hr⟩ := hread
        exact deploymentNext_row hnext hr
      · exact hI.one_step (sees_of_run hrun hall) hnext hstep hk hk'
      · rcases List.mem_cons.1 ht with rfl | ht
        · obtain ⟨d, newRef, hanswer, hd⟩ := hdel
          obtain ⟨now, batch, rfl, hp⟩ := hlast hanswer
          rw [hp] at hmove
          exact .inl (deliversDigest_of_answer hmove hd)
        · exact hI.taken_step (fun c => recorded_of_run hrun hall c) hnext hstep ht (hI.delivered ht hdel)

theorem digestInvariant_of_run (r : DeploymentRun rt h s)
    (hc : ∀ t ∈ h, t.label.isOf [w] = true ∧ crashes t = false) : DigestInvariant n h (s.phase w) s.db := by
  refine Run.induct_of_forall (I := fun h s => DigestInvariant n h (s.phase w) s.db) r hc ?_ ?_
  · rintro s rfl
    have hnone : ∀ k, ¬ DigestOf ([] : List (Transition (Deployment K) Turn)) n k := by
      rintro k ⟨t, ht, -⟩
      exact absurd ht List.not_mem_nil
    exact ⟨fun k hk => absurd hk (hnone k), fun row hrow => absurd hrow List.not_mem_nil,
      fun t ht => absurd ht List.not_mem_nil, fun k k' hk => absurd hk.1 (hnone k),
      fun t ht => absurd ht List.not_mem_nil⟩
  · rintro h s turn s' hrun hall hI ⟨hone, halive⟩ hnext
    exact hI.next hrun (fun t ht => (hall t ht).1) hone halive hnext

/-- **Every digest is of an outage**: one that is no stand-in was queued at a probe. -/
theorem digestOf_of_run (r : DeploymentRun rt h s) : ∀ k row, s.db.outbox.find? k = some row →
    row.payload.digest.isSome = true → row.failoverOf = none → ∃ n, DigestOf h n k := by
  refine r.induct (I := fun h s => ∀ k row, s.db.outbox.find? k = some row →
    row.payload.digest.isSome = true → row.failoverOf = none → ∃ n, DigestOf h n k) ?_ ?_
  · rintro s rfl k row hrow
    simp [Deployment.initial, Database.empty] at hrow
  · rintro h s turn s' - ih hnext k row' hrow' hd hprimary
    have hkept : ∀ {row}, s.db.outbox.find? k = some row → row.payload.digest.isSome = true →
        row.failoverOf = none → ∃ n, DigestOf (⟨s, turn, s'⟩ :: h) n k := by
      intro row hrow hd hprimary
      obtain ⟨n, hn⟩ := ih k row hrow hd hprimary
      exact ⟨n, digestOf_cons.2 (.inr hn)⟩
    cases turn with
    | request q =>
        obtain ⟨row, hrow, hm⟩ := (engineNext_queuedTo (deploymentNext_request hnext).1).source hrow'
        rw [hm.frame] at hd hprimary
        rcases hrow with hrow | ⟨-, ⟨hnew, -⟩, -⟩
        · exact hkept hrow hd hprimary
        · have hd' : row.payload.digest.isSome = true := hd
          rw [hnew.no_digest] at hd'
          cases hd'
    | worker w step =>
        have hmove := (deploymentNext_worker hnext).1
        cases hrow : s.db.outbox.find? k with
        | some row =>
            obtain ⟨row₁, hrow₁, hs⟩ := hmove.rows.1 k row hrow
            obtain rfl := Option.some.inj (hrow₁.symm.trans hrow')
            obtain ⟨-, -, -, -, hdig⟩ := hs.names
            exact hkept hrow (hdig ▸ hd) (hs.origin.1 ▸ hprimary)
        | none =>
            have hadded := hmove.rows.2 k row' hrow hrow'
            cases hadded with
            | @digest now channel states digest hp =>
                rw [hp] at hmove
                generalize hphase' : s'.phase w = phase', hdb' : s'.db = db' at *
                cases hmove with
                | probeRaises _ =>
                    rw [hrow] at hrow'
                    cases hrow'
                | probed hafter =>
                    obtain ⟨-, n, o, hopen, -⟩ := afterProbe_digest hafter hrow hrow'
                    refine ⟨n, digestOf_cons.2 (.inl ⟨w, now, channel, states, o, rfl, hp, ?_, hrow, ?_⟩)⟩
                    · exact hdb' ▸ hopen
                    · rw [hdb', hrow']
                      rfl
            | failover _ _ _ _ => cases hprimary

/-- **One digest for an outage**: at most one of the digests that are queued for it is delivered, in
every run with a single worker that does not die. -/
theorem oneDigest_of_run (r : DeploymentRun rt h s)
    (hc : ∀ t ∈ h, t.label.isOf [w] = true ∧ crashes t = false) (n : ℕ) : OneDigest h n := by
  refine Run.induct_of_forall (I := fun h _ => OneDigest h n) r hc ?_ ?_
  · rintro s -
    exact List.Pairwise.nil
  · rintro h s turn s' hrun hall hone ⟨hof, -⟩ -
    have hI := @digestInvariant_of_run _ _ _ _ w s h n hrun hall
    refine List.pairwise_cons.2 ⟨fun u hu => ?_, hone.imp_of_mem fun hu hv hnot hboth => ?_⟩
    · rintro ⟨⟨d, newRef, hanswer, hd⟩, hdel⟩
      obtain ⟨w', now, batch, hlabel, hp⟩ := answerOf_eq_some hanswer
      cases hlabel
      obtain rfl : w' = w := List.mem_singleton.1 (List.contains_iff_mem.1 hof)
      have hp' : s.phase w' = .calling d batch := hp
      -- the row that is taken now waits, and none does after a delivery
      obtain ⟨r, hr, hwaits, -⟩ := hI.held d.row (by rw [hp']; exact List.mem_cons_self)
      have hd' : DigestOf h n d.row.outboxId := by
        refine (digestOf_cons.1 hd).resolve_left ?_
        rintro ⟨-, -, -, -, -, -, -, -, hunread, -⟩
        rw [show s.db.outbox.find? _ = _ from hr] at hunread
        cases hunread
      rcases hI.taken u hu (hI.delivered hu hdel) with hdelivers | ⟨hnone, -⟩
      · rw [hp'] at hdelivers
        exact hdelivers
      · exact hnone _ ⟨hd', r, hr, hwaits⟩
    · exact hnot ⟨hI.delivered hu hboth.1, hI.delivered hv hboth.2⟩

end Runs

/-- Slack is down; a probe succeeds, but the digest does not get through, nor does anything else of
its batch; a later probe succeeds again, and its digest is sent. -/
def slackProbedTwice : List Turn :=
  slackDown ++ ([.wake, .look 60000, .probeReturns 60100 none, .poll 60100, .coalesce, .claim 60100,
    .select] : List WorkerStep).map (.worker "w") ++
    failTurns "w" 60200 ++ failTurns "w" 60400 ++ failTurns "w" 60600 ++
    ([.sleep, .wake, .look 9000000, .probeReturns 9000100 none, .look 9000100, .poll 9000100, .coalesce,
      .claim 9000100, .select] : List WorkerStep).map (.worker "w") ++
    callTurns "w" 9000200 9000300 (.ok (some "ts-1")) ++ settleTurns "w" 9000300

/-- Two digests of an outage, of which one is delivered. -/
theorem oneDigest_of_run_probedTwice : ∃ h s, DeploymentRun Runtime.reference h s ∧
    (s.db.outbox.select fun _ r => r.payload.digest.isSome).map (fun r => (r.1, r.2.status)) =
      [(3, .superseded), (4, .sent)] ∧
    (h.filterMap answerOf).map (fun a => a.1.row.outboxId) = [4] ∧ OneDigest h 1 := by
  have hreplay : (Library.replay (deploymentNext Runtime.reference) slackProbedTwice
      ([], Deployment.initial)).map (fun s =>
        ((s.2.db.outbox.select fun _ r => r.payload.digest.isSome).map (fun r => (r.1, r.2.status)),
          (s.1.filterMap answerOf).map (fun a => a.1.row.outboxId),
          s.1.all fun t => t.label.isOf ["w"] && !crashes t)) =
      some ([(3, .superseded), (4, .sent)], [4], true) := by decide +kernel
  obtain ⟨h, s, r, heq⟩ := DeploymentRun.of_replay hreplay
  obtain ⟨hrows, heq⟩ := Prod.mk.inj heq
  obtain ⟨hanswers, hcheck⟩ := Prod.mk.inj heq
  simp only [List.all_eq_true, Bool.and_eq_true, Bool.not_eq_true'] at hcheck
  exact ⟨h, s, r, hrows, hanswers, @oneDigest_of_run _ _ _ _ "w" s h r hcheck 1⟩

end PulseGraph
