/-
# An outage never kills a message

A row is charged an attempt, and dies, by a worker that holds a copy of it, while
other workers, the collapse of the queue and requests write the same row.  The row's
failures are not stored: `failures` counts them in the history of the run.

**Proved here.**  In every run of any number of workers, a row is dead only by a
failure of its own that is fatal for the message, or by as many transient failures of
its own as `OUTBOX_MAX_ATTEMPTS` says, and its attempts never exceed its transient
failures (`dead_by_own_failures`): an outage charges nothing.
-/

import PulseGraph.Outbox.Deployment

namespace PulseGraph

open Library (Table Run Transition)

variable {K : Type}

/-! ## The failures of a row -/

/-- The row whose dispatcher raises in a transition, and how the exception is classified. -/
def failureOf (t : Transition (Deployment K) Turn) : Option (ℕ × FailureKind) :=
  match t.label with
  | .worker w (.callReturns _ (.error exc)) => match t.source.phase w with
    | .calling d _ => some (d.row.outboxId, (classify exc).kind)
    | _ => none
  | _ => none

/-- How many failures of a kind a row has had. -/
def failures (kind : FailureKind) (k : ℕ) (h : List (Transition (Deployment K) Turn)) : ℕ :=
  h.countP fun t => failureOf t = some (k, kind)

/-- The verdict a worker is carrying out, and the row it is on. -/
def Phase.verdict : Phase → Option (ClaimedRow × FailureVerdict)
  | .failed d verdict _ => some (d.row, verdict)
  | .charged d verdict _ _ _ => some (d.row, verdict)
  | _ => none

section Counting

variable {kind : FailureKind} {k : ℕ} {t : Transition (Deployment K) Turn}
  {h : List (Transition (Deployment K) Turn)}

/-- No failure is forgotten. -/
theorem failures_le_cons : failures kind k h ≤ failures kind k (t :: h) := by
  unfold failures
  rw [List.countP_cons]
  omega

/-- A failure counts. -/
theorem failures_cons_of_failureOf (hf : failureOf t = some (k, kind)) :
    failures kind k (t :: h) = failures kind k h + 1 := by
  unfold failures
  rw [List.countP_cons_of_pos (by simpa using hf)]

/-- A verdict a worker is carrying out is the one before, or that of a call that raises now. -/
theorem WorkerMove.verdict {rt : Runtime K} {w : String} {db db' : Database K} {phase phase' : Phase}
    {step : WorkerStep} (h : WorkerMove rt w db phase step phase' db') {row : ClaimedRow}
    {verdict : FailureVerdict} (hv : phase'.verdict = some (row, verdict)) :
    phase.verdict = some (row, verdict) ∨ ∃ now exc d batch, step = .callReturns now (.error exc) ∧
      phase = .calling d batch ∧ row = d.row ∧ verdict = classify exc := by
  cases h with
  | @raised now d batch exc =>
      obtain ⟨rfl, rfl⟩ := Prod.mk.inj (Option.some.inj hv)
      exact .inr ⟨now, exc, d, batch, rfl, rfl, rfl, rfl⟩
  | recordFailure _ => exact .inl hv
  | park _ =>
      split_ifs at hv <;> cases hv
  | _ => cases hv

end Counting

/-! ## The invariant -/

variable [Field K] [LinearOrder K] (rt : Runtime K)

/-- Attempts that are the transient failures of a row at most. -/
def Charged (h : List (Transition (Deployment K) Turn)) (k : ℕ) (attempts : ℤ) : Prop :=
  0 ≤ attempts ∧ attempts ≤ failures .TRANSIENT k h

/-- The failures that kill a row: one that is fatal for it, or enough transient ones. -/
def Killed (h : List (Transition (Deployment K) Turn)) (k : ℕ) : Prop :=
  0 < failures .MESSAGE_FATAL k h ∨
    0 < failures .TRANSIENT k h ∧ rt.settings.outboxMaxAttempts ≤ failures .TRANSIENT k h

/-- What the history says of the rows, of the copies in hand, and of the verdicts that
are being carried out. -/
structure AttemptsInvariant (h : List (Transition (Deployment K) Turn)) (s : Deployment K) : Prop where
  row : ∀ k r, s.db.outbox.find? k = some r →
    Charged h k r.attempts ∧ (r.status = .dead → Killed rt h k)
  inHand : ∀ w, ∀ row ∈ (s.phase w).inHand, Charged h row.outboxId row.attempts
  verdict : ∀ w row verdict, (s.phase w).verdict = some (row, verdict) →
    (verdict.kind = .TRANSIENT → row.attempts + 1 ≤ failures .TRANSIENT row.outboxId h) ∧
    (verdict.kind = .MESSAGE_FATAL → 0 < failures .MESSAGE_FATAL row.outboxId h)

section Invariant

variable {rt} {h : List (Transition (Deployment K) Turn)} {s s' : Deployment K}
  {t : Transition (Deployment K) Turn} {k : ℕ}

omit [Field K] [LinearOrder K] in
theorem Charged.cons {a : ℤ} (hc : Charged h k a) : Charged (t :: h) k a :=
  ⟨hc.1, hc.2.trans (by exact_mod_cast failures_le_cons)⟩

omit [Field K] [LinearOrder K] in
theorem Killed.cons (hk : Killed rt h k) : Killed rt (t :: h) k := by
  have hfatal : failures .MESSAGE_FATAL k h ≤ failures .MESSAGE_FATAL k (t :: h) := failures_le_cons
  have htransient : failures .TRANSIENT k h ≤ failures .TRANSIENT k (t :: h) := failures_le_cons
  rcases hk with hk | ⟨hk, hmax⟩
  · exact .inl (by omega)
  · exact .inr ⟨by omega, by omega⟩

/-- A request charges nothing and kills nothing. -/
theorem AttemptsInvariant.request {q : Request} (hI : AttemptsInvariant rt h s)
    (hnext : deploymentNext rt s (.request q) = some s') :
    AttemptsInvariant rt (⟨s, .request q, s'⟩ :: h) s' := by
  obtain ⟨hengine, hphase⟩ := deploymentNext_request hnext
  have hq := engineNext_queued hengine
  refine ⟨fun k r' hr' => ?_, fun w row hrow => ?_, fun w row verdict hv => ?_⟩
  · cases hr : s.db.outbox.find? k with
    | some r =>
        obtain ⟨r₁, hr₁, hm⟩ := hq.kept k r hr
        obtain rfl := Option.some.inj (hr₁.symm.trans hr')
        obtain ⟨hc, hdead⟩ := hI.row k r hr
        rw [hm.frame]
        exact ⟨hc.cons, fun hd => (hdead hd).cons⟩
    | none =>
        obtain ⟨r, hnew, hm⟩ := hq.added k r' hr hr'
        rw [hm.frame]
        refine ⟨⟨hnew.1.attempts.ge, ?_⟩, fun hd => ?_⟩
        · show r.attempts ≤ _
          rw [hnew.1.attempts]
          exact Int.natCast_nonneg _
        · have hpending : r.status = .dead := hd
          rw [hnew.1.pending] at hpending
          cases hpending
  · rw [hphase] at hrow
    exact (hI.inHand w row hrow).cons
  · rw [hphase] at hv
    obtain ⟨ht, hf⟩ := hI.verdict w row verdict hv
    refine ⟨fun hk => (ht hk).trans ?_, fun hk => (hf hk).trans_le failures_le_cons⟩
    exact_mod_cast failures_le_cons

omit [Field K] [LinearOrder K] in
/-- What a step of a worker does to a row, its history says: only a verdict charges or
kills, and it counts up the attempts of the copy in hand. -/
theorem AttemptsInvariant.rowStep {w : String} {step : WorkerStep} {r r' : OutboxRow}
    (hI : AttemptsInvariant rt h s) (hr : s.db.outbox.find? k = some r)
    (hs : RowStep rt w (s.phase w) s.db step k r r') :
    Charged (t :: h) k r'.attempts ∧ (r'.status = .dead → Killed rt (t :: h) k) := by
  obtain ⟨hc, hdead⟩ := hI.row k r hr
  cases hs with
  | same => exact ⟨hc.cons, fun hd => (hdead hd).cons⟩
  | collapsed _ hcol _ =>
      cases hcol with
      | same => exact ⟨hc.cons, fun hd => (hdead hd).cons⟩
      | winner _ _ => exact ⟨hc.cons, fun hd => (hdead hd).cons⟩
      | loser _ _ _ _ _ => exact ⟨hc.cons, fun hd => by cases hd⟩
  | leased _ _ => exact ⟨hc.cons, fun hd => (hdead hd).cons⟩
  | noDispatcher _ hd => exact absurd (mem_dispatchers _) hd
  | sent _ => exact ⟨hc.cons, fun hd => by cases hd⟩
  | @rejected _ d verdict _ _ _ _ hp hkind =>
      have hfatal := (hI.verdict w d.row verdict (by rw [hp]; rfl)).2 hkind
      exact ⟨hc.cons, fun _ => .inl (hfatal.trans_le failures_le_cons)⟩
  | parked _ _ => exact ⟨hc.cons, fun hd => (hdead hd).cons⟩
  | @retried _ d verdict _ _ _ _ _ hp hkind =>
      have hcopy : Charged h d.row.outboxId d.row.attempts :=
        hI.inHand w d.row (by rw [hp]; exact List.mem_cons_self)
      have hnonneg := hcopy.1
      have htransient : d.row.attempts + 1 ≤ failures .TRANSIENT d.row.outboxId (t :: h) := by
        refine ((hI.verdict w d.row verdict (by rw [hp]; rfl)).1 hkind).trans ?_
        exact_mod_cast failures_le_cons
      refine ⟨⟨?_, htransient⟩, fun hd => .inr ⟨?_, ?_⟩⟩
      · show 0 ≤ d.row.attempts + 1
        omega
      · omega
      · by_contra hlt
        have halive : ¬ rt.settings.outboxMaxAttempts ≤ d.row.attempts + 1 :=
          fun hmax => hlt (hmax.trans htransient)
        simp only [halive, if_false] at hd
        cases hd
  | fellOver _ _ _ => exact ⟨hc.cons, fun hd => (hdead hd).cons⟩

/-- A step of a worker charges and kills what its verdict says. -/
theorem AttemptsInvariant.worker {w : String} {step : WorkerStep} (hI : AttemptsInvariant rt h s)
    (hnext : deploymentNext rt s (.worker w step) = some s') :
    AttemptsInvariant rt (⟨s, .worker w step, s'⟩ :: h) s' := by
  obtain ⟨hmove, hothers⟩ := deploymentNext_worker hnext
  obtain ⟨hrows, hnew⟩ := hmove.rows
  refine ⟨fun k r' hr' => ?_, fun w' row hrow => ?_, fun w' row verdict hv => ?_⟩
  · cases hr : s.db.outbox.find? k with
    | none =>
        have hzero : r'.attempts = 0 ∧ r'.status = .pending := by
          cases hnew k r' hr hr' <;> exact ⟨rfl, rfl⟩
        obtain ⟨hattempts, hpending⟩ := hzero
        refine ⟨⟨hattempts.ge, ?_⟩, fun hd => ?_⟩
        · rw [hattempts]
          exact Int.natCast_nonneg _
        · rw [hpending] at hd
          cases hd
    | some r =>
        obtain ⟨r₁, hr₁, hs⟩ := hrows k r hr
        obtain rfl := Option.some.inj (hr₁.symm.trans hr')
        exact hI.rowStep hr hs
  · by_cases hw : w' = w
    swap
    · rw [hothers w' hw] at hrow
      exact (hI.inHand w' row hrow).cons
    subst hw
    rcases hmove.inHand with ⟨done, hdone⟩ | ⟨leaseUntil, -, -, -, hsub⟩
    · exact (hI.inHand w' row (hdone ▸ List.mem_append_right _ hrow)).cons
    · obtain ⟨k, r, hr, rfl, -⟩ := mem_leasedRows (hsub.subset hrow)
      exact (hI.row k r hr).1.cons
  · by_cases hw : w' = w
    swap
    · rw [hothers w' hw] at hv
      obtain ⟨ht, hf⟩ := hI.verdict w' row verdict hv
      refine ⟨fun hk => (ht hk).trans ?_, fun hk => (hf hk).trans_le failures_le_cons⟩
      exact_mod_cast failures_le_cons
    subst hw
    rcases hmove.verdict hv with hold | ⟨now, exc, d, batch, rfl, hp, rfl, rfl⟩
    · obtain ⟨ht, hf⟩ := hI.verdict w' row verdict hold
      refine ⟨fun hk => (ht hk).trans ?_, fun hk => (hf hk).trans_le failures_le_cons⟩
      exact_mod_cast failures_le_cons
    · -- the failure that is counted now
      have hcopy : Charged h d.row.outboxId d.row.attempts :=
        hI.inHand w' d.row (by rw [hp]; exact List.mem_cons_self)
      have hfail : failureOf (⟨s, .worker w' (.callReturns now (.error exc)), s'⟩ :
          Transition (Deployment K) Turn) = some (d.row.outboxId, (classify exc).kind) := by
        simp only [failureOf, hp]
      refine ⟨fun hk => ?_, fun hk => ?_⟩
      · rw [hk] at hfail
        rw [failures_cons_of_failureOf hfail]
        have := hcopy.2
        push_cast
        omega
      · rw [hk] at hfail
        rw [failures_cons_of_failureOf hfail]
        omega

theorem attemptsInvariant_of_run (r : DeploymentRun rt h s) : AttemptsInvariant rt h s := by
  refine r.induct (I := AttemptsInvariant rt) ?_ ?_
  · rintro s rfl
    refine ⟨fun k r hr => ?_, fun w row hrow => ?_, fun w row verdict hv => ?_⟩
    · simp [Deployment.initial, Database.empty] at hr
    · simp [Deployment.initial, Phase.inHand] at hrow
    · simp [Deployment.initial, Phase.verdict] at hv
  · intro h s turn s' _ hI hnext
    cases turn with
    | request q => exact hI.request hnext
    | worker w step => exact hI.worker hnext

/-! ## Every reachable state -/

/-- **An outage never kills a message.**  In every run, a dead row has no dispatcher, or
has had a failure that is fatal for it, or at least `OUTBOX_MAX_ATTEMPTS` transient
ones; a row has no more attempts than transient failures; and a row whose failures all
blame the channel is not dead and has no attempts, however many they are. -/
theorem dead_by_own_failures (r : DeploymentRun rt h s) {k : ℕ} {row : OutboxRow}
    (hrow : s.db.outbox.find? k = some row) :
    (row.status = .dead → row.channel ∉ dispatchers ∨ 0 < failures .MESSAGE_FATAL k h ∨
      0 < failures .TRANSIENT k h ∧ rt.settings.outboxMaxAttempts ≤ failures .TRANSIENT k h) ∧
    row.attempts ≤ failures .TRANSIENT k h ∧
    ((∀ kind, kind ≠ .CHANNEL_DOWN → failures kind k h = 0) → row.status ≠ .dead ∧ row.attempts = 0) := by
  obtain ⟨⟨hnonneg, hle⟩, hdead⟩ := (attemptsInvariant_of_run r).row k row hrow
  refine ⟨fun hd => .inr (hdead hd), hle, fun houtage => ?_⟩
  have htransient := houtage .TRANSIENT (by decide)
  have hfatal := houtage .MESSAGE_FATAL (by decide)
  refine ⟨fun hd => ?_, by omega⟩
  rcases hdead hd with hpos | ⟨hpos, -⟩ <;> omega

end Invariant

/-- A card for Slack, and Slack does not answer. -/
def outageTurns : List Turn :=
  .request (.ingest "A" "unused" 1000 (alertOf "disk" "1")) :: claimTurns "w" 2000 0 ++
    callTurns "w" 2000 3000 (.error (.transportError "ConnectTimeout")) ++ settleTurns "w" 3000

/-- The row of a message that Slack did not take. -/
theorem dead_by_own_failures_outage : ∃ h s row, DeploymentRun Runtime.reference h s ∧
    s.db.outbox.find? 1 = some row ∧ failures .CHANNEL_DOWN 1 h = 1 ∧
    (row.status = .dead → row.channel ∉ dispatchers ∨ 0 < failures .MESSAGE_FATAL 1 h ∨
      0 < failures .TRANSIENT 1 h ∧
        Runtime.reference.settings.outboxMaxAttempts ≤ failures .TRANSIENT 1 h) ∧
    row.attempts ≤ failures .TRANSIENT 1 h ∧
    ((∀ kind, kind ≠ .CHANNEL_DOWN → failures kind 1 h = 0) → row.status ≠ .dead ∧ row.attempts = 0) := by
  have hreplay : (Library.replay (deploymentNext Runtime.reference) outageTurns
      ([], Deployment.initial)).map (fun s => ((s.2.db.outbox.find? 1).isSome,
        failures .CHANNEL_DOWN 1 s.1)) = some (true, 1) := by decide +kernel
  obtain ⟨h, s, hrun, heq⟩ := DeploymentRun.of_replay hreplay
  obtain ⟨hsome, hfailures⟩ := Prod.mk.inj heq
  obtain ⟨row, hrow⟩ := Option.isSome_iff_exists.1 hsome
  exact ⟨h, s, row, hrun, hrow, hfailures, dead_by_own_failures hrun hrow⟩

end PulseGraph
