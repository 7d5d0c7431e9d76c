/-
# From a request to the ledger

The ingest routes of `src/main.py` on top of a running deployment: a request is authenticated, its
body normalized and every event of it authorised; then the events are written one transaction each,
between those of other requests, of the workers and of the rest of the service.

**Proved here.**  An answer of 200 names, event by event and in order, rows of the ledger that are
there for good, each the only one of its event, and no two requests name one row; and the alerts that
the incidents count are those that some request has written (`batches_acknowledged`).
-/

import PulseGraph.Engine.Identity
import PulseGraph.Ingest.Auth
import PulseGraph.Ingest.Normalizers
import PulseGraph.Stream.Updates

namespace PulseGraph

open Library (Json Run Transition bind_eq_ok)

variable {K : Type}

/-! ## Admission -/

/-- The routes under `/v1/ingest`. -/
inductive IngestRoute where
  | prometheus | datadog | grafana
  deriving DecidableEq

/-- A request: its headers, its body if that is JSON, and the values of `uuid4` its events get. -/
structure IngestCall where
  route : IngestRoute
  authorization : Option String
  headerToken : Option String
  body : Option Json
  eventIds : ℕ → String

/-- What a request is refused with. -/
inductive IngestRefusal where
  | denied (error : IngestError)
  /-- `invalid <route> payload: …` -/
  | invalidPayload (route : IngestRoute)
  /-- The Prometheus route reads its body outside of the `try`. -/
  | unreadable
  deriving DecidableEq

/-- The status code of a refusal. -/
def IngestRefusal.status : IngestRefusal → ℕ
  | .denied .notConfigured => 503
  | .denied .invalidCredential => 401
  | .denied .scopeNotPermitted => 403
  | .denied .typeError => 500
  | .invalidPayload .prometheus => 400
  | .invalidPayload _ => 422
  | .unreadable => 500

section Admission

variable (rt : ProviderRuntime K)

/-- The normalizer of a route. -/
def IngestRoute.normalizer : IngestRoute → (ℕ → String) → Json → Option (List NormalizedEvent)
  | .prometheus => normalizePrometheus rt
  | .datadog => normalizeDatadog rt
  | .grafana => normalizeGrafana rt

/-- `_authenticate_ingest`, over `INGEST_AUTH_ENABLED`. -/
def authenticateIngest (enabled : Bool) (credentials : List IngestCredential) (call : IngestCall) :
    Except IngestError (Option IngestCredential) :=
  if enabled then (authenticate rt.toRuntime credentials call.authorization call.headerToken).map some
  else .ok none

/-- `normalizer(await request.json())`. -/
def readEvents (call : IngestCall) : Except IngestRefusal (List NormalizedEvent) :=
  match call.body with
  | none => .error (if call.route = .prometheus then .unreadable else .invalidPayload call.route)
  | some body => match call.route.normalizer rt call.eventIds body with
    | none => .error (.invalidPayload call.route)
    | some events => .ok events

/-- `ingest_prometheus` and `_ingest_normalized_events` up to the first write: the events to write. -/
def admission (enabled : Bool) (credentials : List IngestCredential) (call : IngestCall) :
    Except IngestRefusal (List NormalizedEvent) := do
  let credential ← (authenticateIngest rt enabled credentials call).mapError .denied
  let events ← readEvents rt call
  (events.forM (authorizeEvent credential)).mapError .denied
  .ok events

end Admission

/-! ## The transaction of an event -/

/-- What `DbWriter.process_event` returns. -/
structure IngestResult where
  eventId : String
  incidentId : String
  seq : ℕ
  rowHash : String
  bypassed : Bool
  isDuplicate : Bool
  status : IncidentState
  quietAtMs : Option ℤ
  rootCauseHint : Option String

/-- What the writer returns of a decision and of the row it finds for its event. -/
def resultOf (event : NormalizedEvent) (d : EngineDecision) (row : RawEvent) : IngestResult where
  eventId := event.eventId
  incidentId := d.incidentId
  seq := row.seq
  rowHash := row.rowHash
  bypassed := d.isCriticalBypass
  isDuplicate := d.isDuplicate
  status := d.state
  quietAtMs := d.quietAtMs
  rootCauseHint := d.rootCauseHint

/-- `DbWriter.process_event`. -/
def writeEvent [Field K] [LinearOrder K] (rt : Runtime K) (a : Arrival) (db : Database K) :
    Except EngineError (IngestResult × Database K) := do
  let (d, db) ← ingestEvent rt a.freshId a.freshGroupId a.now a.event db
  match db.rawEvents.find? fun r => r.eventId = a.event.eventId with
  | none => .error (.runtimeError "persist_decision did not append the raw event")
  | some row => .ok (resultOf a.event d row, db)

/-! ## Requests beside everything else -/

/-- Where a request is; the results are those of the events that are written. -/
inductive Exchange where
  | serving (left : List NormalizedEvent) (results : List IngestResult)
  | refused (refusal : IngestRefusal)
  /-- 200, with the results. -/
  | ingested (results : List IngestResult)
  /-- 500: a transaction raised, and ended the loop. -/
  | failed (results : List IngestResult)
  /-- The process ended, or the task was cancelled; nobody is answered. -/
  | dropped (results : List IngestResult)

/-- The results of the events that are written. -/
def Exchange.results : Exchange → List IngestResult
  | .serving _ results | .ingested results | .failed results | .dropped results => results
  | .refused _ => []

/-- The deployment and the requests there have been, in the order they came. -/
structure FrontEnd (K : Type) where
  deployment : Deployment K
  exchanges : List (IngestCall × Exchange)

/-- An empty database, and no request. -/
def FrontEnd.initial : FrontEnd K where
  deployment := Deployment.initial
  exchanges := []

/-- The database all of them write. -/
def FrontEnd.db (s : FrontEnd K) : Database K := s.deployment.db

/-- A turn of the deployment that is no alert, or a step of the handler of a request. -/
inductive FrontTurn where
  | turn (t : Turn)
  | receive (call : IngestCall)
  | write (n : ℕ) (freshId freshGroupId : String) (now : ℤ)
  | answer (n : ℕ)
  | drop (n : ℕ)

/-- Alerts come in through the routes alone. -/
def Turn.isIngest : Turn → Bool
  | .request (.ingest ..) => true
  | _ => false

/-- The exchange a request begins with. -/
def received (rt : ProviderRuntime K) (enabled : Bool) (credentials : List IngestCredential) (call : IngestCall) :
    Exchange :=
  match admission rt enabled credentials call with
  | .ok events => .serving events []
  | .error refusal => .refused refusal

/-- One turn. -/
def frontNext [Field K] [LinearOrder K] (rt : ProviderRuntime K) (enabled : Bool) (credentials : List IngestCredential)
    (s : FrontEnd K) : FrontTurn → Option (FrontEnd K)
  | .turn t =>
      if t.isIngest then none
      else (deploymentNext rt.toRuntime s.deployment t).map fun d => { s with deployment := d }
  | .receive call => some { s with exchanges := s.exchanges ++ [(call, received rt enabled credentials call)] }
  | .write n freshId freshGroupId now => match s.exchanges[n]? with
    | some (call, .serving (event :: left) results) =>
        let a : Arrival := ⟨freshId, freshGroupId, now, event⟩
        if !a.request.fresh s.db then none
        else match writeEvent rt.toRuntime a s.db with
          | .error _ => some { s with exchanges := s.exchanges.set n (call, .failed results) }
          | .ok (result, db) => some {
              deployment := { s.deployment with db := db }
              exchanges := s.exchanges.set n (call, .serving left (results ++ [result])) }
    | _ => none
  | .answer n => match s.exchanges[n]? with
    | some (call, .serving [] results) => some { s with exchanges := s.exchanges.set n (call, .ingested results) }
    | _ => none
  | .drop n => match s.exchanges[n]? with
    | some (call, .serving _ results) => some { s with exchanges := s.exchanges.set n (call, .dropped results) }
    | _ => none

/-- **The runs of the service**, with their history. -/
def FrontRun [Field K] [LinearOrder K] (rt : ProviderRuntime K) (enabled : Bool)
    (credentials : List IngestCredential) : List (Transition (FrontEnd K) FrontTurn) → FrontEnd K → Prop :=
  Run (· = FrontEnd.initial) fun s turn s' => frontNext rt enabled credentials s turn = some s'

/-! ## What a transaction leaves -/

/-- A row of the ledger is of the event, and the result says what the row does. -/
structure TellsOf (event : NormalizedEvent) (result : IngestResult) (row : RawEvent) : Prop where
  eventId : row.eventId = event.eventId ∧ result.eventId = event.eventId
  fingerprint : row.fingerprint = event.fingerprint
  source : row.source = event.source
  service : row.service = event.service
  alertname : row.alertname = event.alertname
  severityRaw : row.severityRaw = event.severityRaw
  status : row.status = event.status
  labels : row.labels = event.labels.sorted
  message : row.message = event.message
  firedAt : row.firedAt = event.firedAt.isoMs
  rawPayload : row.rawPayload = event.rawPayload
  scopeKey : row.scopeKey = scopeKeyFor event
  seq : result.seq = row.seq
  rowHash : result.rowHash = row.rowHash
  incidentId : result.incidentId = row.incidentId
  isDuplicate : result.isDuplicate = row.isDuplicate
  bypassed : result.bypassed = row.bypassed

/-- **An event is recorded**: one row of the ledger is of it, and the result is about that row. -/
def InLedger (db : Database K) (event : NormalizedEvent) (result : IngestResult) : Prop :=
  ∃ row ∈ db.rawEvents, TellsOf event result row ∧
    ∀ row' ∈ db.rawEvents, row'.eventId = event.eventId → row' = row

/-- Rows are appended, of events the ledger has none of. -/
def AppendsNew (db db' : Database K) : Prop :=
  ∃ rows, db'.rawEvents = rows ++ db.rawEvents ∧ ∀ r ∈ rows, ∀ r' ∈ db.rawEvents, r'.eventId ≠ r.eventId

section Writes

variable {rt : Runtime K} {db db' : Database K} {event : NormalizedEvent} {result : IngestResult}

theorem InLedger.appendsNew (h : InLedger db event result) (ha : AppendsNew db db') : InLedger db' event result := by
  obtain ⟨row, hrow, hrecords, honly⟩ := h
  obtain ⟨rows, hrows, hnew⟩ := ha
  refine ⟨row, hrows ▸ List.mem_append_right _ hrow, hrecords, fun row' hrow' hid => ?_⟩
  rw [hrows] at hrow'
  rcases List.mem_append.1 hrow' with hrow' | hrow'
  · exact absurd (hrecords.eventId.1.trans hid.symm) (hnew row' hrow' row hrow)
  · exact honly row' hrow' hid

/-- The alerts that are counted. -/
def alertsCounted (db : Database K) : ℕ := db.incidents.sum fun _ i => i.alertCount

/-- A request without an alert counts none. -/
theorem Effect.counts_none {trigger : Option Trigger} {targets : String → Prop}
    (h : Effect trigger targets db db') : alertsCounted db' = alertsCounted db := by
  refine Library.Table.sum_congr fun x => ?_
  rw [map_alertCount_core, map_alertCount_core]
  rcases h.incidents x with ⟨hcore, -⟩ | ⟨-, i, i', row, hi, hi', -, hm⟩
  · rw [hcore]
  · rw [hi, hi', Option.map_some, Option.map_some, hm.alertCount]

variable [Field K] [LinearOrder K]

/-- **A turn that is no alert** counts none, and appends rows of its own events. -/
theorem deploymentNext_noAlert {d d' : Deployment K} {t : Turn} (ht : t.isIngest = false)
    (hnext : deploymentNext rt d t = some d') :
    AppendsNew d.db d'.db ∧ alertsCounted d'.db = alertsCounted d.db := by
  cases t with
  | worker w step =>
      have hframe := (deploymentNext_worker hnext).1.frame
      rw [hframe]
      exact ⟨⟨[], rfl, List.forall_mem_nil _⟩, rfl⟩
  | request q =>
      rcases engineNext_cases (deploymentNext_request hnext).1 with ⟨_, _, _, _, _, rfl, -⟩ | ⟨-, heff⟩
      · cases ht
      · obtain ⟨rows, hrows, hnew⟩ := heff.ledger
        exact ⟨⟨rows, hrows, fun r hr => (hnew r hr).2.1⟩, heff.counts_none⟩

/-- **A written event**: its row is appended, is the newest, and counts one alert. -/
theorem writeEvent_spec {a : Arrival} (hfresh : a.request.fresh db = true)
    (h : writeEvent rt a db = .ok (result, db')) :
    InLedger db' a.event result ∧ AppendsNew db db' ∧ Appends db db' ∧
      (Ledgered db → ∀ row ∈ db.rawEvents, row.seq < result.seq) ∧
      alertsCounted db' = alertsCounted db + 1 := by
  obtain ⟨⟨d, db₁⟩, hingest, h⟩ := bind_eq_ok.1 h
  obtain ⟨hc, hcases⟩ := ingest_cases hfresh hingest
  have hevent : d.event = a.event := by
    rcases hcases with ho | ⟨i, hk⟩
    · exact ho.event_eq
    · exact hk.event_eq
  have hidentity : d.scopeKey = scopeKeyFor a.event := by
    rcases hcases with ho | ⟨i, hk⟩
    · exact ho.identity.1
    · exact hk.identity.1
  have hid : (ledgerRow rt a.now d db).eventId = a.event.eventId := congrArg NormalizedEvent.eventId hevent
  have hfind : db₁.rawEvents.find? (fun r => r.eventId = a.event.eventId) = some (ledgerRow rt a.now d db) := by
    rw [hc.ledger, List.find?_cons_of_pos (by simp [hid])]
  dsimp only at h
  rw [hfind] at h
  obtain ⟨rfl, rfl⟩ := Prod.mk.inj (Except.ok.inj h)
  have happends := appends_ingestEvent hingest
  refine ⟨⟨ledgerRow rt a.now d db, hc.ledger ▸ List.mem_cons_self, ?_, ?_⟩, ⟨[ledgerRow rt a.now d db], hc.ledger, ?_⟩,
    happends, fun hl row hrow => ?_, ?_⟩
  · constructor
    · exact ⟨hid, rfl⟩
    all_goals first | rfl | exact hidentity | (rw [← hevent]; rfl)
  · intro row' hrow' hid'
    rw [hc.ledger] at hrow'
    rcases List.mem_cons.1 hrow' with rfl | hrow'
    · rfl
    · exact absurd (hid'.trans (hevent ▸ rfl)) (hc.fresh row' hrow')
  · intro r hr r' hr'
    obtain rfl := List.mem_singleton.1 hr
    exact hc.fresh r' hr'
  · have hordered := (happends.ledgered hl).ordered
    rw [hc.ledger] at hordered
    exact (List.pairwise_cons.1 hordered).1 row hrow
  · have hsum := sum_alertCount_commits hc
    have hone : d.alertCount = ((db.core d.incidentId).map (·.alertCount)).getD 0 + 1 := by
      rcases hcases with ho | ⟨i, hk⟩
      · rw [ho.unknown, ho.alertCount]; rfl
      · rw [hk.known, hk.alertCount]; rfl
    unfold alertsCounted
    omega

end Writes

/-! ## Every run -/

section Runs

variable {rt : ProviderRuntime K} {enabled : Bool} {credentials : List IngestCredential} {s s' : FrontEnd K}

/-- The results of all requests. -/
def FrontEnd.results (s : FrontEnd K) : List IngestResult := s.exchanges.flatMap (·.2.results)

/-- One request moves on, and the results of the others stay. -/
theorem flatMap_results_set {l : List (IngestCall × Exchange)} {n : ℕ} {call : IngestCall} {x : Exchange}
    (h : l[n]? = some (call, x)) : ∃ before after, l.flatMap (·.2.results) = before ++ (x.results ++ after) ∧
      ∀ x' : Exchange, (l.set n (call, x')).flatMap (·.2.results) = before ++ (x'.results ++ after) := by
  obtain ⟨hn, hget⟩ := List.getElem?_eq_some_iff.1 h
  refine ⟨(l.take n).flatMap (·.2.results), (l.drop (n + 1)).flatMap (·.2.results), ?_, fun x' => ?_⟩
  · conv_lhs => rw [← List.take_append_drop n l, List.drop_eq_getElem_cons hn, hget]
    rw [List.flatMap_append, List.flatMap_cons]
  · rw [List.set_eq_take_append_cons_drop, if_pos hn, List.flatMap_append, List.flatMap_cons]

/-- The events a request has still to write. -/
def Exchange.Leaves : Exchange → List NormalizedEvent → Prop
  | .serving left _, rest => rest = left
  | .ingested _, rest => rest = []
  | .failed _, rest => rest ≠ []
  | .dropped _, _ => True
  | .refused _, _ => False

/-- **A request is accounted for**: it was refused before anything was written, or its events are
recorded up to those it leaves. -/
def Served (rt : ProviderRuntime K) (enabled : Bool) (credentials : List IngestCredential) (db : Database K)
    (call : IngestCall) (x : Exchange) : Prop :=
  (∃ refusal, x = .refused refusal ∧ admission rt enabled credentials call = .error refusal) ∨
  ∃ written rest, x.Leaves rest ∧ admission rt enabled credentials call = .ok (written ++ rest) ∧
    List.Forall₂ (InLedger db) written x.results ∧ x.results.Pairwise fun a b => a.seq < b.seq

/-- What every run keeps. -/
structure KeepsAccounts (rt : ProviderRuntime K) (enabled : Bool) (credentials : List IngestCredential)
    (s : FrontEnd K) : Prop where
  ledgered : Ledgered s.db
  served : ∀ p ∈ s.exchanges, Served rt enabled credentials s.db p.1 p.2
  distinct : (s.results.map (·.seq)).Nodup
  counted : alertsCounted s.db = s.results.length

theorem Served.appendsNew {db db' : Database K} {call : IngestCall} {x : Exchange}
    (h : Served rt enabled credentials db call x) (ha : AppendsNew db db') :
    Served rt enabled credentials db' call x := by
  rcases h with h | ⟨written, rest, hleaves, hadmission, hrecorded, hordered⟩
  · exact .inl h
  · exact .inr ⟨written, rest, hleaves, hadmission, hrecorded.imp fun _ _ hr => hr.appendsNew ha, hordered⟩

/-- A result is of a row of the ledger. -/
theorem Served.row {db : Database K} {call : IngestCall} {x : Exchange}
    (h : Served rt enabled credentials db call x) {result : IngestResult} (hr : result ∈ x.results) :
    ∃ row ∈ db.rawEvents, row.seq = result.seq := by
  rcases h with ⟨refusal, rfl, -⟩ | ⟨written, rest, -, -, hrecorded, -⟩
  · cases hr
  · generalize x.results = results at hrecorded hr
    induction hrecorded with
    | nil => cases hr
    | cons hfirst _ ih =>
        rcases List.mem_cons.1 hr with rfl | hr
        · obtain ⟨row, hrow, hrecords, -⟩ := hfirst
          exact ⟨row, hrow, hrecords.seq.symm⟩
        · exact ih hr

/-- A request that is received is refused, or has all its events to write. -/
theorem served_received (call : IngestCall) (db : Database K) :
    Served rt enabled credentials db call (received rt enabled credentials call) := by
  unfold received
  cases hadmission : admission rt enabled credentials call with
  | error refusal => exact .inl ⟨refusal, rfl, hadmission⟩
  | ok events => exact .inr ⟨[], events, rfl, hadmission, .nil, List.Pairwise.nil⟩

theorem results_received (call : IngestCall) : (received rt enabled credentials call).results = [] := by
  unfold received
  split <;> rfl

/-- A request that moves on without writing. -/
theorem KeepsAccounts.moved {n : ℕ} {call : IngestCall} {x x' : Exchange} (ha : KeepsAccounts rt enabled credentials s)
    (hn : s.exchanges[n]? = some (call, x)) (hresults : x'.results = x.results)
    (hserved : Served rt enabled credentials s.db call x') :
    KeepsAccounts rt enabled credentials { s with exchanges := s.exchanges.set n (call, x') } := by
  obtain ⟨before, after, hbefore, hset⟩ := flatMap_results_set hn
  have hsame : FrontEnd.results { s with exchanges := s.exchanges.set n (call, x') } = s.results := by
    rw [FrontEnd.results, FrontEnd.results, hset, hbefore, hresults]
  refine ⟨ha.ledgered, fun p hp => ?_, hsame ▸ ha.distinct, hsame ▸ ha.counted⟩
  rcases List.mem_or_eq_of_mem_set hp with hp | rfl
  · exact ha.served p hp
  · exact hserved

/-- **A request that writes its next event.** -/
theorem KeepsAccounts.wrote {n : ℕ} {call : IngestCall} {event : NormalizedEvent} {left : List NormalizedEvent}
    {results : List IngestResult} {result : IngestResult} {db : Database K} (ha : KeepsAccounts rt enabled credentials s)
    (hn : s.exchanges[n]? = some (call, .serving (event :: left) results)) (hrecorded : InLedger db event result)
    (hnew : AppendsNew s.db db) (hledgered : Ledgered db) (hseq : ∀ row ∈ s.db.rawEvents, row.seq < result.seq)
    (hcount : alertsCounted db = alertsCounted s.db + 1) :
    KeepsAccounts rt enabled credentials
      ⟨{ s.deployment with db := db }, s.exchanges.set n (call, .serving left (results ++ [result]))⟩ := by
  obtain ⟨before, after, hbefore, hset⟩ := flatMap_results_set hn
  have hserved := ha.served _ (List.mem_of_getElem? hn)
  -- the results so far are of rows that are there, so the new one is above them all
  have hlater : ∀ r ∈ s.results, r.seq < result.seq := by
    intro r hr
    obtain ⟨p, hp, hr⟩ := List.mem_flatMap.1 hr
    obtain ⟨row, hrow, heq⟩ := (ha.served p hp).row hr
    exact heq ▸ hseq row hrow
  have hperm : ((s.exchanges.set n (call, .serving left (results ++ [result]))).flatMap (·.2.results)).Perm
      (result :: s.results) := by
    rw [hset, FrontEnd.results, hbefore]
    change (before ++ ((results ++ [result]) ++ after)).Perm (result :: (before ++ (results ++ after)))
    rw [List.append_assoc results, List.singleton_append, ← List.append_assoc, ← List.append_assoc]
    exact List.perm_middle
  refine ⟨hledgered, fun p hp => ?_, ?_, ?_⟩
  · rcases List.mem_or_eq_of_mem_set hp with hp | rfl
    · exact (ha.served p hp).appendsNew hnew
    · rcases hserved with ⟨refusal, heq, -⟩ | ⟨written, rest, rfl, hadmission, hall, hordered⟩
      · cases heq
      · refine .inr ⟨written ++ [event], left, rfl, by rw [hadmission, List.append_assoc]; rfl, ?_, ?_⟩
        · exact List.rel_append (hall.imp fun _ _ hr => hr.appendsNew hnew) (.cons hrecorded .nil)
        · refine List.pairwise_append.2 ⟨hordered, List.pairwise_singleton _ _, fun r hr r' hr' => ?_⟩
          obtain rfl := List.mem_singleton.1 hr'
          exact hlater r (List.mem_flatMap.2 ⟨_, List.mem_of_getElem? hn, hr⟩)
  · refine (hperm.map _).nodup_iff.2 ?_
    rw [List.map_cons, List.nodup_cons]
    refine ⟨fun hmem => ?_, ha.distinct⟩
    obtain ⟨r, hr, heq⟩ := List.mem_map.1 hmem
    exact absurd heq (hlater r hr).ne
  · exact (hcount.trans (congrArg (· + 1) ha.counted)).trans hperm.length_eq.symm

/-- A request that leaves what a serving one does. -/
theorem Served.closed {db : Database K} {call : IngestCall} {left : List NormalizedEvent} {x : Exchange}
    (h : Served rt enabled credentials db call (.serving left x.results)) (hleaves : x.Leaves left) :
    Served rt enabled credentials db call x := by
  rcases h with ⟨refusal, heq, -⟩ | ⟨written, rest, rfl, hadmission, hrecorded, hordered⟩
  · cases heq
  · exact .inr ⟨written, rest, hleaves, hadmission, hrecorded, hordered⟩

variable [Field K] [LinearOrder K]

/-- **A turn keeps the accounts.** -/
theorem frontNext_accounts {turn : FrontTurn} (ha : KeepsAccounts rt enabled credentials s)
    (hnext : frontNext rt enabled credentials s turn = some s') : KeepsAccounts rt enabled credentials s' := by
  cases turn with
  | turn t =>
      rw [frontNext] at hnext
      split_ifs at hnext with ht
      obtain ⟨d, hd, rfl⟩ := Option.map_eq_some_iff.1 hnext
      obtain ⟨hnew, hcount⟩ := deploymentNext_noAlert (by simpa using ht) hd
      exact ⟨(deploymentNext_appends hd).ledgered ha.ledgered, fun p hp => (ha.served p hp).appendsNew hnew, ha.distinct,
        hcount.trans ha.counted⟩
  | receive call =>
      obtain rfl := Option.some.inj hnext
      have hsame : FrontEnd.results { s with
          exchanges := s.exchanges ++ [(call, received rt enabled credentials call)] } = s.results := by
        rw [FrontEnd.results, List.flatMap_append, List.flatMap_singleton, results_received, List.append_nil]
        rfl
      refine ⟨ha.ledgered, fun p hp => ?_, hsame ▸ ha.distinct, hsame ▸ ha.counted⟩
      rcases List.mem_append.1 hp with hp | hp
      · exact ha.served p hp
      · rw [List.mem_singleton.1 hp]
        exact served_received call s.db
  | answer n =>
      rw [frontNext] at hnext
      split at hnext
      · next call results hn =>
          obtain rfl := Option.some.inj hnext
          exact ha.moved hn rfl ((ha.served _ (List.mem_of_getElem? hn)).closed rfl)
      · cases hnext
  | drop n =>
      rw [frontNext] at hnext
      split at hnext
      · next call left results hn =>
          obtain rfl := Option.some.inj hnext
          exact ha.moved hn rfl ((ha.served _ (List.mem_of_getElem? hn)).closed trivial)
      · cases hnext
  | write n freshId freshGroupId now =>
      rw [frontNext] at hnext
      split at hnext
      swap
      · cases hnext
      next call event left results hn =>
      have hserved := ha.served _ (List.mem_of_getElem? hn)
      dsimp only at hnext
      split_ifs at hnext with hfresh
      rw [Bool.not_eq_true', Bool.not_eq_false] at hfresh
      cases hw : writeEvent rt.toRuntime ⟨freshId, freshGroupId, now, event⟩ s.db with
      | error e =>
          rw [hw] at hnext
          obtain rfl := Option.some.inj hnext
          exact ha.moved hn rfl (hserved.closed (List.cons_ne_nil event left))
      | ok p =>
          obtain ⟨result, db⟩ := p
          rw [hw] at hnext
          obtain rfl := Option.some.inj hnext
          obtain ⟨hrecorded, hnew, happends, hseq, hcount⟩ := writeEvent_spec hfresh hw
          exact ha.wrote hn hrecorded hnew (happends.ledgered ha.ledgered) (hseq ha.ledgered) hcount

variable {h : List (Transition (FrontEnd K) FrontTurn)}

/-- The accounts of every run. -/
theorem FrontRun.accounts (r : FrontRun rt enabled credentials h s) : KeepsAccounts rt enabled credentials s := by
  refine r.induct (I := fun _ s => KeepsAccounts rt enabled credentials s) ?_ ?_
  · rintro s rfl
    exact ⟨ledgered_empty, List.forall_mem_nil _, List.nodup_nil, rfl⟩
  · intro h s turn s' _ ha hnext
    exact frontNext_accounts ha hnext

/-- **What is acknowledged is in the ledger.**  In every run of the service, a request that is answered
200 was admitted, and its results name, event by event and in order, the one row of the ledger there is
of each event; a request that a transaction ended has written a beginning of its events, and only that;
no two results, of one request or of two, name one row; and the incidents count as many alerts as there
are results. -/
theorem batches_acknowledged (r : FrontRun rt enabled credentials h s) :
    (∀ call results, (call, .ingested results) ∈ s.exchanges → ∃ events,
      admission rt enabled credentials call = .ok events ∧ List.Forall₂ (InLedger s.db) events results ∧
        results.Pairwise fun a b => a.seq < b.seq) ∧
    (∀ call results, (call, .failed results) ∈ s.exchanges → ∃ written rest, rest ≠ [] ∧
      admission rt enabled credentials call = .ok (written ++ rest) ∧ List.Forall₂ (InLedger s.db) written results) ∧
    (s.results.map (·.seq)).Nodup ∧ alertsCounted s.db = s.results.length := by
  have ha := r.accounts
  refine ⟨fun call results hmem => ?_, fun call results hmem => ?_, ha.distinct, ha.counted⟩
  · rcases ha.served _ hmem with ⟨_, heq, -⟩ | ⟨written, rest, hrest, hadmission, hrecorded, hordered⟩
    · cases heq
    · obtain rfl : rest = [] := hrest
      exact ⟨written, by rw [hadmission, List.append_nil], hrecorded, hordered⟩
  · rcases ha.served _ hmem with ⟨_, heq, -⟩ | ⟨written, rest, hrest, hadmission, hrecorded, -⟩
    · cases heq
    · exact ⟨written, rest, hrest, hadmission, hrecorded⟩

end Runs

/-- Prometheus and Grafana post one alert each, and somebody without a token posts one too. -/
def threeCalls : List IngestCall :=
  [⟨.prometheus, some "Bearer token", none, some prometheusPayload, fun _ => "1"⟩,
    ⟨.grafana, none, some "token", some grafanaPayload, fun _ => "2"⟩,
    ⟨.prometheus, none, none, some prometheusPayload, fun _ => "3"⟩]

/-- The second request writes first, and is answered last. -/
def crossedTurns : List FrontTurn :=
  threeCalls.map .receive ++ [.write 1 "incident-1" "group-1" 1000, .write 0 "incident-2" "group-2" 2000,
    .answer 0, .answer 1]

/-- Both are acknowledged, with the rows they wrote. -/
theorem batches_acknowledged_crossed : ∃ h s,
    FrontRun ProviderRuntime.reference true [⟨"prod", "token", "*"⟩] h s ∧
    s.exchanges.map (fun p => p.2.results.map (·.seq)) = [[2], [1], []] ∧
    (∀ call results, (call, .ingested results) ∈ s.exchanges → ∃ events,
      admission ProviderRuntime.reference true [⟨"prod", "token", "*"⟩] call = .ok events ∧
        List.Forall₂ (InLedger s.db) events results ∧ results.Pairwise fun a b => a.seq < b.seq) ∧
    alertsCounted s.db = 2 := by
  have hreplay : (Library.replay (frontNext ProviderRuntime.reference true [⟨"prod", "token", "*"⟩]) crossedTurns
      ([], FrontEnd.initial)).map (fun s => s.2.exchanges.map fun p => p.2.results.map (·.seq)) =
      some [[2], [1], []] := by decide +kernel
  obtain ⟨h, s, hrun, heq⟩ := @Run.exists_of_replay _ _ (· = FrontEnd.initial) _ _ _ _ _ _ rfl hreplay
  obtain ⟨hall, -, -, hcount⟩ := batches_acknowledged hrun
  refine ⟨h, s, hrun, heq, hall, hcount.trans ?_⟩
  have hlength : s.results.length = (s.exchanges.map fun p => (p.2.results.map (·.seq)).length).sum := by
    simp [FrontEnd.results, List.length_flatMap]
  rw [hlength]
  have hsum := congrArg (fun l => (l.map List.length).sum) heq
  rwa [List.map_map] at hsum

end PulseGraph
