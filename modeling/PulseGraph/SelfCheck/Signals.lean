/-
# The signals of a self-check

`src/selfcheck/signals.py`: what an operator is told about the alerting system itself.
`gather` reads the queue, the breakers, the ledger, the skew of the sources and the scopes
that await a ranking, and answers that the database is unreachable where there is no
connection.

`worstSkew_le` and `skewAt_recordSkew` say what the signal about the sources reads: the greatest
skew on record, which is the latest of each source in each scope.
-/

import PulseGraph.Db.Schema
import PulseGraph.Ingest.ClockSkew
import PulseGraph.Outbox.ChannelHealth

namespace PulseGraph

open Library (Table)

variable {K : Type}

/-- `SelfCheckSignals`. -/
structure SelfCheckSignals where
  databaseReachable : Bool := true
  workers : List (String × Bool) := []
  outboxPending : ℕ := 0
  outboxDead : ℕ := 0
  oldestPendingAgeSeconds : Option ℚ := none
  openChannels : List Channel := []
  ongoingOutages : ℕ := 0
  secondsSinceLastIngest : Option ℚ := none
  worstClockSkewMs : ℤ := 0
  unrankedScopes : ℕ := 0

/-- `_age_seconds` of a stored instant, on a clock with microseconds; never negative. -/
def ageSeconds (value : Option ℤ) (nowUs : ℤ) : Option ℚ :=
  value.map fun moment => max 0 (((nowUs - moment * 1000 : ℤ) : ℚ) / 1000000)

/-- `SELECT MAX(ingested_at) AS latest FROM raw_events`. -/
def lastIngest (db : Database K) : Option ℤ := (db.rawEvents.map (·.ingestedAt)).max?

/-- `SELECT MAX(ABS(last_skew_ms)) AS worst FROM source_clock_skew`, or 0. -/
def worstSkew (db : Database K) : ℤ := ((db.clockSkew.rows.map fun r => |r.2.lastSkewMs|).max?).getD 0

/-- `gather`: collect every internal signal. -/
def gather (nowUs : ℤ) (workers : List (String × Bool)) : Option (Database K) → SelfCheckSignals
  | none => { databaseReachable := false, workers := workers }
  | some db =>
      let pending := db.outbox.select fun _ r => r.status = .pending
      { workers := workers
        outboxPending := pending.length
        outboxDead := db.outbox.count fun _ r => r.status = .dead
        oldestPendingAgeSeconds := ageSeconds ((pending.map fun r => r.2.createdAt).min?) nowUs
        openChannels := (((allStates db).filter fun state => state.state = .OPEN).map (·.channel)).insertionSort
          fun a b => a.text ≤ b.text
        ongoingOutages := db.channelOutages.count fun _ o => o.recoveredAt = none
        secondsSinceLastIngest := ageSeconds (lastIngest db) nowUs
        worstClockSkewMs := worstSkew db
        unrankedScopes := db.scopeStats.count fun _ stats => stats.rankedRevision < stats.observedRevision }

/-- The skew `record_skew` computes. -/
def skewMs (firedAt : DateTime) (now : ℤ) : ℤ := (firedAt.utcUs - now * 1000).tdiv 1000

/-- How large the skew on record of a source in a scope is, none being none. -/
def skewAt (db : Database K) (p : Source × String) : ℤ :=
  ((db.clockSkew.find? p).map fun row => |row.lastSkewMs|).getD 0

section Reads

variable {db db' : Database K} {p : Source × String}

/-- The greatest of a list, or 0, is at most what bounds all of it. -/
theorem max?_getD_le {l : List ℤ} {b : ℤ} (hb : 0 ≤ b) : l.max?.getD 0 ≤ b ↔ ∀ a ∈ l, a ≤ b := by
  cases h : l.max? with
  | none =>
      obtain rfl := List.max?_eq_none_iff.1 h
      simpa using hb
  | some m => exact List.max?_le_iff h

theorem max?_getD_nonneg {l : List ℤ} (h : ∀ a ∈ l, 0 ≤ a) : 0 ≤ l.max?.getD 0 := by
  cases hm : l.max? with
  | none => exact le_refl _
  | some m => exact h m (List.max?_mem hm)

theorem worstSkew_nonneg : 0 ≤ worstSkew db := by
  refine max?_getD_nonneg fun _ ha => ?_
  obtain ⟨r, -, rfl⟩ := List.mem_map.1 ha
  exact abs_nonneg _

/-- **The worst skew** is the greatest on record. -/
theorem worstSkew_le {b : ℤ} (hb : 0 ≤ b) : worstSkew db ≤ b ↔ ∀ p, skewAt db p ≤ b := by
  unfold worstSkew
  rw [max?_getD_le hb]
  constructor
  · intro h p
    unfold skewAt
    cases hrow : db.clockSkew.find? p with
    | none => exact hb
    | some row => exact h _ (List.mem_map.2 ⟨(p, row), Table.find?_eq_some_iff.1 hrow, rfl⟩)
  · rintro h _ ha
    obtain ⟨⟨p, row⟩, hrow, rfl⟩ := List.mem_map.1 ha
    have hp := h p
    unfold skewAt at hp
    rwa [Table.find?_eq_some_iff.2 hrow] at hp

/-- What is recorded of a source in a scope is the latest skew. -/
theorem skewAt_recordSkew (source : Source) (scopeKey : String) (firedAt : DateTime) (now : ℤ) :
    skewAt (recordSkew source scopeKey firedAt now db) p =
      if p = (source, scopeKey) then |skewMs firedAt now| else skewAt db p := by
  unfold skewAt recordSkew
  dsimp only
  rw [Table.find?_upsert]
  split_ifs with hp
  · cases db.clockSkew.find? (source, scopeKey) with
    | none => rfl
    | some row => rfl
  · rfl

end Reads

end PulseGraph
