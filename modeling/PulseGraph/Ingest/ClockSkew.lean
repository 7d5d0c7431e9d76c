/-
# Clock skew of the sources

`src/ingest/clock_skew.py`: one upsert per recorded event.  Nothing else of the
engine reads this table.
-/

import PulseGraph.Db.Schema

namespace PulseGraph

variable {K : Type}

/-- `record_skew`, with the receiving clock at `now` milliseconds. -/
def recordSkew (source : Source) (scopeKey : String) (firedAt : DateTime) (now : ℤ)
    (db : Database K) : Database K :=
  let skewMs := (firedAt.utcUs - now * 1000).tdiv 1000
  { db with
    clockSkew := db.clockSkew.upsert (source, scopeKey)
      { lastSkewMs := skewMs, maxAbsSkewMs := |skewMs|, samples := 1, updatedAt := now }
      fun row => { row with
        lastSkewMs := skewMs
        maxAbsSkewMs := max row.maxAbsSkewMs |skewMs|
        samples := row.samples + 1
        updatedAt := now } }

end PulseGraph
