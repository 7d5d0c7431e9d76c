/-
# The hash chain of the ledger

`src/db/hashchain.py`, and the JSON form of an event (`model_dump(mode="json")`)
that is hashed.
-/

import PulseGraph.Config
import PulseGraph.Db.Schema

namespace PulseGraph

open Library (Json)

variable {K : Type} (rt : Runtime K)

/-- `GENESIS_HASH`. -/
def genesisHash : String := String.ofList (List.replicate 64 '0')

/-- `event.model_dump(mode="json")`. -/
def NormalizedEvent.dump (event : NormalizedEvent) : Json :=
  .obj [("event_id", .str event.eventId), ("fingerprint", .str event.fingerprint),
    ("source", .str event.source.text), ("service", .str event.service),
    ("alertname", .str event.alertname), ("severity_raw", .str event.severityRaw),
    ("status", .str event.status.text),
    ("labels", .obj (event.labels.items.map fun kv => (kv.1, .str kv.2))),
    ("message", .str event.message), ("fired_at", .str event.firedAt.dump),
    ("raw_payload", .obj event.rawPayload)]

/-- `compute_row_hash`. -/
def computeRowHash (prevHash canonicalRowJson : String) : String :=
  rt.sha256 (prevHash ++ canonicalRowJson)

/-- `next_seq_and_prev_hash`. -/
def nextSeqAndPrevHash (db : Database K) : ℕ × String :=
  match db.rawEvents with
  | [] => (1, genesisHash)
  | row :: _ => (row.seq + 1, row.rowHash)

end PulseGraph
