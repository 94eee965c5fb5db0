import Latch.Json.Typed
import Latch.Json.Value
import Latch.Key
import Latch.Lock

/-!
# Locks, keys and outcomes as JSON

A lock and a key are objects with their fields in a fixed order. They are read with their fields in
any order, or as an array of the fields. Unknown members are passed over, a second member of a known
name is refused, and of a lock the reason and its code may be missing.

An outcome is its word, or an object with its word as the only name and `null` as the value.
-/

namespace Latch

open Json (Fault Reader)

/-! ## Writing -/

def Lock.toJson (lock : Lock) : Json :=
  .object [("locked", .boolean lock.locked),
    ("unlock_time_ms", .integer lock.unlockTime.toInt),
    ("reason_code", .ofOption lock.reasonCode),
    ("reason", .ofOption lock.reason)]

def Key.toJson (key : Key) : Json :=
  .object [("user_id", .text key.user),
    ("tenant_id", .integer key.tenant.toInt),
    ("feature_id", .text key.feature)]

def LockOutcome.toJson (outcome : LockOutcome) : Json := .text outcome.text

/-! ## Reading locks -/

def isMillis (n : Int) : Bool := -9223372036854775808 ≤ n && n ≤ 9223372036854775807

def readMillis (cs : List Char) : Except Fault (Millis × List Char) :=
  (Json.readInteger isMillis cs).map fun (n, rest) => (Int64.ofInt n, rest)

namespace Lock

/-- What is known of a lock while its members are read. -/
structure Draft where
  locked : Option Bool := none
  unlockTime : Option Millis := none
  reasonCode : Option (Option String) := none
  reason : Option (Option String) := none
deriving DecidableEq, Repr

def Draft.finish (draft : Draft) : Option Lock := do
  return ⟨← draft.locked, ← draft.unlockTime, draft.reasonCode.join, draft.reason.join⟩

def readMember (name : String) (draft : Draft) : Reader Draft :=
  if name = "locked" then
    Json.field draft.locked Json.readBool fun b => { draft with locked := some b }
  else if name = "unlock_time_ms" then
    Json.field draft.unlockTime readMillis fun m => { draft with unlockTime := some m }
  else if name = "reason_code" then
    Json.field draft.reasonCode (Json.readOptional Json.readText)
      fun code => { draft with reasonCode := some code }
  else if name = "reason" then
    Json.field draft.reason (Json.readOptional Json.readText)
      fun reason => { draft with reason := some reason }
  else Json.skipMember draft

def readItems (cs : List Char) : Except Fault (Lock × List Char) := do
  let (locked, cs) ← Json.item true Json.readBool cs
  let (unlockTime, cs) ← Json.item false readMillis cs
  let (reasonCode, cs) ← Json.item false (Json.readOptional Json.readText) cs
  let (reason, cs) ← Json.item false (Json.readOptional Json.readText) cs
  return (⟨locked, unlockTime, reasonCode, reason⟩, cs)

def read : Reader Lock := Json.readRecord readItems readMember {} Draft.finish

def ofJson (text : String) : Except Fault Lock := Json.readAll read text

end Lock

/-! ## Reading keys -/

def isTenant (n : Int) : Bool := -2147483648 ≤ n && n ≤ 2147483647

def readTenant (cs : List Char) : Except Fault (TenantId × List Char) :=
  (Json.readInteger isTenant cs).map fun (n, rest) => (Int32.ofInt n, rest)

namespace Key

/-- What is known of a key while its members are read. -/
structure Draft where
  user : Option String := none
  tenant : Option TenantId := none
  feature : Option String := none
deriving DecidableEq, Repr

def Draft.finish (draft : Draft) : Option Key := do
  return ⟨← draft.user, ← draft.tenant, ← draft.feature⟩

def readMember (name : String) (draft : Draft) : Reader Draft :=
  if name = "user_id" then
    Json.field draft.user Json.readText fun user => { draft with user := some user }
  else if name = "tenant_id" then
    Json.field draft.tenant readTenant fun tenant => { draft with tenant := some tenant }
  else if name = "feature_id" then
    Json.field draft.feature Json.readText fun feature => { draft with feature := some feature }
  else Json.skipMember draft

def readItems (cs : List Char) : Except Fault (Key × List Char) := do
  let (user, cs) ← Json.item true Json.readText cs
  let (tenant, cs) ← Json.item false readTenant cs
  let (feature, cs) ← Json.item false Json.readText cs
  return (⟨user, tenant, feature⟩, cs)

def read : Reader Key := Json.readRecord readItems readMember {} Draft.finish

def ofJson (text : String) : Except Fault Key := Json.readAll read text

end Key

/-! ## Reading outcomes -/

namespace LockOutcome

def readWord (cs : List Char) : Except Fault (LockOutcome × List Char) :=
  match Json.readText cs with
  | .error fault => .error fault
  | .ok (word, rest) =>
    match ofText? word with
    | some outcome => .ok (outcome, rest)
    | none => .error .mismatch

/-- Reads the end of an object. -/
def endObject (cs : List Char) : Except Fault (List Char) :=
  match Json.dropSpace cs with
  | [] => .error .truncated
  | c :: rest => if c = '\x7d' then .ok rest else .error .malformed

def readObject (cs : List Char) : Except Fault (LockOutcome × List Char) := do
  let (outcome, cs) ← readWord cs
  let ((), cs) ← Json.memberValue Json.readNull cs
  return (outcome, ← endObject cs)

def read (cs : List Char) : Except Fault (LockOutcome × List Char) :=
  match Json.dropSpace cs with
  | [] => .error .truncated
  | c :: rest =>
    if c = '\x7b' then readObject rest
    else if c = '"' then readWord (c :: rest)
    else .error .malformed

def ofJson (text : String) : Except Fault LockOutcome := Json.readAll read text

end LockOutcome

end Latch
