import FixedSupply.Binary
import FixedSupply.Host

/-!
# Snapshots

The binary form of what a host keeps between invocations: the entries of the storage in ascending
order of their keys, and then the log. Reading accepts the entries in any order, and of two with one
key the later wins.
-/

namespace FixedSupply

namespace Binary

/-- A storage entry is its key and its value. -/
def writeEntry? (entry : Bytes × Bytes) : Option Bytes := do
  return (← writeBytes? entry.1) ++ (← writeBytes? entry.2)

/-- The binary form of a state, if all its lengths fit. -/
def writeState? (state : State) : Option Bytes := do
  let storage ← writeList? writeEntry? state.storage.entries
  return storage ++ (← writeList? writeLogEntry? state.logs)

def entry : Reader (Bytes × Bytes) := do
  let key ← bytes
  return (key, ← bytes)

def state : Reader State := do
  let entries ← list entry
  return ⟨.ofList entries, ← list logEntry⟩

end Binary

namespace Host

/-- The snapshot of a host, which is empty if a length does not fit the format. -/
def snapshot (host : Host) : Bytes :=
  (Binary.writeState? host.state).getD []

/-- The host with the storage and the log of a snapshot in place of its own. -/
def restore? (host : Host) (snapshot : Bytes) : Option Host :=
  match Binary.decode Binary.state snapshot with
  | .ok state => some { host with state }
  | .error _ => none

end Host

end FixedSupply
