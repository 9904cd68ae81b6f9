import FixedSupply.EntryPoint
import FixedSupply.Event
import FixedSupply.Json.Record

/-!
# JSON forms of ledger values

An amount is the list of its digits in base 2³², least significant first; byte strings are lists of
numbers; entry points and kinds of events are their names; an event is an object with its kind.
-/

namespace FixedSupply.Json

def writeAmount (amount : Amount) : List Char :=
  writeList ((Amount.words amount).map writeNat)

def writeBytes (bytes : Bytes) : List Char :=
  writeList (bytes.map fun byte => writeNat byte.toNat)

def writeBytes32 (bytes : Bytes32) : List Char :=
  writeBytes bytes.bytes

def writeEntryPoint (entry : EntryPoint) : List Char :=
  quote entry.label

def writeEventKind (kind : EventKind) : List Char :=
  quote kind.label

def writeEvent (event : Event) : List Char :=
  let fields := match event with
    | .initialized owner supply =>
      [("owner", writeBytes32 owner), ("total_supply", writeAmount supply)]
    | .transfer sender recipient amount =>
      [("from", writeBytes32 sender), ("to", writeBytes32 recipient), ("amount", writeAmount amount)]
  writeObject [(event.kind.label, writeObject fields)]

def writeLogEntry (entry : LogEntry) : List Char :=
  writeObject [("topics", writeList (entry.topics.map writeBytes32)), ("data", writeBytes entry.data)]

def writeLogs (logs : List LogEntry) : List Char :=
  writeList (logs.map writeLogEntry)

namespace Reader

/-- An amount; high zero digits are accepted. -/
def amount : Reader Amount := do
  return Amount.ofWords (← list "a sequence of unsigned 32-bit numbers" (natural "u32" Amount.wordBase))

def byte : Reader UInt8 := do
  return UInt8.ofNat (← natural "u8" 256)

def bytes : Reader Bytes :=
  list "a sequence" byte

def bytes32 : Reader Bytes32 := do
  let expected := "an array of length 32"
  let ⟨bytes, h⟩ ← listOf expected (elementsExactly expected byte 0 32)
  return ⟨bytes, h⟩

def entryPoint : Reader EntryPoint :=
  unitVariant (EntryPoint.all.map fun entry => (entry.label, entry))

def eventKinds : List (String × EventKind) :=
  EventKind.all.map fun kind => (kind.label, kind)

def eventKind : Reader EventKind :=
  unitVariant eventKinds

/-- The fields of an initialization that were read so far. -/
structure InitializedDraft where
  owner : Option Address
  supply : Option Amount

def initialized (expected : String) : Reader Event :=
  let expectedFields := expected ++ " with 2 elements"
  record expected
    (do
      let owner ← elementAt 0 expectedFields bytes32
      let supply ← elementAt 1 expectedFields amount
      return .initialized owner supply)
    (⟨none, none⟩ : InitializedDraft)
    (fun draft key => do
      match key with
      | "owner" => return { draft with owner := ← newField key draft.owner bytes32 }
      | "total_supply" => return { draft with supply := ← newField key draft.supply amount }
      | _ => otherField draft)
    fun draft => do
      let owner ← requiredField "owner" draft.owner
      let supply ← requiredField "total_supply" draft.supply
      return .initialized owner supply

/-- The fields of a transfer that were read so far. -/
structure TransferDraft where
  sender : Option Address
  recipient : Option Address
  amount : Option Amount

def transfer (expected : String) : Reader Event :=
  let expectedFields := expected ++ " with 3 elements"
  record expected
    (do
      let sender ← elementAt 0 expectedFields bytes32
      let recipient ← elementAt 1 expectedFields bytes32
      let amount ← elementAt 2 expectedFields amount
      return .transfer sender recipient amount)
    (⟨none, none, none⟩ : TransferDraft)
    (fun draft key => do
      match key with
      | "from" => return { draft with sender := ← newField key draft.sender bytes32 }
      | "to" => return { draft with recipient := ← newField key draft.recipient bytes32 }
      | "amount" => return { draft with amount := ← newField key draft.amount amount }
      | _ => otherField draft)
    fun draft => do
      let sender ← requiredField "from" draft.sender
      let recipient ← requiredField "to" draft.recipient
      let amount ← requiredField "amount" draft.amount
      return .transfer sender recipient amount

/-- An event. The bare name of a kind is not enough. -/
def event : Reader Event :=
  variant eventKinds (fun _ => fail (.wrongType .unitVariant "struct variant")) fun kind =>
    let expected := s!"struct variant LedgerEvent::{kind.label}"
    match kind with
    | .initialized => initialized expected
    | .transfer => transfer expected

/-- The fields of a log entry that were read so far. -/
structure LogEntryDraft where
  topics : Option (List Topic)
  data : Option Bytes

def logEntry : Reader LogEntry :=
  let topics := list "a sequence" bytes32
  let expectedFields := "struct LogEntry with 2 elements"
  record "struct LogEntry"
    (do
      let topics ← elementAt 0 expectedFields topics
      let data ← elementAt 1 expectedFields bytes
      return ⟨topics, data⟩)
    (⟨none, none⟩ : LogEntryDraft)
    (fun draft key => do
      match key with
      | "topics" => return { draft with topics := ← newField key draft.topics topics }
      | "data" => return { draft with data := ← newField key draft.data bytes }
      | _ => otherField draft)
    fun draft => do
      let topics ← requiredField "topics" draft.topics
      let data ← requiredField "data" draft.data
      return ⟨topics, data⟩

end Reader

end FixedSupply.Json
