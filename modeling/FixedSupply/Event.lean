import FixedSupply.Amount
import FixedSupply.Digest

/-!
# Log entries and ledger events

A log entry is a list of topics with data. The ledger writes each of its events as one entry: the
first topic is the digest of the event's identifier, the next ones are the addresses involved, and
the data is the canonical encoding of the amount. `Event.ofLog?` reads such an entry back.
-/

namespace FixedSupply

structure LogEntry where
  topics : List Topic
  data : Bytes
  deriving DecidableEq

inductive EventKind where
  | initialized
  | transfer
  deriving DecidableEq, Repr

namespace EventKind

def all : List EventKind := [.initialized, .transfer]

def label : EventKind → String
  | .initialized => "Initialized"
  | .transfer => "Transfer"

def discriminant : EventKind → Nat
  | .initialized => 0x01
  | .transfer => 0x40

/-- The identifier whose digest is the first topic. -/
def identifier : EventKind → String
  | .initialized => "event.initialized"
  | .transfer => "event.transfer"

/-- The first topic of an event of this kind. -/
def topic (kind : EventKind) : Topic :=
  Digest.sha256 (Bytes.ofString kind.identifier)

/-- The kind of event that a first topic announces. -/
def ofTopic? (topic : Topic) : Option EventKind :=
  all.find? fun kind => kind.topic == topic

end EventKind

/-- Something that happened to the ledger. -/
inductive Event where
  | initialized (owner : Address) (supply : Amount)
  | transfer (sender recipient : Address) (amount : Amount)
  deriving DecidableEq

namespace Event

def kind : Event → EventKind
  | .initialized .. => .initialized
  | .transfer .. => .transfer

def amount : Event → Amount
  | .initialized _ supply => supply
  | .transfer _ _ amount => amount

/-- The addresses involved, in the order of the topics. -/
def addresses : Event → List Address
  | .initialized owner _ => [owner]
  | .transfer sender recipient _ => [sender, recipient]

def topics (event : Event) : List Topic :=
  event.kind.topic :: event.addresses

def data (event : Event) : Bytes :=
  Amount.toBytes event.amount

def toLog (event : Event) : LogEntry :=
  ⟨event.topics, event.data⟩

/-- The event that a log entry records, if it has the shape of one. -/
def ofLog? (entry : LogEntry) : Option Event :=
  match entry.topics with
  | [] => none
  | first :: rest =>
    match EventKind.ofTopic? first, rest with
    | some .initialized, [owner] => some (.initialized owner (Amount.ofBytes entry.data))
    | some .transfer, [sender, recipient] =>
      some (.transfer sender recipient (Amount.ofBytes entry.data))
    | _, _ => none

end Event

/-- The events of a ledger, oldest first. -/
abbrev History := List Event

namespace History

/-- The events that a log records; entries of another shape are passed over. -/
def ofLogs (logs : List LogEntry) : History :=
  logs.filterMap Event.ofLog?

def emit (history : History) (event : Event) : History :=
  history ++ [event]

def ofKind (history : History) (kind : EventKind) : History :=
  history.filter fun event => event.kind == kind

end History

end FixedSupply
