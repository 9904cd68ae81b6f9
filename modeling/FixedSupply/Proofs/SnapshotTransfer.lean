import FixedSupply.Host.Invocation
import FixedSupply.Proofs.SnapshotGrammar

/-!
# Snapshots in place of hosts

The snapshot of a host whose lengths fit the format is in the grammar of snapshots, and it lists the
entries of the storage in their order, so hosts have one snapshot just if they hold the same. An
invocation starts with a context of its own: a host that was restored from a snapshot cannot be told
from the one that was written, whatever the last invocation left there.
-/

namespace FixedSupply

open Binary

/-- Every length of the state fits a word. -/
structure State.Fits (state : State) : Prop where
  entries : state.storage.entries.length < lengthBound
  entry : ∀ entry ∈ state.storage.entries,
    entry.1.length < lengthBound ∧ entry.2.length < lengthBound
  logs : state.logs.length < lengthBound
  log : ∀ entry ∈ state.logs, entry.topics.length < lengthBound ∧ entry.data.length < lengthBound

namespace Binary

variable {α : Type}

/-- The writer writes values that fit in the form. -/
def Writes (write : α → Option Bytes) (fits : α → Prop) (form : Form α) : Prop :=
  ∀ value, fits value → ∃ bytes, write value = some bytes ∧ form value bytes

lemma writes_length : Writes writeLength? (· < lengthBound) Form.word := by
  intro n hn
  refine ⟨littleEndian 4 n, if_pos hn, length_littleEndian 4 n, ?_⟩
  rw [ofDigits_littleEndian]
  exact Nat.mod_eq_of_lt hn

lemma writes_bytes : Writes writeBytes? (·.length < lengthBound) Form.block := by
  intro content hcontent
  obtain ⟨word, hwrite, hword⟩ := writes_length content.length hcontent
  refine ⟨word ++ content, ?_, word, content, hword, rfl, rfl⟩
  rw [writeBytes?, hwrite]
  rfl

lemma writes_row {write : α → Option Bytes} {fits : α → Prop} {form : Form α}
    (h : Writes write fits form) (values : List α) (hvalues : ∀ value ∈ values, fits value) :
    ∃ parts, values.mapM write = some parts ∧ Form.Row form values parts.flatten := by
  induction values with
  | nil => exact ⟨[], rfl, .nil⟩
  | cons value values ih =>
    obtain ⟨front, hwrite, hfront⟩ := h value (hvalues value List.mem_cons_self)
    obtain ⟨parts, hparts, hback⟩ := ih fun value hvalue => hvalues value (List.mem_cons_of_mem _ hvalue)
    refine ⟨front :: parts, ?_, .cons hfront hback⟩
    rw [List.mapM_cons, hwrite, hparts]
    rfl

lemma writes_list {write : α → Option Bytes} {fits : α → Prop} {form : Form α}
    (h : Writes write fits form) :
    Writes (writeList? write) (fun values => values.length < lengthBound ∧ ∀ value ∈ values, fits value)
      (Form.list form) := by
  rintro values ⟨hlength, hvalues⟩
  obtain ⟨word, hwrite, hword⟩ := writes_length values.length hlength
  obtain ⟨parts, hparts, hrow⟩ := writes_row h values hvalues
  refine ⟨word ++ parts.flatten, ?_, word, parts.flatten, hword, hrow, rfl⟩
  rw [writeList?, hwrite, hparts]
  rfl

lemma writes_entry :
    Writes writeEntry? (fun entry => entry.1.length < lengthBound ∧ entry.2.length < lengthBound)
      (Form.pair Form.block Form.block) := by
  rintro ⟨key, value⟩ ⟨hkey, hvalue⟩
  obtain ⟨front, hfront, hkeyForm⟩ := writes_bytes key hkey
  obtain ⟨back, hback, hvalueForm⟩ := writes_bytes value hvalue
  refine ⟨front ++ back, ?_, front, back, hkeyForm, hvalueForm, rfl⟩
  unfold writeEntry?
  rw [hfront, hback]
  rfl

lemma writes_topic : Writes (fun topic => some topic.bytes) (fun _ => True) Form.topic :=
  fun topic _ => ⟨topic.bytes, rfl, rfl⟩

lemma writes_logEntry :
    Writes writeLogEntry?
      (fun entry => entry.topics.length < lengthBound ∧ entry.data.length < lengthBound)
      Form.logEntry := by
  rintro ⟨topics, data⟩ ⟨htopics, hdata⟩
  obtain ⟨front, hfront, htopicsForm⟩ := writes_list writes_topic topics ⟨htopics, fun _ _ => trivial⟩
  obtain ⟨back, hback, hdataForm⟩ := writes_bytes data hdata
  refine ⟨front ++ back, ?_, front, back, htopicsForm, hdataForm, rfl⟩
  unfold writeLogEntry?
  rw [hfront, hback]
  rfl

lemma writes_state :
    Writes writeState? State.Fits fun state => Form.snapshot (state.storage.entries, state.logs) := by
  intro state fits
  obtain ⟨front, hfront, hentries⟩ := writes_list writes_entry state.storage.entries
    ⟨fits.entries, fits.entry⟩
  obtain ⟨back, hback, hlogs⟩ := writes_list writes_logEntry state.logs ⟨fits.logs, fits.log⟩
  refine ⟨front ++ back, ?_, front, back, hentries, hlogs, rfl⟩
  rw [writeState?, hfront, hback]
  rfl

end Binary

/-- An invocation from outside. -/
structure Call (ν : Type) where
  caller : Address
  arguments : List Bytes
  entry : Invocation ν

/-- What an invocation returns, and what the host shows afterwards. -/
structure Observation (ν : Type) where
  result : Except Fault (List Bytes)
  note : ν
  storage : Storage
  logs : List LogEntry
  lastSignal : Option Bytes
  writes : ℕ

namespace Host

variable {ν : Type}

/-- The observations of a run of invocations, in order. -/
def observations (host : Host) : List (Call ν) → List (Observation ν)
  | [] => []
  | call :: calls =>
    let ((result, note), after) := host.callNoted call.caller call.arguments call.entry
    ⟨result, note, after.storage, after.logs, after.lastSignal, after.writes⟩ ::
      after.observations calls

section Snapshots

variable {host : Host} (fits : host.state.Fits)
include fits

lemma snapshot_form : Form.snapshot (host.storage.entries, host.logs) host.snapshot := by
  obtain ⟨bytes, hwrite, hform⟩ := writes_state host.state fits
  rw [snapshot, hwrite]
  exact hform

lemma restore?_snapshot (other : Host) :
    other.restore? host.snapshot = some { other with state := host.state } := by
  rw [other.restore?_of_snapshot (snapshot_form fits), host.storage.ofList_entries]
  rfl

lemma snapshot_eq_iff {other : Host} (fits' : other.state.Fits) :
    host.snapshot = other.snapshot ↔ host.state = other.state := by
  constructor
  · intro h
    have hrestored := restore?_snapshot fits host
    rw [h, restore?_snapshot fits' host] at hrestored
    exact (congrArg Host.state (Option.some.inj hrestored)).symm
  · intro h
    rw [snapshot, snapshot, h]

end Snapshots

/-- An invocation starts anew: it meets the state of the host, and nothing that the last one left. -/
lemma callNoted_eq_of_state_eq {a b : Host} (hstate : a.state = b.state)
    (hrollback : a.rollback = b.rollback) (call : Call ν) :
    a.callNoted call.caller call.arguments call.entry =
      b.callNoted call.caller call.arguments call.entry := by
  have hstorage : a.storage = b.storage := congrArg State.storage hstate
  have henter : a.enter call.caller call.arguments = b.enter call.caller call.arguments := by
    simp only [enter, hstate, hrollback]
  unfold callNoted
  rw [henter, hstorage]

lemma observations_eq_of_state_eq {a b : Host} (hstate : a.state = b.state)
    (hrollback : a.rollback = b.rollback) (calls : List (Call ν)) :
    a.observations calls = b.observations calls := by
  cases calls with
  | nil => rfl
  | cons call calls =>
    unfold observations
    rw [callNoted_eq_of_state_eq hstate hrollback call]

end Host

/-- Hosts hold the same if every key does, and the log. -/
lemma Host.state_eq_iff {a b : Host} :
    a.state = b.state ↔ (∀ key, a.storage.get? key = b.storage.get? key) ∧ a.logs = b.logs := by
  constructor
  · intro h
    rw [storage, storage, logs, logs, h]
    exact ⟨fun _ => rfl, rfl⟩
  · rintro ⟨hkeys, hlogs⟩
    have hstorage : a.storage = b.storage := Storage.ext_get? hkeys
    calc
      a.state = ⟨a.storage, a.logs⟩ := rfl
      _ = ⟨b.storage, b.logs⟩ := by rw [hstorage, hlogs]
      _ = b.state := rfl

/-- Snapshots are faithful: any host that is restored from one has the storage and the log of the host
that was written. They are canonical: two hosts have one snapshot just if every key and the log hold
the same. And they can take the place of the host: after any run of invocations a fresh host restored
from the snapshot shows what the host itself shows, whatever its last invocation left over. -/
theorem snapshot_faithful {ν : Type} (host : Host) (fits : host.state.Fits) :
    (∀ other : Host, other.restore? host.snapshot = some { other with state := host.state }) ∧
      (∀ other : Host, other.state.Fits →
        (host.snapshot = other.snapshot ↔
          (∀ key, host.storage.get? key = other.storage.get? key) ∧ host.logs = other.logs)) ∧
      ∀ calls : List (Call ν), ∃ restored,
        (Host.fresh host.rollback).restore? host.snapshot = some restored ∧
          restored.observations calls = host.observations calls := by
  refine ⟨Host.restore?_snapshot fits, ?_, ?_⟩
  · intro other fits'
    rw [Host.snapshot_eq_iff fits fits', Host.state_eq_iff]
  · intro calls
    refine ⟨_, Host.restore?_snapshot fits (Host.fresh host.rollback), ?_⟩
    apply Host.observations_eq_of_state_eq
    · rfl
    · rfl

/-- A host with an empty value, a log entry, and the leftovers of an invocation. -/
theorem snapshot_faithful_of_leftovers :
    let host : Host := ⟨⟨.ofList [([2, 1], []), ([1], [0, 5])], [⟨[.zero], [42]⟩]⟩, true,
      ⟨.zero, [[1]], [[9]], [⟨[], [7]⟩], some [69], 3⟩⟩
    host.state.Fits ∧
      (∀ other : Host, other.restore? host.snapshot = some { other with state := host.state }) ∧
        (∀ other : Host, other.state.Fits →
          (host.snapshot = other.snapshot ↔
            (∀ key, host.storage.get? key = other.storage.get? key) ∧ host.logs = other.logs)) ∧
        ∀ calls : List (Call Unit), ∃ restored,
          (Host.fresh host.rollback).restore? host.snapshot = some restored ∧
            restored.observations calls = host.observations calls := by
  intro host
  have fits : host.state.Fits := ⟨by decide, by decide, by decide, by decide⟩
  exact ⟨fits, snapshot_faithful host fits⟩

end FixedSupply
