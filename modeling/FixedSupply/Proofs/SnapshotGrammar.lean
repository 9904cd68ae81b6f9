import FixedSupply.Proofs.BinaryForms
import FixedSupply.Proofs.StorageContents

/-!
# What a host accepts as a snapshot

A host is restored from the byte strings of one grammar and from no others: a list of pairs, in any
order and with repetitions, and a list of log entries. A byte string outside the grammar changes
nothing, and so does every proper beginning and every continuation of a snapshot.
-/

namespace FixedSupply

open Binary

namespace Host

/-- The host once bytes were offered to it as a snapshot; bytes that are none leave it as it was. -/
def offered (host : Host) (bytes : Bytes) : Host :=
  (host.restore? bytes).getD host

variable (host : Host) {bytes : Bytes}

lemma restore?_of_snapshot {pairs : List (Bytes × Bytes)} {logs : List LogEntry}
    (h : Form.snapshot (pairs, logs) bytes) :
    host.restore? bytes = some { host with state := ⟨.ofList pairs, logs⟩ } := by
  have hdecode : decode Binary.state bytes = .ok (State.mk (.ofList pairs) logs) :=
    (reads_state.decode_eq_ok_iff bytes _).mpr ⟨(pairs, logs), h, rfl⟩
  rw [restore?, hdecode]

lemma exists_snapshot_of_restore? (h : (host.restore? bytes).isSome) :
    ∃ pairs logs, Form.snapshot (pairs, logs) bytes := by
  cases hdecode : decode Binary.state bytes with
  | error flaw =>
    rw [restore?, hdecode] at h
    exact absurd h (by simp)
  | ok state =>
    obtain ⟨⟨pairs, logs⟩, hform, -⟩ := (reads_state.decode_eq_ok_iff bytes state).mp hdecode
    exact ⟨pairs, logs, hform⟩

lemma restore?_isSome_iff :
    (host.restore? bytes).isSome ↔ ∃ pairs logs, Form.snapshot (pairs, logs) bytes := by
  constructor
  · exact host.exists_snapshot_of_restore?
  · rintro ⟨pairs, logs, h⟩
    rw [host.restore?_of_snapshot h]
    rfl

/-- No snapshot goes on after another one. -/
lemma eq_of_restore?_of_isPrefix {other : Host} {longer : Bytes}
    (h : (host.restore? bytes).isSome) (hlonger : (other.restore? longer).isSome)
    (hbegins : bytes <+: longer) : bytes = longer := by
  obtain ⟨pairs, logs, hform⟩ := host.exists_snapshot_of_restore? h
  obtain ⟨pairs', logs', hform'⟩ := other.exists_snapshot_of_restore? hlonger
  exact (reads_state.eq_of_isPrefix ⟨(pairs, logs), hform, rfl⟩ ⟨(pairs', logs'), hform', rfl⟩
    hbegins).1

end Host

/-- A host accepts the byte strings of the grammar of snapshots, and those only. Of one that it accepts
it takes the log and the storage, in which the last pair for a key wins; every other one leaves it as
it was. No proper beginning and no continuation of an accepted byte string is ever accepted. -/
theorem restore_all_or_nothing (host : Host) (bytes : Bytes) :
    ((host.restore? bytes).isSome ↔ ∃ pairs logs, Form.snapshot (pairs, logs) bytes) ∧
      (∀ pairs logs, Form.snapshot (pairs, logs) bytes →
        (∀ key, (host.offered bytes).storage.get? key =
            (pairs.filter fun pair => pair.1 == key).getLast?.map (·.2)) ∧
          (host.offered bytes).logs = logs ∧
          (host.offered bytes).rollback = host.rollback ∧
          (host.offered bytes).context = host.context) ∧
      ((¬∃ pairs logs, Form.snapshot (pairs, logs) bytes) → host.offered bytes = host) ∧
      ∀ (other : Host) (bytes' : Bytes), (host.restore? bytes).isSome →
        (other.restore? bytes').isSome → bytes <+: bytes' ∨ bytes' <+: bytes → bytes = bytes' := by
  refine ⟨host.restore?_isSome_iff, ?_, ?_, ?_⟩
  · intro pairs logs h
    have hoffered : host.offered bytes = { host with state := ⟨.ofList pairs, logs⟩ } := by
      rw [Host.offered, host.restore?_of_snapshot h, Option.getD_some]
    rw [hoffered]
    exact ⟨Storage.get?_ofList pairs, rfl, rfl, rfl⟩
  · intro h
    have hnone : host.restore? bytes = none := by
      rw [← Option.not_isSome_iff_eq_none, host.restore?_isSome_iff]
      exact h
    rw [Host.offered, hnone, Option.getD_none]
  · rintro other bytes' h h' (hbegins | hbegins)
    · exact host.eq_of_restore?_of_isPrefix h h' hbegins
    · exact (other.eq_of_restore?_of_isPrefix h' h hbegins).symm

end FixedSupply
