import FixedSupply.Proofs.EventReplay

/-!
# Reading and writing log entries

A log entry records an event exactly if its topics are those of the event and its data is the amount, with
leading zeros or without. The first topic decides the kind, and with it how many topics there have to be.
-/

namespace FixedSupply

lemma EventKind.ofTopic?_eq_some_iff {topic : Topic} {kind : EventKind} :
    ofTopic? topic = some kind ↔ topic = kind.topic := by
  constructor
  · intro h
    have hfound := List.find?_some h
    exact (eq_of_beq hfound).symm
  · rintro rfl
    exact ofTopic?_topic kind

namespace Event

variable {topics : List Topic} {data : Bytes} {event : Event}

/-- The event is read from its own topics, with any data that has the value of its amount. -/
lemma ofLog?_topics (h : Amount.ofBytes data = event.amount) :
    ofLog? ⟨event.topics, data⟩ = some event := by
  cases event with
  | initialized owner supply =>
    obtain rfl : Amount.ofBytes data = supply := h
    simp [ofLog?, Event.topics, kind, addresses, EventKind.ofTopic?_topic]
  | transfer sender recipient amount =>
    obtain rfl : Amount.ofBytes data = amount := h
    simp [ofLog?, Event.topics, kind, addresses, EventKind.ofTopic?_topic]

/-- An entry that records an event has its topics and its amount. -/
lemma eq_of_ofLog? (h : ofLog? ⟨topics, data⟩ = some event) :
    topics = event.topics ∧ Amount.ofBytes data = event.amount := by
  cases topics with
  | nil => exact absurd h (by simp [ofLog?])
  | cons first rest =>
    unfold ofLog? at h
    dsimp only at h
    split at h
    · next owner hkind =>
      obtain rfl := Option.some.inj h
      exact ⟨congrArg (· :: [owner]) (EventKind.ofTopic?_eq_some_iff.mp hkind), rfl⟩
    · next sender recipient hkind =>
      obtain rfl := Option.some.inj h
      exact ⟨congrArg (· :: [sender, recipient]) (EventKind.ofTopic?_eq_some_iff.mp hkind), rfl⟩
    · exact absurd h (by simp)

theorem ofLog?_eq_some_iff :
    ofLog? ⟨topics, data⟩ = some event ↔ topics = event.topics ∧ Amount.ofBytes data = event.amount := by
  constructor
  · exact eq_of_ofLog?
  · rintro ⟨rfl, hdata⟩
    exact ofLog?_topics hdata

/-- Whether an entry records an event is decided by its first topic and by the number of its topics. -/
lemma isSome_ofLog?_iff :
    (ofLog? ⟨topics, data⟩).isSome ↔
      (topics.head? = some EventKind.initialized.topic ∧ topics.length = 2) ∨
        (topics.head? = some EventKind.transfer.topic ∧ topics.length = 3) := by
  rw [Option.isSome_iff_exists]
  constructor
  · rintro ⟨event, h⟩
    obtain ⟨rfl, -⟩ := eq_of_ofLog? h
    cases event with
    | initialized owner supply => exact .inl ⟨rfl, rfl⟩
    | transfer sender recipient amount => exact .inr ⟨rfl, rfl⟩
  · rintro (⟨hhead, hlength⟩ | ⟨hhead, hlength⟩)
    · obtain ⟨first, owner, rfl⟩ := List.length_eq_two.mp hlength
      obtain rfl : first = EventKind.initialized.topic := by simpa using hhead
      exact ⟨.initialized owner (Amount.ofBytes data), @ofLog?_topics data (.initialized owner _) rfl⟩
    · obtain ⟨first, sender, recipient, rfl⟩ := List.length_eq_three.mp hlength
      obtain rfl : first = EventKind.transfer.topic := by simpa using hhead
      exact ⟨.transfer sender recipient (Amount.ofBytes data),
        @ofLog?_topics data (.transfer sender recipient _) rfl⟩

/-- The event of an entry is written with the topics of the entry and without leading zeros in the data. -/
lemma toLog_of_ofLog? (h : ofLog? ⟨topics, data⟩ = some event) :
    event.toLog = ⟨topics, data.dropWhile (· == 0)⟩ := by
  obtain ⟨rfl, hdata⟩ := eq_of_ofLog? h
  rw [toLog, Event.data, ← hdata, Amount.toBytes_ofBytes]

/-- A log entry records an event if and only if it has the topics of the event and data with the value of its
amount. So every event is read back from its own entry, an entry with another first topic or another number
of topics records none, and an event that was read is written with the same topics and with the same data
but the leading zeros. -/
theorem log_codec :
    (∀ topics data event, ofLog? ⟨topics, data⟩ = some event ↔
      topics = event.topics ∧ Amount.ofBytes data = event.amount) ∧
      (∀ event : Event, ofLog? ⟨event.topics, event.data⟩ = some event) ∧
      (∀ topics data, (ofLog? ⟨topics, data⟩).isSome ↔
        (topics.head? = some EventKind.initialized.topic ∧ topics.length = 2) ∨
          (topics.head? = some EventKind.transfer.topic ∧ topics.length = 3)) ∧
      ∀ topics data event, ofLog? ⟨topics, data⟩ = some event →
        event.toLog = ⟨topics, data.dropWhile (· == 0)⟩ := by
  refine ⟨?_, ofLog?_toLog, ?_, ?_⟩
  · intro topics data event
    exact ofLog?_eq_some_iff
  · intro topics data
    exact isSome_ofLog?_iff
  · intro topics data event h
    exact toLog_of_ofLog? h

/-- A transfer of four hundred whose data has two zero bytes in front. -/
theorem log_codec_of_padded_data :
    let topics : List Topic := [EventKind.transfer.topic, .zero, .zero]
    ofLog? ⟨topics, [0, 0, 1, 144]⟩ = some (.transfer .zero .zero 400) ∧
      toLog (.transfer .zero .zero 400) = ⟨topics, [1, 144]⟩ := by
  intro topics
  have hread : ofLog? ⟨topics, [0, 0, 1, 144]⟩ = some (.transfer .zero .zero 400) :=
    (log_codec.1 topics [0, 0, 1, 144] (.transfer .zero .zero 400)).mpr ⟨rfl, rfl⟩
  exact ⟨hread, log_codec.2.2.2 topics [0, 0, 1, 144] _ hread⟩

end Event

end FixedSupply
