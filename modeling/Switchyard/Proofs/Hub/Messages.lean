import Switchyard.Hub.Message
import Switchyard.Proofs.Registry.Codec

/-! Messages to subscribers read back. A subscriber that reads the text of a message has the
message again, all but the numbers of the registrations, which stay inside the gateway; and
the text is the only one that the message it has read would be written as. -/
namespace Switchyard

open Json (Decoder Refusal)
open Json.Decoder

namespace ServerMessage

variable {services : Keyed Instance}

/-! ### Directories -/

theorem directoryJson_isExact (services : Keyed Instance) :
    (directoryJson services).isExact = true :=
  Json.allFieldsExact_iff.2 (List.forall_mem_map.2 fun e _ => e.2.toJson_isExact)

theorem directoryJson_isWhole (services : Keyed Instance) (depth : Nat) :
    (directoryJson services).isWhole (depth + 3) = true :=
  Json.allFieldsWhole_iff.2 (List.forall_mem_map.2 fun e _ => e.2.toJson_isWhole depth)

theorem directory_directoryJson (h : ∀ i ∈ services.values, i.lastSeen.IsDated) :
    directory (directoryJson services) = .ok (services.map Instance.unnumbered) :=
  keyed_map Instance.toJson fun _ he =>
    ⟨rfl, Instance.decoder_toJson true (h _ (List.mem_map_of_mem he))⟩

/-! ### Messages -/

/-- The instants that a message shows. -/
def instants : ServerMessage → List Instant
  | serviceList services => services.values.map (·.lastSeen)
  | serviceUpdate services timestamp => timestamp :: services.values.map (·.lastSeen)
  | pong timestamp => [timestamp]

/-- A message as its text shows it. -/
def unnumbered : ServerMessage → ServerMessage
  | serviceList services => serviceList (services.map Instance.unnumbered)
  | serviceUpdate services timestamp =>
    serviceUpdate (services.map Instance.unnumbered) timestamp
  | pong timestamp => pong timestamp

theorem directoryJson_unnumbered (services : Keyed Instance) :
    directoryJson (services.map Instance.unnumbered) = directoryJson services := by
  simp only [directoryJson, Keyed.map, List.map_map]
  rfl

theorem toJson_unnumbered (m : ServerMessage) : m.unnumbered.toJson = m.toJson := by
  cases m with
  | serviceList services => simp only [toJson, unnumbered, directoryJson_unnumbered, kind]
  | serviceUpdate services timestamp =>
    simp only [toJson, unnumbered, directoryJson_unnumbered, kind]
  | pong timestamp => rfl

/-- What is written of a message after its tag. -/
def content : ServerMessage → List (String × Json)
  | serviceList services => [("services", directoryJson services)]
  | serviceUpdate services timestamp =>
    [("services", directoryJson services), ("timestamp", .str timestamp.text)]
  | pong timestamp => [("timestamp", .str timestamp.text)]

theorem toJson_eq (m : ServerMessage) : m.toJson = .obj (("type", .str m.kind) :: m.content) := by
  cases m <;> rfl

theorem content_isExact (m : ServerMessage) : Json.allFieldsExact m.content = true := by
  refine Json.allFieldsExact_iff.2 ?_
  cases m <;> simp [content, directoryJson_isExact, Json.isExact]

theorem content_isWhole (m : ServerMessage) (depth : Nat) :
    Json.allFieldsWhole (depth + 3) m.content = true := by
  refine Json.allFieldsWhole_iff.2 ?_
  cases m <;> simp [content, directoryJson_isWhole, Json.isWhole]

theorem toJson_isExact (m : ServerMessage) : m.toJson.isExact = true := by
  rw [toJson_eq]
  exact m.content_isExact

/-- The decoder that the tag of a message names. -/
def contentDecoder : ServerMessage → Decoder ServerMessage
  | serviceList _ => listDecoder
  | serviceUpdate .. => updateDecoder
  | pong _ => pongDecoder

theorem contentDecoder_content {m : ServerMessage} (h : ∀ t ∈ m.instants, t.IsDated) :
    m.contentDecoder (.obj m.content) = .ok m.unnumbered := by
  cases m with
  | serviceList services =>
    have hservices := directory_directoryJson (List.forall_mem_map.1 h)
    have hadmitted :
        ∀ f ∈ (serviceList services).content, Admitted [slot "services" directory] f := by
      simp only [content, List.forall_mem_cons]
      exact ⟨⟨rfl, _, rfl, slot_admits hservices⟩, nofun⟩
    have hgiven : required (givenFields (serviceList services).content) "services" directory = _ :=
      required_of_given rfl hservices
    rw [contentDecoder, listDecoder, record_of_admitted hadmitted (by simp [content])]
    simp only [hgiven]
    rfl
  | serviceUpdate services timestamp =>
    obtain ⟨htime, hseen⟩ := List.forall_mem_cons.1 h
    have hservices := directory_directoryJson (List.forall_mem_map.1 hseen)
    have htimestamp := timestamp_text htime
    have hadmitted : ∀ f ∈ (serviceUpdate services timestamp).content,
        Admitted [slot "services" directory, slot "timestamp" Switchyard.timestamp] f := by
      simp only [content, List.forall_mem_cons]
      exact ⟨⟨rfl, _, rfl, slot_admits hservices⟩, ⟨rfl, _, rfl, slot_admits htimestamp⟩, nofun⟩
    have hgiven : required (givenFields (serviceUpdate services timestamp).content) "services"
        directory = _ := required_of_given rfl hservices
    have hmoment : required (givenFields (serviceUpdate services timestamp).content) "timestamp"
        Switchyard.timestamp = _ := required_of_given rfl htimestamp
    rw [contentDecoder, updateDecoder, record_of_admitted hadmitted (by simp [content])]
    simp only [hgiven, hmoment]
    rfl
  | pong timestamp =>
    have htimestamp := timestamp_text (h timestamp List.mem_cons_self)
    have hadmitted : ∀ f ∈ (pong timestamp).content,
        Admitted [slot "timestamp" Switchyard.timestamp] f := by
      simp only [content, List.forall_mem_cons]
      exact ⟨⟨rfl, _, rfl, slot_admits htimestamp⟩, nofun⟩
    have hmoment : required (givenFields (pong timestamp).content) "timestamp"
        Switchyard.timestamp = _ := required_of_given rfl htimestamp
    rw [contentDecoder, pongDecoder, record_of_admitted hadmitted (by simp [content])]
    simp only [hmoment]
    rfl

theorem decoder_toJson {m : ServerMessage} (h : ∀ t ∈ m.instants, t.IsDated) :
    decoder m.toJson = .ok m.unnumbered := by
  have hothers : ∀ f ∈ m.content, f.1 ≠ "type" := by cases m <;> simp [content]
  have hcontent : decoder m.toJson = m.contentDecoder (.obj m.content) := by
    rw [toJson_eq]
    cases m <;> exact tagged_of_tag rfl hothers (content_isWhole _ _)
  rw [hcontent, contentDecoder_content h]

/-- Reading undoes writing, for the messages of the hub and for an instance by itself: what is
read is what was written, with the numbers of the registrations left out, and it is written in
the same way again. -/
theorem read_encode :
    (∀ m : ServerMessage, (∀ t ∈ m.instants, t.IsDated) →
      read decoder m.encode = .ok m.unnumbered ∧ m.unnumbered.encode = m.encode) ∧
    ∀ (lenient : Bool) (i : Instance), i.lastSeen.IsDated →
      read (Instance.decoder lenient) i.toJson.write = .ok i.unnumbered ∧
        i.unnumbered.toJson.write = i.toJson.write := by
  refine ⟨fun m h => ⟨?_, ?_⟩, fun lenient i h => ⟨?_, rfl⟩⟩
  · rw [encode, read_write decoder m.toJson_isExact, decoder_toJson h]
  · rw [encode, encode, toJson_unnumbered]
  · rw [read_write _ i.toJson_isExact, Instance.decoder_toJson lenient h]

/-- An instance with a quotation mark, a backslash, a control character and a character of two
surrogates in its texts, last seen in a leap second. -/
def oddInstance : Instance where
  id := "a\"b\\c"
  name := "\x01\n"
  address := "😀"
  port := 65535
  status := .unhealthy
  lastSeen := ⟨1483228799, 1250000000⟩
  metadata := Keyed.ofList [("type", "\u007f"), ("", "/")]
  failures := 4294967295
  registration := 7

theorem read_encode_odd :
    let m := serviceUpdate (Keyed.ofList [("other", oddInstance)]) ⟨253402300799, 999999999⟩
    (∀ t ∈ m.instants, t.IsDated) ∧ read decoder m.encode = .ok m.unnumbered ∧
      read (Instance.decoder false) oddInstance.toJson.write = .ok oddInstance.unnumbered := by
  intro m
  have hdated : ∀ t ∈ m.instants, t.IsDated := by decide
  exact ⟨hdated, (read_encode.1 m hdated).1, (read_encode.2 false oddInstance (by decide)).1⟩

end ServerMessage

end Switchyard
