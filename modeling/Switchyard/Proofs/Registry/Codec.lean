import Switchyard.Registry.Codec
import Switchyard.Proofs.Calendar.Rfc3339
import Switchyard.Proofs.Json.Decoding

/-! Instances and registrations read back from JSON. All that is written of an instance is read
again, and the number of its registration, which is not written, is zero; a registration is read
as it was written. -/
namespace Switchyard

open Json (Decoder Refusal)
open Json.Decoder

theorem timestamp_text {t : Instant} (h : t.IsDated) : timestamp (.str t.text) = .ok t := by
  simp only [timestamp, converting, string, Instant.read?_text h]

theorem keyed_textMap (m : Keyed String) : keyed string (textMap m) = .ok m := by
  have hread : keyed string (textMap m) = .ok (m.map id) :=
    keyed_map Json.str fun _ _ => ⟨rfl, rfl⟩
  rw [hread]
  simp [Keyed.map]

theorem textMap_isExact (m : Keyed String) : (textMap m).isExact = true :=
  Json.allFieldsExact_iff.2 (List.forall_mem_map.2 fun _ _ => rfl)

theorem textMap_isWhole (m : Keyed String) (depth : Nat) :
    (textMap m).isWhole (depth + 1) = true :=
  Json.allFieldsWhole_iff.2 (List.forall_mem_map.2 fun _ _ => rfl)

theorem Status.decoder_toJson (lenient : Bool) (s : Status) :
    Status.decoder lenient s.toJson = .ok s := by
  simp only [Status.decoder, Status.toJson, choice, Status.named_name]

namespace Instance

/-- An instance as its JSON shows it. -/
def unnumbered (i : Instance) : Instance := { i with registration := 0 }

/-- What is written of an instance, field by field. -/
def fields (i : Instance) : List (String × Json) :=
  [("id", .str i.id), ("name", .str i.name), ("address", .str i.address),
    ("port", .nat i.port.toNat), ("status", i.status.toJson),
    ("last_seen", .str i.lastSeen.text), ("metadata", textMap i.metadata),
    ("consecutive_failures", .nat i.failures.toNat)]

theorem toJson_eq (i : Instance) : i.toJson = .obj i.fields := rfl

theorem toJson_isExact (i : Instance) : i.toJson.isExact = true := by
  have hport := i.port.toNat_lt
  have hfailures := i.failures.toNat_lt
  refine Json.allFieldsExact_iff.2 ?_
  simp only [List.forall_mem_cons]
  exact ⟨rfl, rfl, rfl, Json.nat_isExact (by omega), rfl, rfl, textMap_isExact i.metadata,
    Json.nat_isExact (by omega), nofun⟩

theorem toJson_isWhole (i : Instance) (depth : Nat) : i.toJson.isWhole (depth + 2) = true := by
  refine Json.allFieldsWhole_iff.2 ?_
  simp only [List.forall_mem_cons]
  exact ⟨rfl, rfl, rfl, rfl, rfl, rfl, textMap_isWhole i.metadata depth, rfl, nofun⟩

theorem fields_admitted (lenient : Bool) {i : Instance} (h : i.lastSeen.IsDated) :
    ∀ f ∈ i.fields, Admitted (slots lenient) f := by
  simp only [fields, List.forall_mem_cons]
  exact ⟨⟨rfl, _, rfl, rfl⟩, ⟨rfl, _, rfl, rfl⟩, ⟨rfl, _, rfl, rfl⟩,
    ⟨rfl, _, rfl, slot_admits (word16_nat i.port)⟩,
    ⟨rfl, _, rfl, slot_admits (Status.decoder_toJson lenient i.status)⟩,
    ⟨rfl, _, rfl, slot_admits (timestamp_text h)⟩,
    ⟨rfl, _, rfl, slot_admits (keyed_textMap i.metadata)⟩,
    ⟨rfl, _, rfl, slot_admits (word32_nat i.failures)⟩, nofun⟩

theorem build_fields (lenient : Bool) {i : Instance} (h : i.lastSeen.IsDated) :
    build lenient (givenFields i.fields) = .ok i.unnumbered := by
  have hid : required (givenFields i.fields) "id" string = .ok i.id :=
    required_of_given rfl rfl
  have hname : required (givenFields i.fields) "name" string = .ok i.name :=
    required_of_given rfl rfl
  have haddress : required (givenFields i.fields) "address" string = .ok i.address :=
    required_of_given rfl rfl
  have hport : required (givenFields i.fields) "port" word16 = .ok i.port :=
    required_of_given rfl (word16_nat i.port)
  have hstatus : required (givenFields i.fields) "status" (Status.decoder lenient) =
      .ok i.status :=
    required_of_given rfl (Status.decoder_toJson lenient i.status)
  have hseen : required (givenFields i.fields) "last_seen" timestamp = .ok i.lastSeen :=
    required_of_given rfl (timestamp_text h)
  have hmetadata : defaulted (givenFields i.fields) "metadata" (keyed string) ∅ =
      .ok i.metadata :=
    defaulted_of_given rfl (keyed_textMap i.metadata)
  have hfailures : defaulted (givenFields i.fields) "consecutive_failures" word32 0 =
      .ok i.failures :=
    defaulted_of_given rfl (word32_nat i.failures)
  simp only [build, hid, hname, haddress, hport, hstatus, hseen, hmetadata, hfailures]
  rfl

theorem decoder_toJson (lenient : Bool) {i : Instance} (h : i.lastSeen.IsDated) :
    decoder lenient i.toJson = .ok i.unnumbered := by
  have once : (i.fields.map (·.1)).Nodup := by simp [fields]
  rw [decoder, toJson_eq, record_of_admitted (fields_admitted lenient h) once,
    build_fields lenient h]

end Instance

namespace Registration

/-- What is written of a registration, field by field. -/
def fields (q : Registration) : List (String × Json) :=
  [("id", match q.id with | some id => .str id | none => .null), ("name", .str q.name),
    ("address", .str q.address), ("port", .nat q.port.toNat), ("metadata", textMap q.metadata)]

theorem toJson_eq (q : Registration) : q.toJson = .obj q.fields := rfl

theorem toJson_isExact (q : Registration) : q.toJson.isExact = true := by
  have hport := q.port.toNat_lt
  refine Json.allFieldsExact_iff.2 ?_
  simp only [List.forall_mem_cons]
  refine ⟨?_, rfl, rfl, Json.nat_isExact (by omega), textMap_isExact q.metadata, nofun⟩
  cases q.id <;> rfl

theorem option_id (q : Registration) :
    option string (match q.id with | some id => .str id | none => .null) = .ok q.id := by
  cases q.id <;> rfl

theorem fields_admitted (q : Registration) : ∀ f ∈ q.fields, Admitted slots f := by
  simp only [fields, List.forall_mem_cons]
  refine ⟨⟨?_, _, rfl, slot_admits q.option_id⟩, ⟨rfl, _, rfl, rfl⟩, ⟨rfl, _, rfl, rfl⟩,
    ⟨rfl, _, rfl, slot_admits (word16_nat q.port)⟩,
    ⟨rfl, _, rfl, slot_admits (keyed_textMap q.metadata)⟩, nofun⟩
  cases q.id <;> rfl

theorem build_fields (q : Registration) : build (givenFields q.fields) = .ok q := by
  have hid : defaulted (givenFields q.fields) "id" (option string) none = .ok q.id :=
    defaulted_of_given rfl q.option_id
  have hname : defaulted (givenFields q.fields) "name" string "" = .ok q.name :=
    defaulted_of_given rfl rfl
  have haddress : defaulted (givenFields q.fields) "address" string "" = .ok q.address :=
    defaulted_of_given rfl rfl
  have hport : defaulted (givenFields q.fields) "port" word16 0 = .ok q.port :=
    defaulted_of_given rfl (word16_nat q.port)
  have hmetadata : defaulted (givenFields q.fields) "metadata" (keyed string) ∅ =
      .ok q.metadata :=
    defaulted_of_given rfl (keyed_textMap q.metadata)
  simp only [build, hid, hname, haddress, hport, hmetadata]
  rfl

/-- A registration is read as it was written. -/
theorem decoder_toJson (q : Registration) : decoder q.toJson = .ok q := by
  have once : (q.fields.map (·.1)).Nodup := by simp [fields]
  rw [decoder, toJson_eq, record_of_admitted q.fields_admitted once, q.build_fields]

end Registration

end Switchyard
