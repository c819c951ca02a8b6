import Switchyard.Proofs.Http.Authority

/-! A text as one segment of a path. Its percent-encoding has no slash and decodes to the text
itself, whichever characters of ASCII are left as they are, the sign of an escape and the slash
apart. -/
namespace Switchyard

namespace Text.Percent

/-! ### Bytes -/

theorem hexDigit?_hexDigit : ∀ n < 16,
    hexDigit? (hexDigit (UInt8.ofNat n)) = some (UInt8.ofNat n) := by
  decide

theorem decode_cons_of_ne {b : UInt8} (h : b ≠ 37) (rest : Bytes) :
    decode (b :: rest) = b :: decode rest := by
  rw [decode]
  exact fun a c more heq => absurd heq h

theorem decode_escape (b : UInt8) (rest : Bytes) :
    decode (escape b ++ rest) = b :: decode rest := by
  have hb := b.toNat_lt
  have hhigh : hexDigit? (hexDigit (b / 16)) = some (b / 16) := by
    have hdigit := hexDigit?_hexDigit (b.toNat / 16) (by omega)
    rwa [UInt8.ofNat_div (by omega) (by decide), UInt8.ofNat_toNat] at hdigit
  have hlow : hexDigit? (hexDigit (b % 16)) = some (b % 16) := by
    have hdigit := hexDigit?_hexDigit (b.toNat % 16) (by omega)
    rwa [UInt8.ofNat_mod (by omega) (by decide), UInt8.ofNat_toNat] at hdigit
  have hbyte : b / 16 * 16 + b % 16 = b := by
    rw [← UInt8.toNat_inj]
    simp only [UInt8.toNat_add, UInt8.toNat_mul, UInt8.toNat_div, UInt8.toNat_mod,
      UInt8.reduceToNat]
    omega
  simp only [escape, List.cons_append, List.nil_append, decode, hhigh, hlow]
  rw [hbyte]

theorem decode_encode {keeps : UInt8 → Bool} (h : keeps 37 = false) (bs : Bytes) :
    decode (encode keeps bs) = bs := by
  induction bs with
  | nil => rfl
  | cons b bs ih =>
    have hcons : encode keeps (b :: bs) =
        (if keeps b then [b] else escape b) ++ encode keeps bs := List.flatMap_cons
    rw [hcons]
    split
    · rename_i hkeeps
      have hne : b ≠ 37 := by
        rintro rfl
        cases h.symm.trans hkeeps
      rw [List.singleton_append, decode_cons_of_ne hne, ih]
    · rw [decode_escape, ih]

end Text.Percent

namespace Http.Url

/-- The bytes that may stand in a segment as they are: some of ASCII, without the sign of an
escape and the slash. -/
structure IsSegmentSet (keeps : UInt8 → Bool) : Prop where
  ascii : ∀ b, 128 ≤ b → keeps b = false
  sign : keeps 37 = false
  slash : keeps 47 = false

variable {keeps : UInt8 → Bool}

theorem toNat_ofNat_byte (b : UInt8) : (Char.ofNat b.toNat).toNat = b.toNat := by
  have hb := b.toNat_lt
  have hvalid : b.toNat.isValidChar := .inl (by omega)
  rw [Char.ofNat, dif_pos hvalid]
  rfl

theorem ascii_of_mem_encode (h : ∀ b, 128 ≤ b → keeps b = false) {bs : Bytes} {b : UInt8}
    (hb : b ∈ Text.Percent.encode keeps bs) : b.toNat < 128 := by
  obtain ⟨x, -, hb⟩ := List.mem_flatMap.1 hb
  split at hb
  · rename_i hkeeps
    rw [List.mem_singleton.1 hb]
    by_contra hlarge
    rw [h x (UInt8.le_iff_toNat_le.2 (Nat.le_of_not_lt hlarge))] at hkeeps
    cases hkeeps
  · have hdigits : escapeChars.all (·.toNat < 128) = true := by decide
    have hascii := List.all_eq_true.1 hdigits _ (escapeChars_of_mem_escape x b hb)
    rw [toNat_ofNat_byte] at hascii
    exact of_decide_eq_true hascii

/-- Bytes of ASCII as a text. -/
theorem bytes_ascii {bs : Bytes} (h : ∀ b ∈ bs, b.toNat < 128) :
    Text.bytes (String.ofList (bs.map fun b => Char.ofNat b.toNat)) = bs := by
  rw [Text.bytes_ofList, List.flatMap_map]
  induction bs with
  | nil => rfl
  | cons b bs ih =>
    obtain ⟨hb, hbs⟩ := List.forall_mem_cons.1 h
    have hchar : String.utf8EncodeChar (Char.ofNat b.toNat) = [b] := by
      rw [Text.utf8EncodeChar_of_ascii (by rwa [toNat_ofNat_byte]), toNat_ofNat_byte,
        UInt8.ofNat_toNat]
    rw [List.flatMap_cons, hchar, ih hbs]
    rfl

namespace IsSegmentSet

variable (h : IsSegmentSet keeps) (s : String)

include h in
theorem decodeText?_encodeWith : Text.Percent.decodeText? (encodeWith keeps s.toList) = some s := by
  rw [Text.Percent.decodeText?, encodeWith, bytes_ascii fun b hb => ascii_of_mem_encode h.ascii hb,
    Text.Percent.decode_encode h.sign, String.ofList_toList, Text.ofBytes?_bytes]

include h in
theorem slash_not_mem : '/' ∉ (encodeWith keeps s.toList).toList := by
  intro hmem
  rw [toList_encodeWith] at hmem
  obtain ⟨c, -, hc⟩ := List.mem_flatMap.1 hmem
  rcases mem_encodedChar h.ascii hc with ⟨rfl, hkeeps⟩ | hescape
  · rw [keepsChar, Bool.and_eq_true] at hkeeps
    cases h.slash.symm.trans hkeeps.2
  · exact absurd hescape (by decide)

include h in
theorem encodeWith_ne_empty (hs : s ≠ "") : encodeWith keeps s.toList ≠ "" := by
  intro hempty
  have hdecoded := h.decodeText?_encodeWith s
  rw [hempty] at hdecoded
  exact hs (Option.some.inj (hdecoded.symm.trans rfl))

end IsSegmentSet

end Http.Url

end Switchyard
