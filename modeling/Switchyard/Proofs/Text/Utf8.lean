import Mathlib.Tactic.Common
import Switchyard.Text.Utf8

/-! Texts as bytes and back. Reading the bytes of a character, whatever follows them, gives the
character and the number of its bytes; so the bytes of a text are read as its characters. -/
namespace Switchyard.Text

/-! ### Characters of ASCII -/

theorem utf8EncodeChar_of_ascii {c : Char} (h : c.toNat < 128) :
    String.utf8EncodeChar c = [UInt8.ofNat c.toNat] := by
  unfold String.utf8EncodeChar
  exact if_pos (Nat.le_of_lt_succ h)

/-- Only a character of ASCII has a byte of ASCII, which is itself. -/
theorem ascii_of_mem_utf8EncodeChar {c : Char} {b : UInt8} (h : b ∈ String.utf8EncodeChar c)
    (hb : b.toNat < 128) : c.toNat < 128 ∧ b = UInt8.ofNat c.toNat := by
  have hascii : c.val.toNat ≤ 127 := by
    by_contra hlarge
    unfold String.utf8EncodeChar at h
    rw [if_neg hlarge] at h
    -- the first byte and those that continue it have their highest bit set
    split at h
    · simp only [List.mem_cons, List.not_mem_nil, or_false] at h
      rcases h with rfl | rfl <;> rw [UInt8.toNat_ofNat'] at hb <;> omega
    · split at h
      · simp only [List.mem_cons, List.not_mem_nil, or_false] at h
        rcases h with rfl | rfl | rfl <;> rw [UInt8.toNat_ofNat'] at hb <;> omega
      · simp only [List.mem_cons, List.not_mem_nil, or_false] at h
        rcases h with rfl | rfl | rfl | rfl <;> rw [UInt8.toNat_ofNat'] at hb <;> omega
  have hlt : c.toNat < 128 := Nat.lt_succ_of_le hascii
  rw [utf8EncodeChar_of_ascii hlt] at h
  exact ⟨hlt, List.mem_singleton.1 h⟩

/-! ### Bytes by their numbers -/

theorem follow_ofNat {a : Nat} (h : a < 256) :
    follow (UInt8.ofNat a) =
      if a < 128 then some (0, 0, 0)
      else if a < 194 then none
      else if a < 224 then some (1, 0x80, 0xBF)
      else if a = 224 then some (2, 0xA0, 0xBF)
      else if a = 237 then some (2, 0x80, 0x9F)
      else if a < 240 then some (2, 0x80, 0xBF)
      else if a = 240 then some (3, 0x90, 0xBF)
      else if a < 244 then some (3, 0x80, 0xBF)
      else if a = 244 then some (3, 0x80, 0x8F)
      else none := by
  simp only [follow, UInt8.lt_iff_toNat_lt, ← UInt8.toNat_inj, UInt8.toNat_ofNat',
    UInt8.reduceToNat, Nat.reducePow, Nat.mod_eq_of_lt h]

/-- A byte that continues a character. -/
def isTail (b : UInt8) : Bool := 0x80 ≤ b && b ≤ 0xBF

theorem tailOf_of_tails {tail : Bytes} (h : ∀ b ∈ tail, isTail b = true) (rest : Bytes) :
    tailOf tail.length 0x80 0xBF (tail ++ rest) = tail := by
  induction tail with
  | nil =>
    cases rest <;> rfl
  | cons b tail ih =>
    obtain ⟨hb, htail⟩ := List.forall_mem_cons.1 h
    rw [isTail, Bool.and_eq_true, decide_eq_true_eq, decide_eq_true_eq] at hb
    rw [List.length_cons, List.cons_append, tailOf, if_pos hb, ih htail]

/-- The bytes that continue a character, of which the first may have a range of its own. -/
theorem tailOf_cons {low high b : UInt8} {tail : Bytes} (hb : low ≤ b ∧ b ≤ high)
    (h : ∀ b ∈ tail, isTail b = true) (rest : Bytes) :
    tailOf (tail.length + 1) low high (b :: tail ++ rest) = b :: tail := by
  rw [List.cons_append, tailOf, if_pos hb, tailOf_of_tails h]

/-- The byte that continues a character with six bits. -/
def sixBits (n : Nat) : UInt8 := UInt8.ofNat (n % 64 + 128)

theorem toNat_sixBits (n : Nat) : (sixBits n).toNat = n % 64 + 128 := by
  rw [sixBits, UInt8.toNat_ofNat']
  omega

theorem isTail_sixBits (n : Nat) : isTail (sixBits n) = true := by
  simp only [isTail, Bool.and_eq_true, decide_eq_true_eq, UInt8.le_iff_toNat_le, toNat_sixBits,
    UInt8.reduceToNat]
  omega

/-- That a leading byte takes `count` bytes, of which `b` may be the first. -/
def Leads (lead : UInt8) (count : Nat) (b : UInt8) : Prop :=
  ∃ low high, follow lead = some (count, low, high) ∧ low ≤ b ∧ b ≤ high

theorem firstChar_of_leads {c : Char} {lead b : UInt8} {tail : Bytes}
    (h : Leads lead (tail.length + 1) b) (htail : ∀ b ∈ tail, isTail b = true)
    (hpoint : codePoint lead (b :: tail) = c.toNat) (rest : Bytes) :
    firstChar lead (b :: tail ++ rest) = (some c, tail.length + 1) := by
  obtain ⟨low, high, hfollow, hb⟩ := h
  simp only [firstChar, hfollow, tailOf_cons hb htail, List.length_cons, if_true, hpoint,
    Char.ofNat_toNat]

theorem sixBits_bounds {n : Nat} (low high : Nat) (hlow : low ≤ n % 64 + 128)
    (hhigh : n % 64 + 128 ≤ high) (hmost : high < 256) :
    UInt8.ofNat low ≤ sixBits n ∧ sixBits n ≤ UInt8.ofNat high := by
  simp only [UInt8.le_iff_toNat_le, toNat_sixBits, UInt8.toNat_ofNat', Nat.reducePow,
    Nat.mod_eq_of_lt hmost, Nat.mod_eq_of_lt (Nat.lt_of_le_of_lt (Nat.le_trans hlow hhigh) hmost)]
  exact ⟨hlow, hhigh⟩

/-! ### Characters -/

variable {v : Nat}

theorem leads_two (h : 127 < v) (h' : v ≤ 2047) :
    Leads (UInt8.ofNat (v / 64 % 32 + 192)) 1 (sixBits v) := by
  refine ⟨_, _, ?_, sixBits_bounds 128 191 (by omega) (by omega) (by omega)⟩
  rw [follow_ofNat (by omega), if_neg (by omega), if_neg (by omega), if_pos (by omega)]
  rfl

theorem leads_three (h : 2047 < v) (h' : v ≤ 65535) (hvalid : v < 0xD800 ∨ 0xDFFF < v) :
    Leads (UInt8.ofNat (v / 4096 % 16 + 224)) 2 (sixBits (v / 64)) := by
  by_cases hfirst : v / 4096 = 0
  · refine ⟨_, _, ?_, sixBits_bounds 160 191 (by omega) (by omega) (by omega)⟩
    rw [follow_ofNat (by omega), if_neg (by omega), if_neg (by omega), if_neg (by omega),
      if_pos (by omega)]
    rfl
  · by_cases hlast : v / 4096 = 13
    · refine ⟨_, _, ?_, sixBits_bounds 128 159 (by omega) (by omega) (by omega)⟩
      rw [follow_ofNat (by omega), if_neg (by omega), if_neg (by omega), if_neg (by omega),
        if_neg (by omega), if_pos (by omega)]
      rfl
    · refine ⟨_, _, ?_, sixBits_bounds 128 191 (by omega) (by omega) (by omega)⟩
      rw [follow_ofNat (by omega), if_neg (by omega), if_neg (by omega), if_neg (by omega),
        if_neg (by omega), if_neg (by omega), if_pos (by omega)]
      rfl

theorem leads_four (h : 65535 < v) (h' : v < 0x110000) :
    Leads (UInt8.ofNat (v / 262144 % 8 + 240)) 3 (sixBits (v / 4096)) := by
  by_cases hfirst : v / 262144 = 0
  · refine ⟨_, _, ?_, sixBits_bounds 144 191 (by omega) (by omega) (by omega)⟩
    rw [follow_ofNat (by omega), if_neg (by omega), if_neg (by omega), if_neg (by omega),
      if_neg (by omega), if_neg (by omega), if_neg (by omega), if_pos (by omega)]
    rfl
  · by_cases hlast : v / 262144 = 4
    · refine ⟨_, _, ?_, sixBits_bounds 128 143 (by omega) (by omega) (by omega)⟩
      rw [follow_ofNat (by omega), if_neg (by omega), if_neg (by omega), if_neg (by omega),
        if_neg (by omega), if_neg (by omega), if_neg (by omega), if_neg (by omega),
        if_neg (by omega), if_pos (by omega)]
      rfl
    · refine ⟨_, _, ?_, sixBits_bounds 128 191 (by omega) (by omega) (by omega)⟩
      rw [follow_ofNat (by omega), if_neg (by omega), if_neg (by omega), if_neg (by omega),
        if_neg (by omega), if_neg (by omega), if_neg (by omega), if_neg (by omega),
        if_pos (by omega)]
      rfl

/-- The bytes of a character are read as that character, whatever follows them. -/
theorem firstChar_encode (c : Char) (rest : Bytes) :
    ∃ lead tail, String.utf8EncodeChar c = lead :: tail ∧
      firstChar lead (tail ++ rest) = (some c, tail.length) := by
  have hvalid : c.toNat < 0xD800 ∨ 0xDFFF < c.toNat ∧ c.toNat < 0x110000 := c.valid
  have hval : c.val.toNat = c.toNat := rfl
  unfold String.utf8EncodeChar
  simp only [hval]
  split
  · refine ⟨_, [], rfl, ?_⟩
    have hfollow : follow (UInt8.ofNat c.toNat) = some (0, 0, 0) := by
      rw [follow_ofNat (by omega), if_pos (by omega)]
    have hpoint : codePoint (UInt8.ofNat c.toNat) [] = c.toNat := by
      simp only [codePoint, List.length_nil, List.foldl_nil, UInt8.toNat_ofNat']
      omega
    cases rest <;>
      simp only [firstChar, hfollow, tailOf, List.length_nil, if_true, hpoint, Char.ofNat_toNat]
  · split
    · refine ⟨_, [sixBits c.toNat], rfl,
        firstChar_of_leads (leads_two (by omega) (by omega)) (by simp) ?_ rest⟩
      simp only [codePoint, List.length_cons, List.length_nil, List.foldl_cons, List.foldl_nil,
        toNat_sixBits, UInt8.toNat_ofNat']
      omega
    · split
      · refine ⟨_, [sixBits (c.toNat / 64), sixBits c.toNat], rfl,
          firstChar_of_leads (leads_three (by omega) (by omega) (by omega)) ?_ ?_ rest⟩
        · simp [isTail_sixBits]
        · simp only [codePoint, List.length_cons, List.length_nil, List.foldl_cons, List.foldl_nil,
            toNat_sixBits, UInt8.toNat_ofNat']
          omega
      · refine ⟨_, [sixBits (c.toNat / 4096), sixBits (c.toNat / 64), sixBits c.toNat], rfl,
          firstChar_of_leads (leads_four (by omega) (by omega)) ?_ ?_ rest⟩
        · simp [isTail_sixBits]
        · simp only [codePoint, List.length_cons, List.length_nil, List.foldl_cons, List.foldl_nil,
            toNat_sixBits, UInt8.toNat_ofNat']
          omega

theorem pieces_encode (c : Char) (rest : Bytes) :
    pieces (String.utf8EncodeChar c ++ rest) = some c :: pieces rest := by
  obtain ⟨lead, tail, hbytes, hfirst⟩ := firstChar_encode c rest
  rw [hbytes, List.cons_append, pieces, hfirst]
  simp only [List.drop_left]

theorem bytes_ofList (cs : List Char) :
    bytes (String.ofList cs) = cs.flatMap String.utf8EncodeChar := by
  simp [bytes, List.utf8Encode]

/-- The bytes of a text are read as its characters. -/
theorem pieces_bytes (s : String) : pieces (bytes s) = s.toList.map some := by
  obtain ⟨cs, rfl⟩ : ∃ cs, s = String.ofList cs := ⟨s.toList, String.ofList_toList.symm⟩
  rw [bytes_ofList, String.toList_ofList]
  induction cs with
  | nil => simp [pieces]
  | cons c cs ih => rw [List.flatMap_cons, pieces_encode, ih, List.map_cons]

end Switchyard.Text
