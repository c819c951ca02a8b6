import Mathlib.Algebra.Ring.Nat
import Mathlib.Data.List.Basic
import Mathlib.Tactic.Common
import Switchyard.Http.Url
import Switchyard.Proofs.Text.Utf8

/-! The parts of a URL. A part keeps the characters of its set and percent-encodes the others;
a path is kept if all its characters are and none of its segments is made of dots, and it is
changed otherwise. -/
namespace Switchyard.Http

/-! ### Lists in pieces -/

section Pieces

variable {c d : Char} {cs : List Char}

theorem splitOn_cons_self (c : Char) (cs : List Char) : (c :: cs).splitOn c = [] :: cs.splitOn c :=
  List.splitOn_append_cons_self_of_not_mem List.not_mem_nil cs

theorem splitOn_cons_of_ne (h : d ≠ c) (cs : List Char) :
    ∃ s rest, cs.splitOn c = s :: rest ∧ (d :: cs).splitOn c = (d :: s) :: rest := by
  obtain ⟨s, rest, hcs⟩ := List.exists_cons_of_ne_nil (List.splitOn_ne_nil c cs)
  refine ⟨s, rest, hcs, ?_⟩
  rw [List.splitOn_cons_eq_if_modifyHead, if_neg (by simpa using h), hcs]
  rfl

/-- The pieces with the separator before each are the whole with the separator before it. -/
theorem flatMap_splitOn (c : Char) (cs : List Char) :
    ((cs.splitOn c).flatMap fun s => c :: s) = c :: cs := by
  induction cs with
  | nil => rfl
  | cons d cs ih =>
    by_cases h : d = c
    · subst h
      rw [splitOn_cons_self, List.flatMap_cons, ih]
      rfl
    · obtain ⟨s, rest, hsplit, hcons⟩ := splitOn_cons_of_ne h cs
      rw [hsplit, List.flatMap_cons, List.cons_append, List.cons.injEq] at ih
      rw [hcons, List.flatMap_cons, List.cons_append, List.cons_append, ih.2]

theorem mem_of_mem_splitOn {s : List Char} (hs : s ∈ cs.splitOn c) (hd : d ∈ s) : d ∈ c :: cs := by
  rw [← flatMap_splitOn]
  exact List.mem_flatMap.2 ⟨s, hs, List.mem_cons_of_mem _ hd⟩

theorem not_mem_of_mem_splitOn {s : List Char} (hs : s ∈ cs.splitOn c) : c ∉ s := by
  induction cs generalizing s with
  | nil =>
    rw [List.mem_singleton.1 hs]
    exact List.not_mem_nil
  | cons d cs ih =>
    by_cases h : d = c
    · subst h
      rw [splitOn_cons_self] at hs
      rcases List.mem_cons.1 hs with rfl | hs
      · exact List.not_mem_nil
      · exact ih hs
    · obtain ⟨first, rest, hsplit, hcons⟩ := splitOn_cons_of_ne h cs
      rw [hsplit] at ih
      rw [hcons] at hs
      rcases List.mem_cons.1 hs with rfl | hs
      · rw [List.mem_cons, not_or]
        exact ⟨Ne.symm h, ih List.mem_cons_self⟩
      · exact ih (List.mem_cons_of_mem _ hs)

end Pieces

namespace Url

/-! ### Parts -/

/-- Whether a part with some set keeps a character. -/
def keepsChar (keeps : UInt8 → Bool) (c : Char) : Bool :=
  c.toNat < 128 && keeps (UInt8.ofNat c.toNat)

/-- A kept character is one of ASCII, so what holds of all of these holds of it. -/
theorem of_keepsChar {keeps : UInt8 → Bool} {P : Char → Prop} {c : Char}
    (h : keepsChar keeps c = true)
    (all : ∀ n < 128, keepsChar keeps (Char.ofNat n) = true → P (Char.ofNat n)) : P c := by
  have hlt : c.toNat < 128 := of_decide_eq_true (Bool.and_eq_true_iff.1 h).1
  have hc := all c.toNat hlt
  rw [Char.ofNat_toNat] at hc
  exact hc h

/-- What a part has for a character. -/
def encodedChar (keeps : UInt8 → Bool) (c : Char) : List Char :=
  (Text.Percent.encode keeps (String.utf8EncodeChar c)).map fun b => Char.ofNat b.toNat

/-- The sign of an encoded byte and the digits after it. -/
def escapeChars : List Char := "%0123456789ABCDEF".toList

theorem toList_encodeWith (keeps : UInt8 → Bool) (cs : List Char) :
    (encodeWith keeps cs).toList = cs.flatMap (encodedChar keeps) := by
  rw [encodeWith, String.toList_ofList, Text.bytes_ofList, Text.Percent.encode, List.flatMap_assoc,
    List.map_flatMap]
  rfl

theorem encodedChar_of_keeps {keeps : UInt8 → Bool} {c : Char} (h : keepsChar keeps c = true) :
    encodedChar keeps c = [c] := by
  obtain ⟨hascii, hkeeps⟩ := Bool.and_eq_true_iff.1 h
  have hlt : c.toNat < 128 := of_decide_eq_true hascii
  rw [encodedChar, Text.utf8EncodeChar_of_ascii hlt, Text.Percent.encode,
    List.flatMap_singleton, if_pos hkeeps, List.map_singleton,
    UInt8.toNat_ofNat_of_lt' (Nat.lt_trans hlt (by decide)), Char.ofNat_toNat]

theorem escapeChars_of_mem_escape (b : UInt8) :
    ∀ x ∈ Text.Percent.escape b, Char.ofNat x.toNat ∈ escapeChars := by
  have hdigit : ∀ n < 16,
      Char.ofNat (Text.Percent.hexDigit (UInt8.ofNat n)).toNat ∈ escapeChars := by
    decide
  have hhigh := hdigit (b.toNat / 16) (by have := b.toNat_lt; omega)
  have hlow := hdigit (b.toNat % 16) (by omega)
  rw [UInt8.ofNat_div (by have := b.toNat_lt; omega) (by decide), UInt8.ofNat_toNat] at hhigh
  rw [UInt8.ofNat_mod (by have := b.toNat_lt; omega) (by decide), UInt8.ofNat_toNat] at hlow
  intro x hx
  simp only [Text.Percent.escape, List.mem_cons, List.not_mem_nil, or_false] at hx
  rcases hx with rfl | rfl | rfl
  · decide
  · exact hhigh
  · exact hlow

theorem mem_encodedChar {keeps : UInt8 → Bool} (hascii : ∀ b, 128 ≤ b → keeps b = false)
    {c d : Char} (h : d ∈ encodedChar keeps c) :
    d = c ∧ keepsChar keeps c = true ∨ d ∈ escapeChars := by
  obtain ⟨x, hx, rfl⟩ := List.mem_map.1 h
  obtain ⟨b, hb, hx⟩ := List.mem_flatMap.1 hx
  split at hx
  · rename_i hkeeps
    have hlt : b.toNat < 128 := by
      by_contra hlarge
      rw [hascii b (UInt8.le_iff_toNat_le.2 (Nat.le_of_not_lt hlarge))] at hkeeps
      cases hkeeps
    obtain ⟨hc, rfl⟩ := Text.ascii_of_mem_utf8EncodeChar hb hlt
    refine .inl ⟨?_, ?_⟩
    · rw [List.mem_singleton.1 hx, UInt8.toNat_ofNat_of_lt' (Nat.lt_trans hc (by decide)),
        Char.ofNat_toNat]
    · simp [keepsChar, hc, hkeeps]
  · exact .inr (escapeChars_of_mem_escape b x hx)

variable {keeps : UInt8 → Bool} {cs : List Char}

theorem encodeWith_of_keeps (h : ∀ c ∈ cs, keepsChar keeps c = true) :
    (encodeWith keeps cs).toList = cs := by
  rw [toList_encodeWith]
  induction cs with
  | nil => rfl
  | cons c cs ih =>
    rw [List.flatMap_cons, encodedChar_of_keeps (h c List.mem_cons_self),
      ih fun d hd => h d (List.mem_cons_of_mem _ hd)]
    rfl

/-- An encoded part has kept characters only. -/
theorem keeps_of_mem_encodeWith (hascii : ∀ b, 128 ≤ b → keeps b = false)
    (hescape : ∀ c ∈ escapeChars, keepsChar keeps c = true) {d : Char}
    (hd : d ∈ (encodeWith keeps cs).toList) :
    keepsChar keeps d = true ∧ (d ∈ cs ∨ d ∈ escapeChars) := by
  rw [toList_encodeWith] at hd
  obtain ⟨c, hc, hd⟩ := List.mem_flatMap.1 hd
  rcases mem_encodedChar hascii hd with ⟨rfl, hkeeps⟩ | hmem
  · exact ⟨hkeeps, .inl hc⟩
  · exact ⟨hescape d hmem, .inr hmem⟩

theorem isPlain_of_le {b : UInt8} (h : 128 ≤ b) (more : List Char) : isPlain b more = false := by
  have hlarge : ¬ b < 127 := by
    rw [UInt8.lt_iff_toNat_lt]
    have := UInt8.le_iff_toNat_le.1 h
    simp only [UInt8.reduceToNat] at this ⊢
    omega
  simp [isPlain, hlarge]

/-! ### Queries -/

/-- Whether a query keeps a character. -/
def isQueryChar (c : Char) : Bool := keepsChar (fun b => isPlain b ['\x27']) c

theorem encodeQuery_of_kept (h : ∀ c ∈ cs, isQueryChar c = true) : (encodeQuery cs).toList = cs :=
  encodeWith_of_keeps h

theorem isQueryChar_of_mem {c : Char} (h : c ∈ (encodeQuery cs).toList) : isQueryChar c = true :=
  -- all at once: a quantifier over characters could be decided by going through every one
  (keeps_of_mem_encodeWith (fun _ hb => isPlain_of_le hb _) (List.all_eq_true.1 (by decide)) h).1

/-! ### Paths -/

/-- Whether a path keeps a character; it turns a backslash into a slash. -/
def isPathChar (c : Char) : Bool :=
  keepsChar (fun b => isPlain b ['?', '\x60', '\x7b', '\x7d']) c && c != '\\'

theorem encodePath_of_kept (h : ∀ c ∈ cs, isPathChar c = true) : (encodePath cs).toList = cs :=
  encodeWith_of_keeps fun c hc => (Bool.and_eq_true_iff.1 (h c hc)).1

theorem isPathChar_of_mem {c : Char} (hcs : '\\' ∉ cs) (h : c ∈ (encodePath cs).toList) :
    isPathChar c = true := by
  obtain ⟨hkeeps, hmem⟩ :=
    keeps_of_mem_encodeWith (fun _ hb => isPlain_of_le hb _) (List.all_eq_true.1 (by decide)) h
  have hne : c ≠ '\\' := by
    rintro rfl
    rcases hmem with hmem | hmem
    · exact hcs hmem
    · exact absurd hmem (by decide)
  simp [isPathChar, hkeeps, hne]

theorem toList_joinPath (l : List (List Char)) :
    (joinPath l).toList = l.reverse.flatMap fun s => '/' :: (encodePath s).toList := by
  have hfold (path : String) (l : List (List Char)) :
      (l.foldl (fun path s => path ++ "/" ++ encodePath s) path).toList =
        path.toList ++ l.flatMap fun s => '/' :: (encodePath s).toList := by
    induction l generalizing path with
    | nil => simp
    | cons s l ih => simp [ih]
  exact hfold "" l.reverse

theorem mem_resolve {s : List Char} (done segs : List (List Char)) (h : s ∈ resolve done segs) :
    s = [] ∨ s ∈ done ∨ s ∈ segs := by
  have htail (l : List (List Char)) (hs : s ∈ l.tail) : s ∈ l := List.mem_of_mem_tail hs
  fun_induction resolve done segs <;> grind

/-- The length of the path of some segments. -/
def extent (l : List (List Char)) : Nat := (l.map fun s => s.length + 1).sum

theorem extent_cons (s : List Char) (l : List (List Char)) :
    extent (s :: l) = s.length + 1 + extent l := by
  rw [extent, extent, List.map_cons, List.sum_cons]

theorem extent_tail_le (l : List (List Char)) : extent l.tail ≤ extent l := by
  cases l with
  | nil => exact Nat.le_refl _
  | cons s l => rw [extent_cons, List.tail_cons]; omega

theorem extent_reverse (l : List (List Char)) : extent l.reverse = extent l := by
  rw [extent, extent, List.map_reverse, List.sum_reverse]

theorem dots_eq_zero {s : List Char} (hone : dots s ≠ 1) (htwo : dots s ≠ 2) : dots s = 0 := by
  unfold dots at hone htwo ⊢
  split <;> simp_all

theorem length_pos_of_dots {s : List Char} (h : dots s ≠ 0) : 0 < s.length := by
  rw [List.length_pos_iff]
  rintro rfl
  exact h (by decide)

/-- Resolving makes no path longer, and one with a segment of dots shorter. -/
theorem extent_resolve (done segs : List (List Char)) :
    extent (resolve done segs) ≤ extent done + extent segs ∧
      ((∃ s ∈ segs, dots s ≠ 0) → extent (resolve done segs) < extent done + extent segs) := by
  have hnil : extent [] = 0 := rfl
  fun_induction resolve done segs with
  | case1 done => simp [hnil]
  | case2 done last hone =>
    have := length_pos_of_dots (s := last) (by omega)
    simp only [extent_cons, hnil, List.length_nil]
    omega
  | case3 done last htwo =>
    have := length_pos_of_dots (s := last) (by omega)
    have := extent_tail_le done
    simp only [extent_cons, hnil, List.length_nil]
    omega
  | case4 done last hone htwo =>
    have hplain : dots last = 0 := dots_eq_zero hone htwo
    simp only [extent_cons, hnil, List.mem_singleton, exists_eq_left, hplain]
    omega
  | case5 done s rest _ hone ih =>
    rw [extent_cons]
    omega
  | case6 done s rest _ htwo ih =>
    have := extent_tail_le done
    rw [extent_cons]
    omega
  | case7 done s rest _ hone htwo ih =>
    have hplain : dots s = 0 := dots_eq_zero hone htwo
    have hlater (h : ∃ t ∈ s :: rest, dots t ≠ 0) : ∃ t ∈ rest, dots t ≠ 0 := by
      obtain ⟨t, ht, hne⟩ := h
      rcases List.mem_cons.1 ht with rfl | ht
      · exact absurd hplain hne
      · exact ⟨t, ht, hne⟩
    rw [extent_cons] at ih ⊢
    refine ⟨by omega, fun h => ?_⟩
    have := ih.2 (hlater h)
    omega

theorem resolve_of_no_dots (done : List (List Char)) {segs : List (List Char)}
    (h : ∀ s ∈ segs, dots s = 0) : resolve done segs = segs.reverse ++ done := by
  fun_induction resolve done segs <;> grind

/-! ### What is read as a path -/

theorem no_backslash_segments {s : List Char} (hs : s ∈ segments cs) : '\\' ∉ s := by
  intro hmem
  rcases List.mem_cons.1 (mem_of_mem_splitOn hs hmem) with heq | hmem
  · cases heq
  · obtain ⟨c, -, hc⟩ := List.mem_map.1 hmem
    split at hc
    · cases hc
    · rename_i hne
      exact hne hc

theorem segments_of_kept (h : ∀ c ∈ cs, isPathChar c = true) :
    segments cs = cs.splitOn '/' := by
  have hsame : (cs.map fun c => if c = '\\' then '/' else c) = cs := by
    conv_rhs => rw [← List.map_id cs]
    refine List.map_congr_left fun c hc => if_neg ?_
    rintro rfl
    exact absurd (h _ hc) (by decide)
  rw [segments, hsame]

/-- Whatever is read as a path, it has kept characters only. -/
theorem isPathChar_of_mem_readRest {c : Char} (h : c ∈ (readRest [] cs).1.toList) :
    isPathChar c = true := by
  rw [readRest, toList_joinPath] at h
  obtain ⟨s, hs, hc⟩ := List.mem_flatMap.1 h
  rcases List.mem_cons.1 hc with rfl | hc
  · decide
  · refine isPathChar_of_mem ?_ hc
    rcases mem_resolve _ _ (List.mem_reverse.1 hs) with rfl | hs | hs
    · exact List.not_mem_nil
    · cases hs
    · exact no_backslash_segments hs

/-- A path of kept characters is read as it is just when it has no segment of dots. -/
theorem joinPath_resolve_iff (h : ∀ c ∈ cs, isPathChar c = true) :
    (joinPath (resolve [] (segments cs))).toList = '/' :: cs ↔
      ∀ s ∈ cs.splitOn '/', dots s = 0 := by
  have hkept {s : List Char} (hs : s ∈ resolve [] (cs.splitOn '/')) :
      (encodePath s).toList = s := by
    refine encodePath_of_kept fun c hc => ?_
    rcases mem_resolve _ _ hs with rfl | hs | hs
    · cases hc
    · cases hs
    · rcases List.mem_cons.1 (mem_of_mem_splitOn hs hc) with rfl | hmem
      · decide
      · exact h c hmem
  have hpath : (joinPath (resolve [] (segments cs))).toList =
      (resolve [] (cs.splitOn '/')).reverse.flatMap fun s => '/' :: s := by
    rw [segments_of_kept h, toList_joinPath]
    refine List.flatMap_congr fun s hs => ?_
    rw [hkept (List.mem_reverse.1 hs)]
  have hlength (l : List (List Char)) : (l.flatMap fun s => '/' :: s).length = extent l := by
    rw [List.length_flatMap]
    rfl
  rw [hpath, ← flatMap_splitOn]
  constructor
  · intro heq
    by_contra hdots
    simp only [not_forall, exists_prop] at hdots
    have hlt := (extent_resolve [] (cs.splitOn '/')).2 hdots
    have hsame := congrArg List.length heq
    have hnil : extent [] = 0 := rfl
    rw [hlength, hlength, extent_reverse] at hsame
    omega
  · intro hplain
    rw [resolve_of_no_dots [] hplain, List.append_nil, List.reverse_reverse]

end Url

end Switchyard.Http
