import Switchyard.Proofs.Http.UrlReading
import Switchyard.Proofs.Numeric.Digits

/-! Reading host and port. A text that names a host has no character that ends a host or means
something else in an authority, so behind it a colon and digits are read as the port, and there
is neither user nor password. -/
namespace Switchyard

/-! ### Decoded texts -/

namespace Text

theorem bytes_of_ofBytes? {bs : Bytes} {s : String} (h : ofBytes? bs = some s) : bytes s = bs := by
  unfold ofBytes? String.fromUTF8? at h
  split at h
  · cases h
    rfl
  · cases h

/-- Decoding keeps every byte that takes no part in an escape. -/
theorem Percent.mem_decode {b : UInt8} (hsign : b ≠ 37) (hdigit : hexDigit? b = none)
    {bs : Bytes} (h : b ∈ bs) : b ∈ decode bs := by
  have hne {d v : UInt8} (hd : hexDigit? d = some v) : b ≠ d := by
    rintro rfl
    cases hdigit.symm.trans hd
  fun_induction decode bs with
  | case1 => exact h
  | case2 a c rest high low hhigh hlow ih =>
    simp only [List.mem_cons, hsign, hne hhigh, hne hlow, false_or] at h
    exact List.mem_cons_of_mem _ (ih h)
  | case3 a c rest hplain ih =>
    exact List.mem_cons_of_mem _ (ih ((List.mem_cons.1 h).resolve_left hsign))
  | case4 d rest hplain ih =>
    rcases List.mem_cons.1 h with rfl | h
    · exact List.mem_cons_self
    · exact List.mem_cons_of_mem _ (ih h)

/-- A text without the sign of an escape is decoded to itself. -/
theorem Percent.decode_of_not_mem {bs : Bytes} (h : (37 : UInt8) ∉ bs) : decode bs = bs := by
  fun_induction decode bs with
  | case1 => rfl
  | case2 => exact absurd List.mem_cons_self h
  | case3 => exact absurd List.mem_cons_self h
  | case4 d rest hplain ih => rw [ih fun hmem => h (List.mem_cons_of_mem _ hmem)]

end Text

namespace Http

open Numeric

namespace Host

variable {names : Names} {cs host : List Char}

/-! ### Names -/

/-- Case is a matter of ASCII. -/
theorem toLower_of_large {c : Char} (h : ¬ c.toNat < 128) : c.toLower = c := by
  unfold Char.toLower
  rw [dif_neg]
  rintro ⟨-, hle⟩
  have hz : c.toNat ≤ 'Z'.toNat := hle
  exact h (Nat.lt_of_le_of_lt hz (by decide))

/-- A forbidden character takes no part in an escape, unless it is the sign of one. -/
theorem plain_of_isForbidden {c : Char} (h : isForbidden c = true) (hsign : c ≠ '%') :
    c.toNat < 128 ∧ c.toLower = c ∧ UInt8.ofNat c.toNat ≠ 37 ∧
      Text.Percent.hexDigit? (UInt8.ofNat c.toNat) = none := by
  have hlt : c.toNat < 128 := by
    simp only [isForbidden, Bool.or_eq_true, decide_eq_true_eq, List.contains_iff_mem,
      List.mem_cons, List.not_mem_nil, or_false] at h
    rcases h with (h | h) | h
    · omega
    · omega
    · rcases h with rfl | rfl | rfl | rfl | rfl | rfl | rfl | rfl | rfl | rfl | rfl | rfl | rfl <;>
        decide
  have all : ∀ n < 128, isForbidden (Char.ofNat n) = true → Char.ofNat n ≠ '%' →
      (Char.ofNat n).toLower = Char.ofNat n ∧ UInt8.ofNat n ≠ 37 ∧
        Text.Percent.hexDigit? (UInt8.ofNat n) = none := by
    decide
  have hc := all c.toNat hlt
  rw [Char.ofNat_toNat] at hc
  exact ⟨hlt, hc h hsign⟩

theorem mem_of_decodeText? {name : String}
    (h : Text.Percent.decodeText? (String.ofList cs) = some name) {c : Char} (hc : c ∈ cs)
    (hforbidden : isForbidden c = true) (hsign : c ≠ '%') : c ∈ name.toList := by
  obtain ⟨hlt, -, hbyte, hdigit⟩ := plain_of_isForbidden hforbidden hsign
  have hbytes : String.utf8EncodeChar c = [UInt8.ofNat c.toNat] := by
    unfold String.utf8EncodeChar
    exact if_pos (Nat.le_of_lt_succ hlt)
  have hgiven : UInt8.ofNat c.toNat ∈ Text.bytes (String.ofList cs) := by
    rw [Text.bytes_ofList]
    exact List.mem_flatMap.2 ⟨c, hc, hbytes ▸ List.mem_cons_self⟩
  have hdecoded : UInt8.ofNat c.toNat ∈ Text.bytes name := by
    rw [Text.bytes_of_ofBytes? h]
    exact Text.Percent.mem_decode hbyte hdigit hgiven
  rw [← String.ofList_toList (s := name), Text.bytes_ofList] at hdecoded
  obtain ⟨d, hd, hmem⟩ := List.mem_flatMap.1 hdecoded
  have hsmall : (UInt8.ofNat c.toNat).toNat = c.toNat :=
    UInt8.toNat_ofNat_of_lt' (Nat.lt_trans hlt (by decide))
  obtain ⟨hdlt, heq⟩ := Text.ascii_of_mem_utf8EncodeChar hmem (by rw [hsmall]; exact hlt)
  have hsame : c.toNat = d.toNat := by
    rw [← hsmall, heq, UInt8.toNat_ofNat_of_lt' (Nat.lt_trans hdlt (by decide))]
  rw [← Char.ofNat_toNat c, hsame, Char.ofNat_toNat]
  exact hd

/-- The case of a character does not decide whether it is forbidden. -/
theorem toLower_of_isForbidden {c : Char}
    (h : isForbidden c = true ∨ isForbidden c.toLower = true) :
    c.toLower = c := by
  by_cases hc : c.toNat < 128
  · have all : ∀ n < 128, isForbidden (Char.ofNat n) = true ∨
        isForbidden (Char.ofNat n).toLower = true → (Char.ofNat n).toLower = Char.ofNat n := by
      decide
    have hall := all c.toNat hc
    rw [Char.ofNat_toNat] at hall
    exact hall h
  · exact toLower_of_large hc

/-- A name that is not international has ASCII characters only. -/
theorem ascii_of_not_international (h : isInternational cs = false) : ∀ c ∈ cs, c.toNat ≤ 127 := by
  intro c hc
  have hany := List.any_eq_false.1 (Bool.or_eq_false_iff.1 h).1 c hc
  simpa using hany

/-- A text without forbidden characters is read in lower case, if it is no international name. -/
theorem parse?_ascii (hne : cs ≠ []) (hforbidden : ∀ c ∈ cs, isForbidden c = false)
    (hplain : isInternational cs = false) :
    parse? names cs =
      let name := cs.map Char.toLower
      if endsInNumber name then (ipv4? name).map ipv4Chars else some name := by
  have hascii := ascii_of_not_international hplain
  have hsign : (37 : UInt8) ∉ Text.bytes (String.ofList cs) := by
    rw [Text.bytes_ofList]
    intro hmem
    obtain ⟨c, hc, hmem⟩ := List.mem_flatMap.1 hmem
    obtain ⟨hlt, heq⟩ := Text.ascii_of_mem_utf8EncodeChar hmem (by decide)
    have hsame : c.toNat = 37 := by
      rw [← UInt8.toNat_ofNat_of_lt' (Nat.lt_trans hlt (by decide)), ← heq]
      rfl
    have hallowed := hforbidden c hc
    rw [← Char.ofNat_toNat c, hsame] at hallowed
    cases hallowed
  have hdecoded : Text.Percent.decodeText? (String.ofList cs) = some (String.ofList cs) := by
    rw [Text.Percent.decodeText?, Text.Percent.decode_of_not_mem hsign, Text.ofBytes?_bytes]
  have hgiven : cs.any isForbidden = false := by
    rw [List.any_eq_false]
    intro c hc
    rw [hforbidden c hc]
    nofun
  have hallowed : (cs.map Char.toLower).any
      (fun c => isForbidden c || decide (127 < c.toNat)) = false := by
    rw [List.any_eq_false]
    intro d hd
    obtain ⟨c, hc, rfl⟩ := List.mem_map.1 hd
    have hlower : isForbidden c.toLower = false := by
      by_contra hlower
      rw [Bool.not_eq_false] at hlower
      rw [toLower_of_isForbidden (.inr hlower), hforbidden c hc] at hlower
      cases hlower
    have hsmall : ¬ 127 < c.toLower.toNat := by
      have all : ∀ n < 128, ¬ 127 < (Char.ofNat n).toLower.toNat := by decide
      have hall := all c.toNat (Nat.lt_succ_of_le (hascii c hc))
      rwa [Char.ofNat_toNat] at hall
    simp [hlower, hsmall]
  have hread : parse? names cs = ofName? names cs := by
    unfold parse?
    split
    · exact absurd (hforbidden '[' List.mem_cons_self) (by decide)
    · rw [hdecoded, Option.bind_some, String.toList_ofList]
  have hname : (cs.map Char.toLower).isEmpty = false := by simpa using hne
  rw [hread, ofName?, if_neg (by rw [hgiven]; nofun), spelled?, if_neg (by rw [hplain]; nofun)]
  simp only [bind, Option.bind_some, hname, hallowed, Bool.or_self, Bool.false_eq_true, if_false]

/-! ### Numbers with dots -/

theorem not_mem_natDigits {c : Char} (h : isDigit c = false) (n : Nat) : c ∉ natDigits n := by
  intro hmem
  cases h.symm.trans (isDigit_of_mem_natDigits n c hmem)

theorem readIn?_of_ne_nil {base : Nat} (h : cs ≠ []) :
    readIn? base cs = cs.foldlM (fun n c => (digitIn? base c).map fun d => n * base + d) 0 := by
  cases cs with
  | nil => exact absurd rfl h
  | cons => rfl

theorem readIn?_natDigits (n : Nat) : readIn? 10 (natDigits n) = some n := by
  have hdigit : ∀ d < 10, digitIn? 10 (digitChar d) = some d := by decide
  induction n using tenth_induction with
  | small n h =>
    rw [natDigits_of_lt h]
    simp [readIn?, hdigit n h]
  | large n h ih =>
    rw [readIn?_of_ne_nil (natDigits_ne_nil _)] at ih ⊢
    rw [natDigits_of_le h, List.foldlM_append, ih]
    simp [hdigit (n % 10) (Nat.mod_lt _ (by decide))]
    omega

theorem ipv4Part?_natDigits (n : Nat) : ipv4Part? (natDigits n) = some n := by
  by_cases h : n = 0
  · subst h
    decide
  · have hhead := head?_natDigits h
    have hnumber := readIn?_natDigits n
    unfold ipv4Part?
    split
    · rename_i heq
      exact absurd heq (natDigits_ne_nil n)
    · rename_i heq
      rw [heq] at hhead
      exact absurd rfl hhead
    · rename_i heq
      rw [heq] at hhead
      exact absurd rfl hhead
    · exact hnumber

theorem labels_ipv4Chars (n : Nat) :
    labels (ipv4Chars n) = [natDigits (n / 16777216 % 256), natDigits (n / 65536 % 256),
      natDigits (n / 256 % 256), natDigits (n % 256)] := by
  have hdot (k : Nat) : '.' ∉ natDigits k := not_mem_natDigits (by decide) k
  have hsplit : (ipv4Chars n).splitOn '.' = [natDigits (n / 16777216 % 256),
      natDigits (n / 65536 % 256), natDigits (n / 256 % 256), natDigits (n % 256)] := by
    simp only [ipv4Chars, List.append_assoc, List.cons_append]
    rw [List.splitOn_append_cons_self_of_not_mem (hdot _),
      List.splitOn_append_cons_self_of_not_mem (hdot _),
      List.splitOn_append_cons_self_of_not_mem (hdot _), List.splitOn_eq_singleton (hdot _)]
  rw [labels, hsplit]
  simp [natDigits_ne_nil]

theorem ipv4?_ipv4Chars {n : Nat} (h : n < 4294967296) : ipv4? (ipv4Chars n) = some n := by
  have hparts : (labels (ipv4Chars n)).mapM ipv4Part? =
      some [n / 16777216 % 256, n / 65536 % 256, n / 256 % 256, n % 256] := by
    simp only [labels_ipv4Chars, List.mapM_cons, List.mapM_nil, ipv4Part?_natDigits]
    rfl
  have hlast : ¬ 256 ≤ n % 256 := by omega
  unfold ipv4?
  rw [hparts]
  simp [hlast]
  omega

theorem plain_of_mem_ipv4Chars (n : Nat) :
    ∀ c ∈ ipv4Chars n, isForbidden c = false ∧ c.toNat ≤ 127 ∧ c.toLower = c ∧ c ≠ 'x' := by
  intro c hc
  have hchar : c = '.' ∨ isDigit c = true := by
    simp only [ipv4Chars, List.mem_append, List.mem_cons] at hc
    have hdigit := fun k => isDigit_of_mem_natDigits k c
    rcases hc with ((hpart | hdot | hpart) | hdot | hpart) | hdot | hpart
    · exact .inr (hdigit _ hpart)
    · exact .inl hdot
    · exact .inr (hdigit _ hpart)
    · exact .inl hdot
    · exact .inr (hdigit _ hpart)
    · exact .inl hdot
    · exact .inr (hdigit _ hpart)
  rcases hchar with rfl | hdigit
  · decide
  · obtain ⟨d, hd, rfl⟩ := exists_digitChar hdigit
    have all : ∀ d < 10, isForbidden (digitChar d) = false ∧ (digitChar d).toNat ≤ 127 ∧
        (digitChar d).toLower = digitChar d ∧ digitChar d ≠ 'x' := by decide
    exact all d hd

theorem map_toLower_ipv4Chars (n : Nat) : (ipv4Chars n).map Char.toLower = ipv4Chars n := by
  conv_rhs => rw [← List.map_id (ipv4Chars n)]
  exact List.map_congr_left fun c hc => (plain_of_mem_ipv4Chars n c hc).2.2.1

theorem not_international_ipv4Chars (n : Nat) : isInternational (ipv4Chars n) = false := by
  rw [isInternational, Bool.or_eq_false_iff, List.any_eq_false, List.any_eq_false]
  refine ⟨fun c hc => ?_, fun l hl hmark => ?_⟩
  · have hascii := (plain_of_mem_ipv4Chars n c hc).2.1
    simpa using hascii
  · -- a mark would bring an `x`, which is neither a digit nor a dot
    obtain ⟨c, hc, hx⟩ : ∃ c ∈ l, c.toLower = 'x' :=
      List.mem_map.1 ((List.isPrefixOf_iff_prefix.1 hmark).subset List.mem_cons_self)
    rcases List.mem_cons.1 (mem_of_mem_splitOn hl hc) with rfl | hmem
    · cases hx
    · obtain ⟨-, -, hlower, hne⟩ := plain_of_mem_ipv4Chars n c hmem
      exact hne (hlower.symm.trans hx)

/-- An IPv4 address in its usual spelling names itself. -/
theorem parse?_ipv4Chars {n : Nat} (h : n < 4294967296) :
    parse? names (ipv4Chars n) = some (ipv4Chars n) := by
  have hnumber : endsInNumber (ipv4Chars n) = true := by
    have hdigits : (natDigits (n % 256)).all isDigit = true :=
      List.all_eq_true.2 (isDigit_of_mem_natDigits _)
    simp [endsInNumber, labels_ipv4Chars, hdigits, natDigits_ne_nil]
  rw [parse?_ascii (by simp [ipv4Chars]) (fun c hc => (plain_of_mem_ipv4Chars n c hc).1)
    (not_international_ipv4Chars n)]
  dsimp only
  rw [map_toLower_ipv4Chars, hnumber, if_pos rfl, ipv4?_ipv4Chars h, Option.map_some]

/-! ### Hosts without brackets -/

/-- What stands outside brackets is decoded before it is read as a name. -/
theorem ofName?_of_parse? (h : parse? names cs = some host) (hhead : cs.head? ≠ some '[') :
    ∃ name, Text.Percent.decodeText? (String.ofList cs) = some name ∧
      ofName? names name.toList = some host := by
  unfold parse? at h
  split at h
  · exact absurd rfl hhead
  · exact Option.bind_eq_some_iff.1 h

/-- The name of a host has no forbidden character, neither as it is given nor as it is spelled. -/
theorem unforbidden_of_ofName? (h : ofName? names cs = some host) :
    (∀ c ∈ cs, isForbidden c = false) ∧ ∀ c ∈ host, isForbidden c = false := by
  unfold ofName? at h
  split at h
  · cases h
  · rename_i hgiven
    refine ⟨fun c hc => ?_, ?_⟩
    · have := List.any_eq_false.1 (Bool.eq_false_iff.2 hgiven) c hc
      simpa using this
    · obtain ⟨name, -, h⟩ := Option.bind_eq_some_iff.1 h
      split at h
      · cases h
      · rename_i hallowed
        split at h
        · obtain ⟨n, -, rfl⟩ := Option.map_eq_some_iff.1 h
          exact fun c hc => (plain_of_mem_ipv4Chars n c hc).1
        · cases h
          rw [Bool.or_eq_true, not_or] at hallowed
          intro c hc
          have := List.any_eq_false.1 (Bool.eq_false_iff.2 hallowed.2) c hc
          simp only [Bool.or_eq_true, not_or] at this
          simpa using this.1

/-- A name has no forbidden character but the sign of an escape. -/
theorem eq_sign_of_isForbidden (h : parse? names cs = some host) (hhead : cs.head? ≠ some '[')
    {c : Char} (hc : c ∈ cs) (hforbidden : isForbidden c = true) : c = '%' := by
  by_contra hsign
  obtain ⟨name, hname, h⟩ := ofName?_of_parse? h hhead
  have hmem := mem_of_decodeText? hname hc hforbidden hsign
  cases hforbidden.symm.trans ((unforbidden_of_ofName? h).1 c hmem)

/-! ### Addresses in brackets -/

/-- Whether a character can stand in an IPv6 address. -/
def isGroupChar (c : Char) : Bool := (digitIn? 16 c).isSome || c = ':' || c = '.'

theorem isGroupChar_of_digitIn? {c : Char} (h : (digitIn? 16 c).isSome = true) :
    isGroupChar c = true := by
  simp [isGroupChar, h]

theorem isGroupChar_of_mem_hexDigits (n : Nat) : ∀ c ∈ hexDigits n, isGroupChar c = true := by
  have hcore (fuel n : Nat) (acc : List Char) (hacc : ∀ c ∈ acc, isGroupChar c = true) :
      ∀ c ∈ Nat.toDigitsCore 16 fuel n acc, isGroupChar c = true := by
    have hdigit : ∀ d < 16, isGroupChar (Nat.digitChar d) = true := by decide
    induction fuel generalizing n acc with
    | zero => exact hacc
    | succ fuel ih =>
      have hmore : ∀ c ∈ Nat.digitChar (n % 16) :: acc, isGroupChar c = true := by
        intro c hc
        rcases List.mem_cons.1 hc with rfl | hc
        · exact hdigit _ (Nat.mod_lt n (by decide))
        · exact hacc c hc
      rw [Nat.toDigitsCore]
      split
      · exact hmore
      · exact ih _ _ hmore
  exact hcore (n + 1) n [] nofun

theorem isGroupChar_of_mem_joinGroups (groups : List Nat) :
    ∀ c ∈ joinGroups groups, isGroupChar c = true := by
  fun_induction joinGroups groups with
  | case1 => nofun
  | case2 g => exact isGroupChar_of_mem_hexDigits g
  | case3 g rest hmore ih =>
    intro c hc
    rcases List.mem_append.1 hc with hc | hc
    · exact isGroupChar_of_mem_hexDigits g c hc
    · rcases List.mem_cons.1 hc with rfl | hc
      · decide
      · exact ih c hc

/-- An address of groups is written with the characters it is read from. -/
theorem isGroupChar_of_mem_ipv6Chars (groups : List Nat) :
    ∀ c ∈ ipv6Chars groups, isGroupChar c = true := by
  unfold ipv6Chars
  dsimp only
  split
  · exact isGroupChar_of_mem_joinGroups groups
  · intro c hc
    rcases List.mem_append.1 hc with hc | hc
    · exact isGroupChar_of_mem_joinGroups _ c hc
    · rcases List.mem_cons.1 hc with rfl | hc
      · decide
      · rcases List.mem_cons.1 hc with rfl | hc
        · decide
        · exact isGroupChar_of_mem_joinGroups _ c hc

theorem isGroupChar_of_toLower {c : Char} (h : isGroupChar c.toLower = true) :
    isGroupChar c = true := by
  by_cases hc : c.toNat < 128
  · have all : ∀ n < 128, isGroupChar (Char.ofNat n).toLower = true →
        isGroupChar (Char.ofNat n) = true := by decide
    have hall := all c.toNat hc
    rw [Char.ofNat_toNat] at hall
    exact hall h
  · rwa [toLower_of_large hc] at h

theorem digits_of_readIn? {base n : Nat} (h : readIn? base cs = some n) :
    ∀ c ∈ cs, (digitIn? base c).isSome = true := by
  cases cs with
  | nil => nofun
  | cons c cs =>
    have hall (cs : List Char) (start : Nat) (hcs : cs.foldlM
        (fun n c => (digitIn? base c).map fun d => n * base + d) start = some n) :
        ∀ c ∈ cs, (digitIn? base c).isSome = true := by
      induction cs generalizing start with
      | nil => nofun
      | cons c cs ih =>
        rw [List.foldlM_cons] at hcs
        obtain ⟨next, hnext, hcs⟩ := Option.bind_eq_some_iff.1 hcs
        obtain ⟨d, hd, -⟩ := Option.map_eq_some_iff.1 hnext
        intro x hx
        rcases List.mem_cons.1 hx with rfl | hx
        · rw [hd]
          rfl
        · exact ih next hcs x hx
    exact hall (c :: cs) 0 h

theorem isGroupChar_of_group? {n : Nat} (h : group? cs = some n) :
    ∀ c ∈ cs, isGroupChar c = true := by
  unfold group? at h
  split at h
  · cases h
  · exact fun c hc => isGroupChar_of_digitIn? (digits_of_readIn? h c hc)

theorem digits_of_readDigits {acc n : Nat} (h : readDigits acc cs = some n) :
    ∀ c ∈ cs, isDigit c = true := by
  induction cs generalizing acc with
  | nil => nofun
  | cons c cs ih =>
    unfold readDigits at h
    split at h
    · rename_i d hd
      intro x hx
      rcases List.mem_cons.1 hx with rfl | hx
      · rw [isDigit, hd]
        rfl
      · exact ih h x hx
    · cases h

theorem isGroupChar_of_isDigit {c : Char} (h : isDigit c = true) : isGroupChar c = true := by
  obtain ⟨d, hd, rfl⟩ := exists_digitChar h
  have all : ∀ d < 10, isGroupChar (digitChar d) = true := by decide
  exact all d hd

theorem exists_of_mapM {α β : Type} {f : α → Option β} {xs : List α} {ys : List β}
    (h : xs.mapM f = some ys) : ∀ x ∈ xs, ∃ y, f x = some y := by
  induction xs generalizing ys with
  | nil => nofun
  | cons x xs ih =>
    rw [List.mapM_cons] at h
    obtain ⟨y, hy, h⟩ := Option.bind_eq_some_iff.1 h
    obtain ⟨ys, hys, -⟩ := Option.bind_eq_some_iff.1 h
    intro z hz
    rcases List.mem_cons.1 hz with rfl | hz
    · exact ⟨y, hy⟩
    · exact ih hys z hz

theorem mem_cases_splitOn {c d : Char} (hd : d ∈ cs) : d = c ∨ ∃ s ∈ cs.splitOn c, d ∈ s := by
  have hwhole : d ∈ (cs.splitOn c).flatMap fun s => c :: s := by
    rw [flatMap_splitOn]
    exact List.mem_cons_of_mem c hd
  obtain ⟨s, hs, hd⟩ := List.mem_flatMap.1 hwhole
  exact (List.mem_cons.1 hd).imp_right fun hd => ⟨s, hs, hd⟩

theorem isGroupChar_of_dottedGroups? {groups : List Nat} (h : dottedGroups? cs = some groups) :
    ∀ c ∈ cs, isGroupChar c = true := by
  obtain ⟨parts, hparts, -⟩ := Option.bind_eq_some_iff.1 h
  intro c hc
  rcases mem_cases_splitOn (c := '.') hc with rfl | ⟨p, hp, hc⟩
  · decide
  · obtain ⟨n, hn⟩ := exists_of_mapM hparts p hp
    split at hn
    · cases hn
    · obtain ⟨hn, -⟩ := Option.filter_eq_some_iff.1 hn
      rw [readNat_of_ne_nil (List.ne_nil_of_mem hc)] at hn
      exact isGroupChar_of_isDigit (digits_of_readDigits hn c hc)

theorem isGroupChar_of_groups? {pieces : List (List Char)} {groups : List Nat}
    (h : groups? pieces = some groups) : ∀ p ∈ pieces, ∀ c ∈ p, isGroupChar c = true := by
  fun_induction groups? pieces generalizing groups with
  | case1 => nofun
  | case2 last hdot =>
    intro p hp
    rw [List.mem_singleton.1 hp]
    exact isGroupChar_of_dottedGroups? h
  | case3 last hplain =>
    intro p hp
    rw [List.mem_singleton.1 hp]
    obtain ⟨n, hn, -⟩ := Option.map_eq_some_iff.1 h
    exact isGroupChar_of_group? hn
  | case4 first rest hmore ih =>
    obtain ⟨n, hn, h⟩ := Option.bind_eq_some_iff.1 h
    obtain ⟨later, hlater, -⟩ := Option.bind_eq_some_iff.1 h
    intro p hp
    rcases List.mem_cons.1 hp with rfl | hp
    · exact isGroupChar_of_group? hn
    · exact ih hlater p hp

theorem isGroupChar_of_split {groups : List Nat} (h : groups? (cs.splitOn ':') = some groups) :
    ∀ c ∈ cs, isGroupChar c = true := by
  intro c hc
  rcases mem_cases_splitOn (c := ':') hc with rfl | ⟨p, hp, hc⟩
  · decide
  · exact isGroupChar_of_groups? h p hp c hc

theorem isGroupChar_of_sideGroups? {groups : List Nat} (h : sideGroups? cs = some groups) :
    ∀ c ∈ cs, isGroupChar c = true := by
  unfold sideGroups? at h
  split at h
  · rename_i hempty
    rw [List.isEmpty_iff.1 hempty]
    nofun
  · exact isGroupChar_of_split h

theorem splitGap_eq {left right : List Char} (h : splitGap cs = some (left, right)) :
    cs = left ++ ':' :: ':' :: right := by
  fun_induction splitGap cs generalizing left right with
  | case1 rest =>
    cases h
    rfl
  | case2 c rest hmore ih =>
    obtain ⟨⟨front, back⟩, hgap, heq⟩ := Option.map_eq_some_iff.1 h
    cases heq
    rw [ih hgap]
    rfl
  | case3 => cases h

theorem isGroupChar_of_ipv6? {groups : List Nat} (h : ipv6? cs = some groups) :
    ∀ c ∈ cs, isGroupChar c = true := by
  unfold ipv6? at h
  split at h
  · obtain ⟨all, hall, -⟩ := Option.bind_eq_some_iff.1 h
    exact isGroupChar_of_split hall
  · rename_i left right hgap
    obtain ⟨front, hfront, h⟩ := Option.bind_eq_some_iff.1 h
    obtain ⟨back, hback, -⟩ := Option.bind_eq_some_iff.1 h
    rw [splitGap_eq hgap]
    intro c hc
    rcases List.mem_append.1 hc with hc | hc
    · exact isGroupChar_of_sideGroups? hfront c hc
    · rcases List.mem_cons.1 hc with rfl | hc
      · decide
      · rcases List.mem_cons.1 hc with rfl | hc
        · decide
        · exact isGroupChar_of_sideGroups? hback c hc

/-- What starts with a bracket is an address of groups up to the other bracket. -/
theorem bracketed_of_parse? {rest : List Char} (h : parse? names ('[' :: rest) = some host) :
    ∃ inner groups, rest = inner ++ [']'] ∧ ipv6? inner = some groups ∧
      host = '[' :: ipv6Chars groups ++ [']'] := by
  unfold parse? at h
  split at h
  · rename_i more heq
    cases heq
    split at h
    · rename_i hlast
      obtain ⟨groups, hgroups, rfl⟩ := Option.map_eq_some_iff.1 h
      exact ⟨rest.dropLast, groups, (List.dropLast_append_getLast? _ hlast).symm, hgroups, rfl⟩
    · cases h
  · rename_i hother
    exact absurd rfl (hother rest)

theorem parse?_bracketed {groups : List Nat} (h : ipv6? cs = some groups) :
    parse? names ('[' :: cs ++ [']']) = some ('[' :: ipv6Chars groups ++ [']']) := by
  have hlast : (cs ++ [']']).getLast? = some ']' := List.getLast?_concat
  rw [List.cons_append, parse?]
  simp only [hlast, List.dropLast_concat, h, Option.map_some]

/-- An address of groups has a colon. -/
theorem colon_mem_of_ipv6? {groups : List Nat} (h : ipv6? cs = some groups) : ':' ∈ cs := by
  by_contra hnone
  have hgap : splitGap cs = none := by
    cases hgap : splitGap cs with
    | none => rfl
    | some p =>
      rw [splitGap_eq hgap] at hnone
      simp at hnone
  have hsplit : cs.splitOn ':' = [cs] := List.splitOn_eq_singleton hnone
  unfold ipv6? at h
  rw [hgap, hsplit] at h
  obtain ⟨all, hall, h⟩ := Option.bind_eq_some_iff.1 h
  have hlength : all.length ≤ 2 := by
    simp only [groups?] at hall
    split at hall
    · obtain ⟨parts, -, hall⟩ := Option.bind_eq_some_iff.1 hall
      split at hall
      · cases hall
        exact Nat.le_refl 2
      · cases hall
    · obtain ⟨g, -, rfl⟩ := Option.map_eq_some_iff.1 hall
      exact Nat.le_succ 1
  split at h
  · omega
  · cases h

end Host

/-! ### Authorities -/

namespace Url

variable {names : Host.Names} {cs host : List Char}

theorem splitPort_append {inside : Bool} (hbrackets : '[' ∉ cs ∧ ']' ∉ cs)
    (hcolon : inside = true ∨ ':' ∉ cs) (more : List Char) :
    splitPort inside (cs ++ more) =
      (cs ++ (splitPort inside more).1, (splitPort inside more).2) := by
  induction cs with
  | nil => rfl
  | cons c cs ih =>
    simp only [List.mem_cons, not_or] at hbrackets hcolon
    have hplain : ¬ (c = ':' ∧ (!inside) = true) := by
      rintro ⟨rfl, hinside⟩
      rcases hcolon with rfl | hcolon
      · cases hinside
      · exact hcolon.1 rfl
    have hsame : (if c = '[' then true else if c = ']' then false else inside) = inside := by
      rw [if_neg (Ne.symm hbrackets.1.1), if_neg (Ne.symm hbrackets.2.1)]
    simp only [List.cons_append, splitPort, if_neg hplain, hsame]
    rw [ih ⟨hbrackets.1.2, hbrackets.2.2⟩ (hcolon.imp_right And.right)]

/-- A text in front of a port: none of its characters ends an authority or a user, and the
first colon outside its brackets is the one behind it. -/
structure IsHostText (cs : List Char) : Prop where
  plain : ∀ c ∈ cs, isEdge c = false ∧ endsAuthority c = false
  nobody : '@' ∉ cs
  split : ∀ port, splitPort false (cs ++ ':' :: port) = (cs, port)

theorem edge_cases {c : Char} (h : ¬ (isEdge c = false ∧ endsAuthority c = false)) :
    c.toNat ≤ 32 ∨ c ∈ ['/', '\\', '?', '#'] := by
  by_contra hother
  simp only [List.mem_cons, List.not_mem_nil, or_false, not_or] at hother
  exact h (by simp [isEdge, endsAuthority, isSlash, hother])

theorem isForbidden_of_edge {c : Char} (h : ¬ (isEdge c = false ∧ endsAuthority c = false)) :
    Host.isForbidden c = true ∧ c ≠ '%' := by
  rcases edge_cases h with hlow | hmem
  · refine ⟨by simp [Host.isForbidden, hlow], ?_⟩
    rintro rfl
    exact absurd hlow (by decide)
  · simp only [List.mem_cons, List.not_mem_nil, or_false] at hmem
    rcases hmem with rfl | rfl | rfl | rfl <;> decide

theorem plain_of_isGroupChar {c : Char} (h : Host.isGroupChar c = true) :
    isEdge c = false ∧ endsAuthority c = false := by
  by_contra hplain
  rcases edge_cases hplain with hlow | hmem
  · have all : ∀ n < 33, Host.isGroupChar (Char.ofNat n) = false := by decide
    have hc := all c.toNat (Nat.lt_succ_of_le hlow)
    rw [Char.ofNat_toNat] at hc
    cases hc.symm.trans h
  · simp only [List.mem_cons, List.not_mem_nil, or_false] at hmem
    rcases hmem with rfl | rfl | rfl | rfl <;> exact absurd h (by decide)

/-- A text of groups in brackets stands in front of a port. -/
theorem isHostText_bracketed {inner : List Char} (hinner : ∀ c ∈ inner, Host.isGroupChar c = true) :
    IsHostText ('[' :: (inner ++ [']'])) := by
  have hnot {c : Char} (hc : Host.isGroupChar c = false) : c ∉ inner := by
    intro hmem
    cases hc.symm.trans (hinner c hmem)
  constructor
  · intro c hc
    rcases List.mem_cons.1 hc with rfl | hc
    · decide
    · rcases List.mem_append.1 hc with hc | hc
      · exact plain_of_isGroupChar (hinner c hc)
      · rw [List.mem_singleton.1 hc]
        decide
  · have hat : '@' ∉ inner := hnot (by decide)
    simp [hat]
  · intro port
    have hsplit := splitPort_append ⟨hnot (by decide), hnot (by decide)⟩ (.inl rfl)
      (']' :: ':' :: port)
    simp [splitPort, hsplit]

/-- A text without forbidden characters but the sign of an escape stands in front of a port. -/
theorem isHostText_unforbidden (h : ∀ c ∈ cs, Host.isForbidden c = true → c = '%') :
    IsHostText cs := by
  have hnot {c : Char} (hc : Host.isForbidden c = true) (hne : c ≠ '%') : c ∉ cs :=
    fun hmem => hne (h c hmem hc)
  constructor
  · intro c hc
    by_contra hedge
    obtain ⟨hforbidden, hne⟩ := isForbidden_of_edge hedge
    exact hnot hforbidden hne hc
  · exact hnot (by decide) (by decide)
  · intro port
    rw [splitPort_append ⟨hnot (by decide) (by decide), hnot (by decide) (by decide)⟩
      (.inr (hnot (by decide) (by decide)))]
    simp [splitPort]

/-- A text that names a host is one in front of a port. -/
theorem isHostText_of_parse? (h : Host.parse? names cs = some host) : IsHostText cs := by
  by_cases hhead : cs.head? = some '['
  · obtain ⟨rest, rfl⟩ := List.head?_eq_some_iff.1 hhead
    obtain ⟨inner, groups, rfl, hgroups, -⟩ := Host.bracketed_of_parse? h
    exact isHostText_bracketed (Host.isGroupChar_of_ipv6? hgroups)
  · exact isHostText_unforbidden fun c hc => Host.eq_sign_of_isForbidden h hhead hc

theorem port?_natDigits {n : Nat} (h : n ≤ 65535) (secure : Bool) :
    port? secure (natDigits n) = some n := by
  have hread : readNat (natDigits n) = some n := by
    rw [readNat_of_ne_nil (natDigits_ne_nil n), readDigits_natDigits]
  rw [port?, if_neg (by simp [natDigits_ne_nil]), hread, Option.filter_some,
    if_pos (by simpa using h)]

theorem port?_of_not_digit {c : Char} (hc : c ∈ cs) (hdigit : isDigit c = false) {secure : Bool} :
    port? secure cs = none := by
  have hne : cs ≠ [] := List.ne_nil_of_mem hc
  have hread : readNat cs = none := by
    rw [readNat_of_ne_nil hne]
    cases h : readDigits 0 cs with
    | none => rfl
    | some n => cases hdigit.symm.trans (Host.digits_of_readDigits h c hc)
  rw [port?, if_neg (by simpa using hne), hread]
  rfl

/-- A URL without a user has the host and the port that its authority is split into. -/
theorem IsAuthority.parse?_split {auth : List Char} (hauth : IsAuthority auth)
    (hnobody : '@' ∉ auth)
    (more : List Char) :
    parse? names (String.ofList (schemeChars ++ (auth ++ '/' :: more))) =
      (Host.parse? names (splitPort false auth).1).bind fun host =>
        (port? false (splitPort false auth).2).map fun port =>
          { host := String.ofList host, port, path := (readRest [] (cleanedEnd more)).1,
            query := (readRest [] (cleanedEnd more)).2 } := by
  have hat : auth.contains '@' = false := by simpa using hnobody
  have hfront : (auth ++ '/' :: cleanedEnd more).takeWhile (!endsAuthority ·) = auth := by
    rw [List.takeWhile_append_of_pos hauth.ends, List.takeWhile_cons_of_neg (by decide),
      List.append_nil]
  have hback : (auth ++ '/' :: cleanedEnd more).dropWhile (!endsAuthority ·) =
      '/' :: cleanedEnd more := by
    rw [List.dropWhile_append_of_pos hauth.ends, List.dropWhile_cons_of_neg (by decide)]
  have hends : (fun c => !(isSlash c || c = '?' || c = '#')) = (!endsAuthority ·) := rfl
  have huser : encodeUser [] = "" := by decide
  rw [hauth.parse?_eq, cleanedEnd_cons (by decide)]
  unfold readAuthority
  dsimp only
  rw [hends, hfront, hback, splitUser, if_neg (by rw [hat]; nofun)]
  dsimp only
  cases Host.parse? names (splitPort false auth).1 with
  | none => rfl
  | some host =>
    cases port? false (splitPort false auth).2 with
    | none => rfl
    | some port =>
      simp only [Option.getD_none, List.takeWhile_nil, List.dropWhile_nil, huser]
      rfl

theorem plain_of_mem_natDigits (port : Nat) :
    ∀ c ∈ natDigits port, isEdge c = false ∧ endsAuthority c = false ∧ c ≠ '@' := by
  intro c hc
  obtain ⟨d, hd, rfl⟩ := exists_digitChar (isDigit_of_mem_natDigits port c hc)
  have all : ∀ d < 10, isEdge (digitChar d) = false ∧ endsAuthority (digitChar d) = false ∧
      digitChar d ≠ '@' := by decide
  exact all d hd

/-- A text of plain characters with a port behind it is an authority. -/
theorem isAuthority_withPort (hplain : ∀ c ∈ cs, isEdge c = false ∧ endsAuthority c = false)
    (port : Nat) : IsAuthority (cs ++ ':' :: natDigits port) := by
  refine ⟨by simp, fun c hc => ?_⟩
  rcases List.mem_append.1 hc with hc | hc
  · exact hplain c hc
  · rcases List.mem_cons.1 hc with rfl | hc
    · decide
    · obtain ⟨hedge, hends, -⟩ := plain_of_mem_natDigits port c hc
      exact ⟨hedge, hends⟩

theorem nobody_withPort (hnobody : '@' ∉ cs) (port : Nat) :
    '@' ∉ cs ++ ':' :: natDigits port := by
  have hat : '@' ∉ natDigits port := fun hmem => (plain_of_mem_natDigits port _ hmem).2.2 rfl
  simp [hnobody, hat]

/-- With a text in front of the port the host is read from that text. -/
theorem IsHostText.parse?_eq (htext : IsHostText cs) {port : Nat} (hport : port ≤ 65535)
    (more : List Char) :
    parse? names (String.ofList (schemeChars ++ ((cs ++ ':' :: natDigits port) ++ '/' :: more))) =
      (Host.parse? names cs).map fun host =>
        { host := String.ofList host, port, path := (readRest [] (cleanedEnd more)).1,
          query := (readRest [] (cleanedEnd more)).2 } := by
  rw [(isAuthority_withPort htext.plain port).parse?_split (nobody_withPort htext.nobody port),
    htext.split, port?_natDigits hport]
  cases Host.parse? names cs <;> rfl

/-- An address of groups without its brackets gives no URL: the first of its colons is taken for
the one before the port. -/
theorem parse?_of_ipv6? {groups : List Nat} (h : Host.ipv6? cs = some groups) (port : Nat)
    (more : List Char) :
    parse? names (String.ofList (schemeChars ++ ((cs ++ ':' :: natDigits port) ++ '/' :: more))) =
      none := by
  have hgroup := Host.isGroupChar_of_ipv6? h
  have hnot {c : Char} (hc : Host.isGroupChar c = false) : c ∉ cs := by
    intro hmem
    cases hc.symm.trans (hgroup c hmem)
  have hplain : ∀ c ∈ cs, isEdge c = false ∧ endsAuthority c = false := fun c hc =>
    plain_of_isGroupChar (hgroup c hc)
  rw [(isAuthority_withPort hplain port).parse?_split (nobody_withPort (hnot (by decide)) port)]
  obtain ⟨front, back, rfl, hfirst⟩ := List.eq_append_cons_of_mem (Host.colon_mem_of_ipv6? h)
  have hbrackets : '[' ∉ front ∧ ']' ∉ front :=
    ⟨fun hmem => hnot (by decide) (List.mem_append_left _ hmem),
      fun hmem => hnot (by decide) (List.mem_append_left _ hmem)⟩
  have hsplit : splitPort false (front ++ ':' :: back ++ ':' :: natDigits port) =
      (front, back ++ ':' :: natDigits port) := by
    rw [List.append_assoc, splitPort_append hbrackets (.inr hfirst)]
    simp [splitPort]
  have hport : port? false (back ++ ':' :: natDigits port) = none :=
    port?_of_not_digit (List.mem_append_right _ List.mem_cons_self) (by decide)
  rw [hsplit, hport]
  cases Host.parse? names front <;> rfl

/-- A URL with a host, a port and a path has that host and that port, and nobody's name. -/
theorem parse?_host {more : List Char} {port : Nat} (hhost : Host.parse? names cs = some host)
    (hport : port ≤ 65535) :
    parse? names (String.ofList (schemeChars ++ ((cs ++ ':' :: natDigits port) ++ '/' :: more))) =
      some { host := String.ofList host, port, path := (readRest [] (cleanedEnd more)).1,
             query := (readRest [] (cleanedEnd more)).2 } := by
  rw [(isHostText_of_parse? hhost).parse?_eq hport, hhost, Option.map_some]

theorem parse?_of_host {more : List Char} {port : Nat} {u : Url}
    (hhost : Host.parse? names cs = some host)
    (hport : port ≤ 65535)
    (hu : parse? names (String.ofList
      (schemeChars ++ ((cs ++ ':' :: natDigits port) ++ '/' :: more))) = some u) :
    u.secure = false ∧ u.user = "" ∧ u.password = none ∧ u.host = String.ofList host ∧
      u.port = port := by
  rw [parse?_host hhost hport] at hu
  cases hu
  exact ⟨rfl, rfl, rfl, rfl, rfl⟩

/-- A text that is a host apart from its case stands in front of a port. -/
theorem isHostText_of_lowered {given : List Char}
    (h : Host.parse? names given = some (cs.map Char.toLower)) : IsHostText cs := by
  by_cases hhead : given.head? = some '['
  · obtain ⟨rest, rfl⟩ := List.head?_eq_some_iff.1 hhead
    obtain ⟨-, groups, -, -, hlower⟩ := Host.bracketed_of_parse? h
    obtain ⟨opening, rest, rfl, hopening, hrest⟩ := List.map_eq_cons_iff.1 hlower
    obtain ⟨inner, last, rfl, hinner, hlast⟩ := List.map_eq_append_iff.1 hrest
    obtain ⟨closing, rfl, hclosing⟩ := List.map_eq_singleton_iff.1 hlast
    have hbracket {c d : Char} (hc : Host.isForbidden c = true) (hd : d.toLower = c) : d = c := by
      rw [← hd] at hc ⊢
      exact (Host.toLower_of_isForbidden (.inr hc)).symm
    rw [hbracket (by decide) hopening, hbracket (by decide) hclosing]
    refine isHostText_bracketed fun c hc => Host.isGroupChar_of_toLower ?_
    exact Host.isGroupChar_of_mem_ipv6Chars groups _ (hinner ▸ List.mem_map.2 ⟨c, hc, rfl⟩)
  · refine isHostText_unforbidden fun c hc hforbidden => ?_
    obtain ⟨name, -, hname⟩ := Host.ofName?_of_parse? h hhead
    have hallowed := (Host.unforbidden_of_ofName? hname).2 _ (List.mem_map.2 ⟨c, hc, rfl⟩)
    rw [Host.toLower_of_isForbidden (.inl hforbidden), hforbidden] at hallowed
    cases hallowed

end Url

end Http

end Switchyard
