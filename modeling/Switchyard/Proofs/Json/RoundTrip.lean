import Mathlib.Data.List.TakeDrop
import Mathlib.Data.List.TakeWhile
import Switchyard.Json.Reader
import Switchyard.Json.Writer
import Switchyard.Proofs.Numeric.Digits

/-! Reading a written value gives the value. The compact text of a value is a sequence of
tokens, which the lexer finds one by one; and the reader builds from them the value itself,
whatever containers are open around it. Numbers with a point are left aside: a value is
exact when its numbers are whole and fit 64 bits. -/
namespace Switchyard.Json

open Numeric

/-! ### Strings -/

theorem digitIn?_hexDigit {n : Nat} (h : n < 16) : digitIn? 16 (hexDigit n) = some n := by
  have all : ∀ n < 16, digitIn? 16 (hexDigit n) = some n := by decide
  exact all n h

/-- The number of a control character in its long escape. -/
theorem hexQuad_control {c : Char} (h : c.toNat < 32) :
    hexQuad '0' '0' (hexDigit (c.toNat / 16)) (hexDigit (c.toNat % 16)) = some c.toNat := by
  have hzero : digitIn? 16 '0' = some 0 := by decide
  have hhigh := digitIn?_hexDigit (show c.toNat / 16 < 16 by omega)
  have hlow := digitIn?_hexDigit (Nat.mod_lt c.toNat (show 0 < 16 by decide))
  simp only [hexQuad, hzero, hhigh, hlow, bind, Option.bind, Option.some.injEq]
  omega

/-- The shapes of an escaped character: a short escape, a long one, or the character itself. -/
theorem escapeChar_cases (c : Char) :
    (∃ d, escapeChar c = ['\\', d] ∧ shortEscape d = c ∧ d ≠ 'u' ∧
      ['"', '\\', '/', 'b', 'f', 'n', 'r', 't'].contains d = true) ∨
    (escapeChar c =
        ['\\', 'u', '0', '0', hexDigit (c.toNat / 16), hexDigit (c.toNat % 16)] ∧ c.toNat < 32) ∨
    (escapeChar c = [c] ∧ c ≠ '"' ∧ c ≠ '\\' ∧ ¬ c.toNat < 32) := by
  by_cases hquote : c = '"'
  · exact .inl ⟨'"', by subst hquote; decide⟩
  by_cases hslash : c = '\\'
  · exact .inl ⟨'\\', by subst hslash; decide⟩
  by_cases hback : c = '\x08'
  · exact .inl ⟨'b', by subst hback; decide⟩
  by_cases hfeed : c = '\x0c'
  · exact .inl ⟨'f', by subst hfeed; decide⟩
  by_cases hline : c = '\n'
  · exact .inl ⟨'n', by subst hline; decide⟩
  by_cases hreturn : c = '\r'
  · exact .inl ⟨'r', by subst hreturn; decide⟩
  by_cases htab : c = '\t'
  · exact .inl ⟨'t', by subst htab; decide⟩
  by_cases hcontrol : c.toNat < 32
  · refine .inr (.inl ⟨?_, hcontrol⟩)
    simp only [escapeChar, hquote, hslash, hback, hfeed, hline, hreturn, htab, hcontrol, ↓reduceIte]
  · refine .inr (.inr ⟨?_, hquote, hslash, hcontrol⟩)
    simp only [escapeChar, hquote, hslash, hback, hfeed, hline, hreturn, htab, hcontrol, ↓reduceIte]

theorem unescape_escapeChar (c : Char) (rest : List Char) :
    unescape (escapeChar c ++ rest) = (unescape rest).map (c :: ·) := by
  rcases escapeChar_cases c with ⟨d, he, hd, hu, -⟩ | ⟨he, hc⟩ | ⟨he, -, hslash, -⟩
  · rw [he]
    simp only [List.cons_append, List.nil_append]
    rw [unescape, hd]
    exact fun _ _ _ _ _ h _ => hu h
  · have hlow : ¬ (0xD800 ≤ c.toNat ∧ c.toNat < 0xDC00) := by omega
    have hhigh : ¬ (0xDC00 ≤ c.toNat ∧ c.toNat < 0xE000) := by omega
    rw [he]
    simp only [List.cons_append, List.nil_append]
    rw [unescape, hexQuad_control hc]
    simp only [if_neg hlow, if_neg hhigh, Char.ofNat_toNat]
  · rw [he]
    simp only [List.cons_append, List.nil_append]
    rw [unescape]
    · rintro _ _ _ _ _ h
      exact fun _ => hslash h
    · exact fun _ _ h _ => hslash h

theorem unescape_escape (cs : List Char) : unescape (escape cs) = some cs := by
  induction cs with
  | nil => rfl
  | cons c rest ih =>
    have hcons : escape (c :: rest) = escapeChar c ++ escape rest := List.flatMap_cons
    rw [hcons, unescape_escapeChar, ih, Option.map_some]

/-! ### Tokens of strings -/

theorem lex_nil (l : Lexing) : lex l [] = l.finish := rfl

theorem lex_cons (l : Lexing) (c : Char) (rest : List Char) :
    lex l (c :: rest) =
      match l.step c with
      | (tokens, some l) => tokens ++ lex l rest
      | (tokens, none) => tokens ++ [.bad] := rfl

theorem lex_of_step {l m : Lexing} {c : Char} {tokens : List Token}
    (h : l.step c = (tokens, some m)) (rest : List Char) :
    lex l (c :: rest) = tokens ++ lex m rest := by
  rw [lex_cons, h]

theorem hexDigit_isSome {n : Nat} (h : n < 16) : (digitIn? 16 (hexDigit n)).isNone = false := by
  rw [digitIn?_hexDigit h]
  rfl

/-- An escaped character ends no string. -/
theorem lex_escapeChar (read : List Char) (c : Char) (rest : List Char) :
    lex (.string read) (escapeChar c ++ rest) =
      lex (.string ((escapeChar c).reverse ++ read)) rest := by
  have hbackslash : Lexing.step (.string read) '\\' = ([], some (.escape ('\\' :: read))) := rfl
  rcases escapeChar_cases c with ⟨d, he, -, hu, hd⟩ | ⟨he, hc⟩ | ⟨he, hquote, hslash, hc⟩
  · have hletter (read : List Char) :
        Lexing.step (.escape read) d = ([], some (.string (d :: read))) := by
      rw [Lexing.step, if_neg hu, if_pos hd]
    rw [he]
    exact (lex_of_step hbackslash _).trans (lex_of_step (hletter _) _)
  · have hletter (read : List Char) :
        Lexing.step (.escape read) 'u' = ([], some (.hex ('u' :: read) 4)) := rfl
    have hhex (read : List Char) (left : Nat) {d : Char} (h : (digitIn? 16 d).isNone = false) :
        Lexing.step (.hex read (left + 2)) d = ([], some (.hex (d :: read) (left + 1))) := by
      rw [Lexing.step, h, if_neg (by nofun), if_neg (by omega)]
      rfl
    have hlast (read : List Char) {d : Char} (h : (digitIn? 16 d).isNone = false) :
        Lexing.step (.hex read 1) d = ([], some (.string (d :: read))) := by
      rw [Lexing.step, h, if_neg (by nofun), if_pos (Nat.le_refl 1)]
    have hzero : (digitIn? 16 '0').isNone = false := by decide
    have hhigh := hexDigit_isSome (show c.toNat / 16 < 16 by omega)
    have hlow := hexDigit_isSome (Nat.mod_lt c.toNat (show 0 < 16 by decide))
    rw [he]
    simp only [List.cons_append, List.nil_append]
    rw [lex_of_step hbackslash, List.nil_append, lex_of_step (hletter _), List.nil_append,
      lex_of_step (hhex _ 2 hzero), List.nil_append, lex_of_step (hhex _ 1 hzero), List.nil_append,
      lex_of_step (hhex _ 0 hhigh), List.nil_append, lex_of_step (hlast _ hlow)]
    rfl
  · have hself : Lexing.step (.string read) c = ([], some (.string (c :: read))) := by
      rw [Lexing.step, if_neg hquote, if_neg hslash, if_neg hc]
    rw [he]
    exact lex_of_step hself _

theorem lex_escape (read cs rest : List Char) :
    lex (.string read) (escape cs ++ '"' :: rest) =
      .string (read.reverse ++ escape cs) :: lex .between rest := by
  induction cs generalizing read with
  | nil =>
    have hend : Lexing.step (.string read) '"' = ([.string read.reverse], some .between) := rfl
    rw [escape, List.flatMap_nil, List.append_nil]
    exact lex_of_step hend rest
  | cons c cs ih =>
    have hcons : escape (c :: cs) = escapeChar c ++ escape cs := List.flatMap_cons
    rw [hcons, List.append_assoc, lex_escapeChar, ih, List.reverse_append, List.reverse_reverse,
      List.append_assoc]

theorem lex_quote (s : String) (rest : List Char) :
    lex .between (quote s ++ rest) = .string (escape s.toList) :: lex .between rest := by
  have hstart : Lexing.step .between '"' = ([], some (.string [])) := rfl
  have hquote : quote s ++ rest = '"' :: (escape s.toList ++ '"' :: rest) := by simp [quote]
  rw [hquote, lex_of_step hstart]
  exact lex_escape [] s.toList rest

/-! ### Tokens of whole numbers -/

theorem isDecimal_eq_isDigit (c : Char) : isDecimal c = isDigit c := by
  rw [Bool.eq_iff_iff, isDigit_iff, isDecimal, Bool.and_eq_true, decide_eq_true_iff,
    decide_eq_true_iff]

/-- Where a whole number ends: at the end of the text, or at a character that cannot go on
with it. -/
def Ends (rest : List Char) : Prop :=
  ∀ c, rest.head? = some c → isDecimal c = false ∧ c ≠ '.' ∧ c ≠ 'e' ∧ c ≠ 'E'

theorem next?_of_isDecimal {stage : Stage} (hstage : stage = .sign ∨ stage = .whole) {c : Char}
    (h : isDecimal c = true) :
    stage.next? c = some (if stage = .sign ∧ c = '0' then .zero else .whole) := by
  have hpoint : c ≠ '.' := by rintro rfl; revert h; decide
  have hsmall : c ≠ 'e' := by rintro rfl; revert h; decide
  have hlarge : c ≠ 'E' := by rintro rfl; revert h; decide
  rcases hstage with rfl | rfl
  · by_cases hc : c = '0' <;> simp [Stage.next?, h, hc]
  · simp [Stage.next?, h, hpoint, hsmall, hlarge]

theorem step_number {stage next : Stage} {c : Char} (h : stage.next? c = some next)
    (read : List Char) :
    Lexing.step (.number read stage) c = ([], some (.number (c :: read) next)) := by
  rw [Lexing.step, h]

theorem lex_digits {digits : List Char} (h : ∀ c ∈ digits, isDigit c = true)
    (read rest : List Char) :
    lex (.number read .whole) (digits ++ rest) =
      lex (.number (digits.reverse ++ read) .whole) rest := by
  induction digits generalizing read with
  | nil => rfl
  | cons c digits ih =>
    have hc : isDecimal c = true := by rw [isDecimal_eq_isDigit]; exact h c List.mem_cons_self
    have hnext := next?_of_isDecimal (.inr rfl) hc
    rw [if_neg (by nofun)] at hnext
    rw [List.cons_append, lex_of_step (step_number hnext read), List.nil_append,
      ih fun d hd => h d (List.mem_cons_of_mem _ hd), List.reverse_cons, List.append_assoc]
    rfl

/-- A number is complete where it ends. -/
theorem lex_number_end {stage : Stage} (hstage : stage = .zero ∨ stage = .whole)
    {rest : List Char} (h : Ends rest) (read : List Char) :
    lex (.number read stage) rest = .number read.reverse :: lex .between rest := by
  have hend : stage.mayEnd = true := by rcases hstage with rfl | rfl <;> rfl
  cases rest with
  | nil => simp only [lex_nil, Lexing.finish, hend, ↓reduceIte]
  | cons c rest =>
    obtain ⟨hdecimal, hpoint, hsmall, hlarge⟩ := h c rfl
    have hnext : stage.next? c = none := by
      rcases hstage with rfl | rfl <;> simp [Stage.next?, hdecimal, hpoint, hsmall, hlarge]
    have hstep : Lexing.step (.number read stage) c =
        (.number read.reverse :: (begin c).1, (begin c).2) := by
      simp [Lexing.step, hnext, hend, hdecimal]
    rw [lex_cons, hstep, lex_cons, show Lexing.step .between c = begin c from rfl]
    cases hbegin : begin c with
    | mk tokens l => cases l <;> rfl

/-- The digits of a number, from wherever a number may start. -/
theorem lex_natDigits {start : Lexing} {read : List Char} (n : Nat)
    (hstart : ∀ c, isDecimal c = true →
      start.step c = ([], some (.number (c :: read) (if c = '0' then .zero else .whole))))
    {rest : List Char} (h : Ends rest) :
    lex start (natDigits n ++ rest) =
      .number (read.reverse ++ natDigits n) :: lex .between rest := by
  obtain ⟨c, digits, hc⟩ := List.exists_cons_of_ne_nil (natDigits_ne_nil n)
  have hdigit : ∀ d ∈ c :: digits, isDigit d = true := hc ▸ isDigit_of_mem_natDigits n
  have hdecimal : isDecimal c = true := by
    rw [isDecimal_eq_isDigit]
    exact hdigit c List.mem_cons_self
  rw [hc, List.cons_append, lex_of_step (hstart c hdecimal), List.nil_append]
  by_cases hzero : c = '0'
  · -- a number that begins with a zero has no further digit
    have hn : n = 0 := by
      by_contra hne
      exact head?_natDigits hne (by rw [hc, hzero]; rfl)
    have hdigits : digits = [] := by
      subst hn
      exact (List.cons.inj (hc.symm.trans (by decide : natDigits 0 = ['0']))).2
    rw [if_pos hzero, hdigits, List.nil_append, lex_number_end (.inl rfl) h, List.reverse_cons]
  · rw [if_neg hzero, lex_digits fun d hd => hdigit d (List.mem_cons_of_mem _ hd),
      lex_number_end (.inr rfl) h]
    simp

theorem begin_of_isDecimal {c : Char} (h : isDecimal c = true) :
    begin c = ([], some (.number [c] (if c = '0' then .zero else .whole))) := by
  obtain ⟨d, hd, rfl⟩ := exists_digitChar (isDecimal_eq_isDigit c ▸ h)
  match d, hd with
  | 0, _ | 1, _ | 2, _ | 3, _ | 4, _ | 5, _ | 6, _ | 7, _ | 8, _ | 9, _ => rfl

theorem lex_intDigits (n : Int) {rest : List Char} (h : Ends rest) :
    lex .between (intDigits n ++ rest) = .number (intDigits n) :: lex .between rest := by
  cases n with
  | ofNat n =>
    have hstart (c : Char) (hc : isDecimal c = true) : Lexing.step .between c =
        ([], some (.number [c] (if c = '0' then .zero else .whole))) := begin_of_isDecimal hc
    exact lex_natDigits n hstart h
  | negSucc n =>
    have hsign : Lexing.step .between '-' = ([], some (.number ['-'] .sign)) := rfl
    have hstart (c : Char) (hc : isDecimal c = true) : Lexing.step (.number ['-'] .sign) c =
        ([], some (.number [c, '-'] (if c = '0' then .zero else .whole))) := by
      rw [step_number (next?_of_isDecimal (.inl rfl) hc)]
      simp only [true_and]
    rw [intDigits, List.cons_append, lex_of_step hsign]
    exact lex_natDigits (n + 1) hstart h

/-! ### Tokens of values -/

mutual
/-- Whether all of a value can be read back: its numbers are whole and fit 64 bits. -/
def isExact : Json → Bool
  | .int n => -9223372036854775808 ≤ n && n ≤ maxSignificand
  | .real _ | .flaw _ => false
  | .arr items => allExact items
  | .obj fields => allFieldsExact fields
  | _ => true
def allExact : List Json → Bool
  | [] => true
  | j :: rest => isExact j && allExact rest
def allFieldsExact : List (String × Json) → Bool
  | [] => true
  | (_, j) :: rest => isExact j && allFieldsExact rest
end

mutual
/-- The tokens of a written value. -/
def tokens : Json → List Token
  | .null => [.null]
  | .bool b => [.bool b]
  | .int n => [.number (intDigits n)]
  | .real x => [.number (realChars x)]
  | .str s => [.string (escape s.toList)]
  | .arr [] => [.openArr, .closeArr]
  | .arr (j :: rest) => .openArr :: (tokens j ++ itemsTokens rest)
  | .obj [] => [.openObj, .closeObj]
  | .obj ((k, j) :: rest) =>
    .openObj :: .string (escape k.toList) :: .colon :: (tokens j ++ fieldsTokens rest)
  | .flaw _ => []
def itemsTokens : List Json → List Token
  | [] => [.closeArr]
  | j :: rest => .comma :: (tokens j ++ itemsTokens rest)
def fieldsTokens : List (String × Json) → List Token
  | [] => [.closeObj]
  | (k, j) :: rest =>
    .comma :: .string (escape k.toList) :: .colon :: (tokens j ++ fieldsTokens rest)
end

theorem ends_itemsChars (items : List Json) (rest : List Char) :
    Ends (itemsChars items ++ rest) := by
  cases items <;> (rintro c ⟨⟩; decide)

theorem ends_fieldsChars (fields : List (String × Json)) (rest : List Char) :
    Ends (fieldsChars fields ++ rest) := by
  cases fields <;> (rintro c ⟨⟩; decide)

mutual
theorem lex_chars : ∀ (j : Json) {rest : List Char}, isExact j = true → Ends rest →
    lex .between (chars j ++ rest) = tokens j ++ lex .between rest
  | .null, _, _, _ => rfl
  | .bool true, _, _, _ => rfl
  | .bool false, _, _, _ => rfl
  | .int n, _, _, h => by simpa [chars, tokens] using lex_intDigits n h
  | .str s, rest, _, _ => by simpa [chars, tokens] using lex_quote s rest
  | .arr [], _, _, _ => rfl
  | .arr (j :: items), rest, hj, h => by
    obtain ⟨hj, hitems⟩ := Bool.and_eq_true_iff.1 hj
    have hopen : Lexing.step .between '[' = ([.openArr], some .between) := rfl
    simp only [chars, tokens, List.cons_append, List.append_assoc]
    rw [lex_of_step hopen, lex_chars j hj (ends_itemsChars items rest),
      lex_itemsChars items hitems h]
    rfl
  | .obj [], _, _, _ => rfl
  | .obj ((k, j) :: fields), rest, hj, h => by
    obtain ⟨hj, hfields⟩ := Bool.and_eq_true_iff.1 hj
    have hopen : Lexing.step .between '\x7b' = ([.openObj], some .between) := rfl
    have hcolon : Lexing.step .between ':' = ([.colon], some .between) := rfl
    simp only [chars, tokens, List.cons_append, List.append_assoc]
    rw [lex_of_step hopen, lex_quote, lex_of_step hcolon,
      lex_chars j hj (ends_fieldsChars fields rest), lex_fieldsChars fields hfields h]
    rfl
theorem lex_itemsChars : ∀ (items : List Json) {rest : List Char}, allExact items = true →
    Ends rest → lex .between (itemsChars items ++ rest) = itemsTokens items ++ lex .between rest
  | [], _, _, _ => rfl
  | j :: items, rest, hj, h => by
    obtain ⟨hj, hitems⟩ := Bool.and_eq_true_iff.1 hj
    have hcomma : Lexing.step .between ',' = ([.comma], some .between) := rfl
    simp only [itemsChars, itemsTokens, List.cons_append, List.append_assoc]
    rw [lex_of_step hcomma, lex_chars j hj (ends_itemsChars items rest),
      lex_itemsChars items hitems h]
    rfl
theorem lex_fieldsChars : ∀ (fields : List (String × Json)) {rest : List Char},
    allFieldsExact fields = true → Ends rest →
    lex .between (fieldsChars fields ++ rest) = fieldsTokens fields ++ lex .between rest
  | [], _, _, _ => rfl
  | (k, j) :: fields, rest, hj, h => by
    obtain ⟨hj, hfields⟩ := Bool.and_eq_true_iff.1 hj
    have hcomma : Lexing.step .between ',' = ([.comma], some .between) := rfl
    have hcolon : Lexing.step .between ':' = ([.colon], some .between) := rfl
    simp only [fieldsChars, fieldsTokens, List.cons_append, List.append_assoc]
    rw [lex_of_step hcomma, lex_quote, lex_of_step hcolon,
      lex_chars j hj (ends_fieldsChars fields rest), lex_fieldsChars fields hfields h]
    rfl
end

/-! ### Values of tokens -/

theorem spanDigits_of_all {cs : List Char} (h : ∀ c ∈ cs, isDigit c = true) :
    spanDigits cs = (cs, []) := by
  rw [spanDigits, List.span_eq_takeWhile_dropWhile, List.takeWhile_eq_self_iff.2 h,
    List.dropWhile_eq_nil_iff.2 h]

theorem ofChars_natDigits (n : Nat) :
    NumberText.ofChars (natDigits n) = ⟨false, natDigits n, none, none⟩ ∧
      NumberText.ofChars ('-' :: natDigits n) = ⟨true, natDigits n, none, none⟩ := by
  have hall := isDigit_of_mem_natDigits n
  have hspan := spanDigits_of_all hall
  refine ⟨?_, by simp [NumberText.ofChars, hspan]⟩
  have hminus (rest : List Char) : natDigits n ≠ '-' :: rest := fun heq =>
    absurd (hall '-' (heq ▸ List.mem_cons_self)) (by decide)
  unfold NumberText.ofChars
  split
  rename_i heq
  split at heq
  · rename_i rest hcs
    exact absurd hcs (hminus rest)
  · cases heq
    simp [hspan]

theorem number?_natDigits {n : Nat} (h : n ≤ maxSignificand) :
    number? (natDigits n) = some (.int n) := by
  simp [number?, (ofChars_natDigits n).1, readDigits_natDigits, h]

theorem number?_negative {n : Nat} (h : n < 9223372036854775808) :
    number? ('-' :: natDigits (n + 1)) = some (.int (Int.negSucc n)) := by
  have hfits : fitsWord (-((n + 1 : Nat) : Int)) = true := by
    simp only [fitsWord, Bool.and_eq_true, decide_eq_true_eq]
    omega
  simp only [number?, (ofChars_natDigits (n + 1)).2, readDigits_natDigits, Option.getD_some, hfits]
  simp [Int.negSucc_eq]

theorem number?_intDigits {n : Int} (hlow : -9223372036854775808 ≤ n)
    (hhigh : n ≤ maxSignificand) : number? (intDigits n) = some (.int n) := by
  cases n with
  | ofNat n => exact number?_natDigits (Int.ofNat_le.1 hhigh)
  | negSucc n => exact number?_negative (by omega)

/-- What is left to do after a move. -/
def Move.resume (frames : List Frame) : Move → List Token → Json × List Token
  | .done j, rest => (j, rest)
  | .next frames want, rest => build frames want rest
  | .stuck, _ => (collapse frames (.flaw .torn), [])

theorem build_cons (frames : List Frame) (want : Want) (t : Token) (rest : List Token) :
    build frames want (t :: rest) = (advance frames want t).resume frames rest := by
  rw [build]
  cases advance frames want t <;> rfl

/-- Whether a value may be put into the innermost container. -/
def takesValue : List Frame → Bool
  | .fields _ :: _ => false
  | _ => true

/-- A value that is taken leaves no container stuck. -/
theorem resume_deliver {frames : List Frame} (h : takesValue frames = true) (j : Json)
    (around : List Frame) (rest : List Token) :
    (deliver j frames).resume around rest = (deliver j frames).resume frames rest := by
  cases frames with
  | nil => rfl
  | cons f frames =>
    cases f with
    | fields done => exact absurd h nofun
    | _ => rfl

/-- Where a value may stand, its first token opens it. -/
theorem build_value (frames : List Frame) {want : Want} (hwant : want = .value ∨ want = .item)
    (t : Token) (ht : t ≠ .closeArr) (rest : List Token) :
    build frames want (t :: rest) = (openValue frames t).resume frames rest := by
  have hadvance : advance frames want t = openValue frames t := by
    rcases hwant with rfl | rfl
    · rfl
    · cases t with
      | closeArr => exact absurd rfl ht
      | _ => rfl
  rw [build_cons, hadvance]

theorem build_openField {frames : List Frame} {want : Want}
    (hwant : want = .name ∨ want = .first) (done : List (String × Json)) (name : String)
    (rest : List Token) :
    build (.fields done :: frames) want (.string (escape name.toList) :: .colon :: rest) =
      build (.field done (some name) :: frames) .value rest := by
  have hname : advance (.fields done :: frames) want (.string (escape name.toList)) =
      .next (.field done (some name) :: frames) .colon := by
    have hopen : openField (.fields done :: frames) (.string (escape name.toList)) =
        .next (.field done (some name) :: frames) .colon := by
      simp [openField, unescape_escape]
    rcases hwant with rfl | rfl <;> exact hopen
  rw [build_cons, hname]
  rfl

mutual
/-- A value is built from its tokens and delivered, in whatever containers it stands. -/
theorem build_tokens : ∀ (j : Json) {frames : List Frame} {want : Want} {rest : List Token},
    isExact j = true → (want = .value ∨ want = .item) → takesValue frames = true →
    build frames want (tokens j ++ rest) = (deliver j frames).resume frames rest
  | .null, _, _, rest, _, hwant, _ => build_value _ hwant .null nofun rest
  | .bool b, _, _, rest, _, hwant, _ => build_value _ hwant (.bool b) nofun rest
  | .int n, frames, _, rest, hj, hwant, _ => by
    simp only [isExact, Bool.and_eq_true, decide_eq_true_eq] at hj
    have hopen : openValue frames (.number (intDigits n)) = deliver (.int n) frames := by
      rw [openValue, number?_intDigits hj.1 hj.2]
      rfl
    exact (build_value _ hwant (.number (intDigits n)) nofun rest).trans (by rw [hopen])
  | .str s, frames, _, rest, _, hwant, _ => by
    have hopen : openValue frames (.string (escape s.toList)) = deliver (.str s) frames := by
      rw [openValue, unescape_escape]
      simp [scalar]
    exact (build_value _ hwant (.string (escape s.toList)) nofun rest).trans (by rw [hopen])
  | .arr [], frames, _, rest, _, hwant, htakes =>
    (build_value _ hwant .openArr nofun (.closeArr :: rest)).trans <|
      (build_cons (.items [] :: frames) .item .closeArr rest).trans <|
        resume_deliver htakes (.arr []) (.items [] :: frames) rest
  | .arr (j :: items), frames, _, rest, hj, hwant, htakes => by
    obtain ⟨hj, hitems⟩ := Bool.and_eq_true_iff.1 hj
    have hopen := build_value frames hwant .openArr nofun
      (tokens j ++ (itemsTokens items ++ rest))
    rw [tokens, List.cons_append, List.append_assoc, hopen]
    exact (build_tokens j hj (.inr rfl) rfl).trans (build_itemsTokens items [j] hitems htakes)
  | .obj [], frames, _, rest, _, hwant, htakes =>
    (build_value _ hwant .openObj nofun (.closeObj :: rest)).trans <|
      (build_cons (.fields [] :: frames) .first .closeObj rest).trans <|
        resume_deliver htakes (.obj []) (.fields [] :: frames) rest
  | .obj ((k, j) :: fields), frames, _, rest, hj, hwant, htakes => by
    obtain ⟨hj, hfields⟩ := Bool.and_eq_true_iff.1 hj
    have hopen := build_value frames hwant .openObj nofun
      (.string (escape k.toList) :: .colon :: (tokens j ++ (fieldsTokens fields ++ rest)))
    simp only [tokens, List.cons_append, List.append_assoc]
    rw [hopen]
    exact (build_openField (.inr rfl) [] k _).trans <| (build_tokens j hj (.inl rfl) rfl).trans
      (build_fieldsTokens fields [(k, j)] hfields htakes)
theorem build_itemsTokens : ∀ (items done : List Json) {frames : List Frame} {rest : List Token},
    allExact items = true → takesValue frames = true →
    build (.items done :: frames) .more (itemsTokens items ++ rest) =
      (deliver (.arr (done.reverse ++ items)) frames).resume frames rest
  | [], done, frames, rest, _, htakes => by
    rw [List.append_nil]
    exact (build_cons (.items done :: frames) .more .closeArr rest).trans
      (resume_deliver htakes _ (.items done :: frames) rest)
  | j :: items, done, frames, rest, hj, htakes => by
    obtain ⟨hj, hitems⟩ := Bool.and_eq_true_iff.1 hj
    rw [itemsTokens, List.cons_append, List.append_assoc, build_cons]
    refine (build_tokens j hj (.inl rfl) rfl).trans ?_
    refine (build_itemsTokens items (j :: done) hitems htakes).trans ?_
    rw [List.reverse_cons, List.append_assoc, List.singleton_append]
theorem build_fieldsTokens : ∀ (fields done : List (String × Json)) {frames : List Frame}
    {rest : List Token}, allFieldsExact fields = true → takesValue frames = true →
    build (.fields done :: frames) .more (fieldsTokens fields ++ rest) =
      (deliver (.obj (done.reverse ++ fields)) frames).resume frames rest
  | [], done, frames, rest, _, htakes => by
    rw [List.append_nil]
    exact (build_cons (.fields done :: frames) .more .closeObj rest).trans
      (resume_deliver htakes _ (.fields done :: frames) rest)
  | (k, j) :: fields, done, frames, rest, hj, htakes => by
    obtain ⟨hj, hfields⟩ := Bool.and_eq_true_iff.1 hj
    simp only [fieldsTokens, List.cons_append, List.append_assoc]
    rw [build_cons]
    refine (build_openField (.inl rfl) done k _).trans ?_
    refine (build_tokens j hj (.inl rfl) rfl).trans ?_
    refine (build_fieldsTokens fields ((k, j) :: done) hfields htakes).trans ?_
    rw [List.reverse_cons, List.append_assoc, List.singleton_append]
end

/-- The text of an exact value reads as that value, and nothing follows it. -/
theorem readChars_chars {j : Json} (h : isExact j = true) : readChars (chars j) = (j, true) := by
  have hend : Ends [] := nofun
  have hlex : lex .between (chars j) = tokens j ++ [] := by
    simpa [lex_nil, Lexing.finish] using lex_chars j h hend
  have hbuild : build [] .value (tokens j ++ []) = (j, []) := build_tokens j h (.inl rfl) rfl
  rw [readChars, readPieces, ← lex, hlex, hbuild]
  rfl

end Switchyard.Json
