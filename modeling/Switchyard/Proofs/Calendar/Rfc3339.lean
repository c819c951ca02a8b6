import Mathlib.Data.List.TakeWhile
import Switchyard.Calendar.Rfc3339
import Switchyard.Proofs.Calendar.Date
import Switchyard.Proofs.Numeric.Digits
import Switchyard.Proofs.Text.Blank

/-! Instants read back from their text. Every part of a written instant has a fixed width, or
its decimals have one of four widths, so each is read exactly as far as it was written. -/
namespace Switchyard.Instant

open Calendar Numeric Text

/-! ### Parts -/

/-- Digits of a fixed width begin with a digit. -/
theorem exists_padLeft_cons {n k : Nat} (h : n < 10 ^ (k + 1)) :
    ∃ c rest, padLeft (k + 1) (natDigits n) = c :: rest ∧ isDigit c = true := by
  cases hcs : padLeft (k + 1) (natDigits n) with
  | nil =>
    have hlength := length_padLeft h
    rw [hcs] at hlength
    cases hlength
  | cons c rest =>
    exact ⟨c, rest, rfl, isDigit_of_mem_padLeft (k + 1) n c (hcs ▸ List.mem_cons_self)⟩

theorem readNat_padLeft {n k : Nat} (h : n < 10 ^ (k + 1)) :
    readNat (padLeft (k + 1) (natDigits n)) = some n := by
  obtain ⟨c, rest, hcs, -⟩ := exists_padLeft_cons h
  rw [readNat_of_ne_nil (by rw [hcs]; exact List.cons_ne_nil _ _), readDigits_padLeft]

theorem takeNumber_padLeft {n k : Nat} (h : n < 10 ^ (k + 1)) (rest : List Char) :
    takeNumber (k + 1) (padLeft (k + 1) (natDigits n) ++ rest) = some (n, rest) := by
  have htake : (padLeft (k + 1) (natDigits n) ++ rest).take (k + 1) =
      padLeft (k + 1) (natDigits n) := List.take_left' (length_padLeft h)
  have hrun : (padLeft (k + 1) (natDigits n)).takeWhile isDigit = padLeft (k + 1) (natDigits n) :=
    List.takeWhile_eq_self_iff.2 (isDigit_of_mem_padLeft (k + 1) n)
  simp only [takeNumber, htake, hrun, readNat_padLeft h, bind, Option.bind, List.drop_left]

theorem takePart_twoDigits {n : Nat} (h : n < 100) (rest : List Char) :
    takePart (twoDigits n ++ rest) = some (n, rest) := by
  have htwo : n < 10 ^ (1 + 1) := h
  obtain ⟨c, more, hcs, hc⟩ := exists_padLeft_cons htwo
  have hdrop : dropBlanks (twoDigits n ++ rest) = twoDigits n ++ rest := by
    rw [twoDigits, hcs]
    exact dropBlanks_cons (isBlank_of_isDigit hc) _
  rw [takePart, hdrop]
  exact takeNumber_padLeft htwo rest

theorem takeMark_cons {c : Char} (h : isBlank c = false) (rest : List Char) :
    takeMark c (c :: rest) = some rest := by
  rw [takeMark, dropBlanks_cons h]
  exact if_pos rfl

theorem takeYear_yearText {year : Int} (h : 0 ≤ year ∧ year ≤ 9999) (rest : List Char) :
    takeYear (dropBlanks (yearText year ++ rest)) = some (year, rest) := by
  have hfour : year.toNat < 10 ^ (3 + 1) := by omega
  obtain ⟨c, more, hcs, hc⟩ := exists_padLeft_cons hfour
  have htext : yearText year ++ rest = c :: (more ++ rest) := by
    rw [yearText, if_pos h, hcs]
    rfl
  have hnumber : takeNumber 4 (c :: (more ++ rest)) = some (year.toNat, rest) := by
    rw [← List.cons_append, ← hcs]
    exact takeNumber_padLeft hfour rest
  rw [htext, dropBlanks_cons (isBlank_of_isDigit hc)]
  unfold takeYear
  split
  · rename_i heq
    cases heq
    exact absurd hc (by decide)
  · rename_i heq
    cases heq
    exact absurd hc (by decide)
  · rw [hnumber, Option.map_some, Int.toNat_of_nonneg h.1]

theorem takeFraction_padLeft {n k : Nat} (h : n < 10 ^ (k + 1)) (hk : k < 9) :
    takeFraction ('.' :: padLeft (k + 1) (natDigits n) ++ ['Z']) =
      some (n * 10 ^ (8 - k), ['Z']) := by
  have hdigits := isDigit_of_mem_padLeft (k + 1) n
  have hlength := length_padLeft h
  have hrun : ((padLeft (k + 1) (natDigits n) ++ ['Z']).take 9).takeWhile isDigit =
      padLeft (k + 1) (natDigits n) := by
    rw [List.take_append, List.take_of_length_le (by omega),
      List.takeWhile_append_of_pos hdigits]
    cases hleft : ['Z'].take (9 - (padLeft (k + 1) (natDigits n)).length) with
    | nil => exact List.append_nil _
    | cons c rest =>
      have hc : c = 'Z' := List.mem_singleton.1 (List.mem_of_mem_take (hleft ▸ List.mem_cons_self))
      rw [hc, List.takeWhile_cons_of_neg (by decide), List.append_nil]
  have hrest : (padLeft (k + 1) (natDigits n) ++ ['Z']).drop (k + 1) = ['Z'] :=
    List.drop_left' hlength
  have hpower : 9 - (k + 1) = 8 - k := by omega
  rw [List.cons_append, takeFraction]
  simp only [hrun, readNat_padLeft h, bind, Option.bind, hlength, hrest, hpower]
  rfl

theorem takeFraction_fractionText {nanos : Nat} (h : nanos < 10 ^ 9) :
    takeFraction (fractionText nanos ++ ['Z']) = some (nanos, ['Z']) := by
  unfold fractionText
  split
  · rename_i hzero
    rw [hzero]
    rfl
  · split
    · have hmillis : nanos / 1000000 < 10 ^ (2 + 1) := by omega
      rw [takeFraction_padLeft hmillis (by decide)]
      exact congrArg (fun n => some (n, ['Z'])) (by omega)
    · split
      · have hmicros : nanos / 1000 < 10 ^ (5 + 1) := by omega
        rw [takeFraction_padLeft hmicros (by decide)]
        exact congrArg (fun n => some (n, ['Z'])) (by omega)
      · rw [takeFraction_padLeft (k := 8) h (by decide), Nat.sub_self, Nat.pow_zero, Nat.mul_one]

/-! ### Whole instants -/

/-- An instant of the years 0 to 9999. A second of more than `10 ^ 9` nanoseconds is the last
of a minute, with the leap second after it. -/
structure IsDated (t : Instant) : Prop where
  year : 0 ≤ (dateOf (t.seconds / 86400)).year ∧ (dateOf (t.seconds / 86400)).year ≤ 9999
  nanos : t.nanos < 2 * perSecond
  leap : perSecond ≤ t.nanos → t.seconds % 60 = 59

instance (t : Instant) : Decidable t.IsDated :=
  decidable_of_iff
    ((0 ≤ (dateOf (t.seconds / 86400)).year ∧ (dateOf (t.seconds / 86400)).year ≤ 9999) ∧
      t.nanos < 2 * perSecond ∧ (perSecond ≤ t.nanos → t.seconds % 60 = 59))
    ⟨fun h => ⟨h.1, h.2.1, h.2.2⟩, fun h => ⟨h.year, h.nanos, h.leap⟩⟩

theorem daysInMonth_le (year : Int) (month : Nat) : daysInMonth year month ≤ 31 := by
  unfold daysInMonth
  split <;> (try split) <;> decide

/-- The parts of a date and a time of day, as they are written, are read one by one. -/
theorem readChars_parts {d : Date} (hyear : 0 ≤ d.year ∧ d.year ≤ 9999) (hd : d.IsReal)
    {hour minute second nanos : Nat} (hhour : hour < 24) (hminute : minute < 60)
    (hsecond : second ≤ 60) (hnanos : nanos < 10 ^ 9) :
    readChars (yearText d.year ++ '-' :: (twoDigits d.month ++ '-' :: (twoDigits d.day ++
        'T' :: (twoDigits hour ++ ':' :: (twoDigits minute ++ ':' :: (twoDigits second ++
          (fractionText nanos ++ ['Z']))))))) =
      some (if second = 60 then
          ⟨dayCount d * 86400 + (hour * 3600 + minute * 60 + 59 : Nat), nanos + perSecond⟩
        else ⟨dayCount d * 86400 + (hour * 3600 + minute * 60 + second : Nat), nanos⟩) := by
  have hmonth : d.month < 100 := by
    have := hd.month
    omega
  have hday : d.day < 100 := by
    have := hd.day
    have := daysInMonth_le d.year d.month
    omega
  have hdash : isBlank '-' = false := by decide
  have hcolon : isBlank ':' = false := by decide
  have hseparator : isSeparator 'T' = true := by decide
  have hoffset : takeOffset (dropBlanks ['Z']) = some (0, []) := by decide
  have hnoYear : ¬ (d.year < -262143 ∨ 262142 < d.year) := by omega
  have hnoDay : ¬ (d.day = 0 ∨ daysInMonth d.year d.month < d.day) := by
    have := hd.day
    omega
  have hnoTime : ¬ (23 < hour ∨ 59 < minute ∨ 60 < second) := by omega
  simp only [readChars, takeYear_yearText hyear, takeMark_cons hdash, takeMark_cons hcolon,
    takePart_twoDigits hmonth, takePart_twoDigits hday,
    takePart_twoDigits (show hour < 100 by omega), takePart_twoDigits (show minute < 100 by omega),
    takePart_twoDigits (show second < 100 by omega),
    takeFraction_fractionText hnanos, bind, Option.bind, hseparator, hoffset, if_neg hnoYear,
    if_neg hnoDay, if_neg hnoTime, List.all_nil, ↓reduceIte, Bool.not_true, Bool.false_eq_true,
    Int.sub_zero]
  split <;> rfl

theorem readChars_chars {t : Instant} (h : t.IsDated) : readChars t.chars = some t := by
  obtain ⟨days, hdays⟩ : ∃ days, days = t.seconds / 86400 := ⟨_, rfl⟩
  obtain ⟨s, hs⟩ : ∃ s : Nat, s = t.seconds % 86400 ∧ s < 86400 :=
    ⟨(t.seconds % 86400).toNat, by omega⟩
  obtain ⟨hs, hday⟩ := hs
  have hmod : (t.seconds.fmod 86400).toNat = s := by
    rw [Int.fmod_eq_emod_of_nonneg _ (by decide)]
    omega
  have hyear := h.year
  rw [← hdays] at hyear
  have hnanos := h.nanos
  have hseconds : t.seconds = days * 86400 + s := by omega
  simp only [chars, Int.fdiv_eq_ediv_of_nonneg _ (show (0 : Int) ≤ 86400 by decide), ← hdays, hmod,
    List.append_assoc, List.cons_append]
  have hper : perSecond = 10 ^ 9 := rfl
  have hhour : s / 3600 < 24 := by omega
  have hminute : s / 60 % 60 < 60 := Nat.mod_lt _ (by decide)
  have hreal := isReal_dateOf days
  have hclock : s / 3600 * 3600 + s / 60 % 60 * 60 + s % 60 = s := by omega
  by_cases hleap : perSecond ≤ t.nanos
  · have hlast : s % 60 = 59 := by
      have := h.leap hleap
      omega
    simp only [if_pos hleap]
    rw [readChars_parts hyear hreal hhour hminute (by omega) (by omega), dayCount_dateOf,
      if_pos (by omega), ← hlast, hclock, ← hseconds, Nat.sub_add_cancel hleap]
  · simp only [if_neg hleap, Nat.add_zero]
    rw [readChars_parts hyear hreal hhour hminute (by omega) (by omega), dayCount_dateOf,
      if_neg (by omega), hclock, ← hseconds]

theorem read?_text {t : Instant} (h : t.IsDated) : read? t.text = some t := by
  rw [read?, text, String.toList_ofList, readChars_chars h]

end Switchyard.Instant
