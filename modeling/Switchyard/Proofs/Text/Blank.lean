import Mathlib.Data.List.DropRight
import Switchyard.Proofs.Numeric.Digits
import Switchyard.Text.Blank

/-! Texts without the blanks at their ends. A text is tidy when it neither begins nor ends
with a blank; these are the texts that trimming leaves alone, and all that it makes. -/
namespace Switchyard.Text

open Numeric

theorem isBlank_of_isDigit {c : Char} (h : isDigit c = true) : isBlank c = false := by
  obtain ⟨d, hd, rfl⟩ := exists_digitChar h
  have all : ∀ d < 10, isBlank (digitChar d) = false := by decide
  exact all d hd

theorem dropBlanks_cons {c : Char} (h : isBlank c = false) (rest : List Char) :
    dropBlanks (c :: rest) = c :: rest :=
  List.dropWhile_cons_of_neg (by rw [h]; nofun)

theorem trimmed_eq (cs : List Char) : trimmed cs = (dropBlanks cs).rdropWhile isBlank := rfl

/-- Neither the first character nor the last one is a blank. -/
structure IsTidy (cs : List Char) : Prop where
  first : ∀ c ∈ cs.head?, isBlank c = false
  last : ∀ c ∈ cs.getLast?, isBlank c = false

theorem dropBlanks_of_first {cs : List Char} (h : ∀ c ∈ cs.head?, isBlank c = false) :
    dropBlanks cs = cs := by
  cases cs with
  | nil => rfl
  | cons c rest => exact dropBlanks_cons (h c rfl) rest

theorem first_dropBlanks (cs : List Char) : ∀ c ∈ (dropBlanks cs).head?, isBlank c = false := by
  induction cs with
  | nil => nofun
  | cons a rest ih =>
    cases ha : isBlank a with
    | false =>
      rw [dropBlanks_cons ha]
      rintro c ⟨⟩
      exact ha
    | true =>
      rwa [dropBlanks, List.dropWhile_cons_of_pos ha]

theorem rdropWhile_of_last {cs : List Char} (h : ∀ c ∈ cs.getLast?, isBlank c = false) :
    cs.rdropWhile isBlank = cs := by
  rw [List.rdropWhile_eq_self_iff]
  intro hne
  rw [h _ (List.getLast?_eq_getLast_of_ne_nil hne)]
  nofun

theorem isTidy_trimmed (cs : List Char) : IsTidy (trimmed cs) := by
  constructor
  · intro c hc
    obtain ⟨rest, hrest⟩ : trimmed cs <+: dropBlanks cs := List.rdropWhile_prefix isBlank _
    apply first_dropBlanks cs c
    rw [← hrest, List.head?_append, Option.mem_def.1 hc]
    rfl
  · intro c hc
    have hne : trimmed cs ≠ [] := by
      intro hnil
      rw [hnil] at hc
      cases hc
    have hlast := List.rdropWhile_last_not isBlank (dropBlanks cs) hne
    rw [List.getLast?_eq_getLast_of_ne_nil hne] at hc
    cases hc
    simpa [trimmed_eq] using hlast

/-- A text with anything but blanks in it is not trimmed away. -/
theorem trimmed_ne_nil {cs : List Char} {c : Char} (hc : c ∈ cs) (h : isBlank c = false) :
    trimmed cs ≠ [] := by
  intro hnil
  rw [trimmed_eq, List.rdropWhile_eq_nil_iff] at hnil
  have hdropped : dropBlanks cs = [] := by
    apply List.eq_nil_iff_forall_not_mem.2
    intro a ha
    obtain ⟨b, hb⟩ := Option.ne_none_iff_exists'.1
      (mt List.head?_eq_none_iff.1 (List.ne_nil_of_mem ha))
    have := first_dropBlanks cs b hb
    rw [hnil b (List.mem_of_head? hb)] at this
    cases this
  rw [dropBlanks, List.dropWhile_eq_nil_iff] at hdropped
  rw [hdropped c hc] at h
  cases h

theorem trimmed_eq_self_iff {cs : List Char} : trimmed cs = cs ↔ IsTidy cs := by
  constructor
  · intro h
    rw [← h]
    exact isTidy_trimmed cs
  · intro h
    rw [trimmed_eq, dropBlanks_of_first h.first, rdropWhile_of_last h.last]

theorem trim_eq_self_iff {s : String} : trim s = s ↔ IsTidy s.toList := by
  rw [← trimmed_eq_self_iff, trim]
  constructor
  · intro h
    rw [← h]
    simp [trimmed_eq_self_iff.2 (isTidy_trimmed s.toList)]
  · intro h
    rw [h, String.ofList_toList]

theorem trim_trim (s : String) : trim (trim s) = trim s := by
  rw [trim_eq_self_iff, trim, String.toList_ofList]
  exact isTidy_trimmed s.toList

end Switchyard.Text
