import Mathlib.Data.List.Infix
import Switchyard.Balance.Target
import Switchyard.Proofs.Numeric.Digits

/-! Targets taken apart again. A mark divides a text at its first occurrence, in one way only; so
the path of a request is what comes before its first `/proxy/`, the service's segment and what is
kept for the instance, and the query that is put behind a path is found at the first question
mark. -/
namespace Switchyard.Target

variable {mark front other rest rest' cs : List Char}

/-! ### First occurrences -/

/-- That a mark put behind a text stands there for the first time. -/
def IsFirst (mark front : List Char) : Prop := ∀ a b, front ++ mark = a ++ mark ++ b → b = []

/-- Whatever follows the mark, no occurrence of it is before the first one. -/
theorem isFirst_iff (rest : List Char) :
    IsFirst mark front ↔
      ∀ a b, front ++ mark ++ rest = a ++ mark ++ b → front.length ≤ a.length := by
  constructor
  · intro h a b heq
    by_contra hlt
    -- an occurrence that begins before the first one also ends before it
    have hshort : (a ++ mark).length ≤ (front ++ mark).length := by
      simp only [List.length_append]
      omega
    obtain ⟨t, ht⟩ :=
      List.prefix_of_prefix_length_le ⟨b, heq.symm⟩ (List.prefix_append _ rest) hshort
    obtain rfl := h a t ht.symm
    have hlength := congrArg List.length ht
    simp only [List.append_nil, List.length_append] at hlength
    omega
  · intro h a b heq
    have hle := h a (b ++ rest) (by rw [heq, List.append_assoc])
    have hlength := congrArg List.length heq
    simp only [List.length_append] at hlength
    exact List.eq_nil_of_length_eq_zero (by omega)

/-- A text is divided at the first occurrence of a mark in one way only. -/
theorem IsFirst.unique (hfront : IsFirst mark front) (hother : IsFirst mark other)
    (heq : front ++ mark ++ rest = other ++ mark ++ rest') : front = other ∧ rest = rest' := by
  have hlength : front.length = other.length :=
    Nat.le_antisymm ((isFirst_iff rest).1 hfront _ _ heq)
      ((isFirst_iff rest').1 hother _ _ heq.symm)
  rw [List.append_assoc, List.append_assoc] at heq
  obtain ⟨hsame, hrest⟩ := List.append_inj heq hlength
  exact ⟨hsame, List.append_cancel_left hrest⟩

theorem isFirst_singleton {c : Char} : IsFirst [c] front ↔ c ∉ front := by
  constructor
  · intro h hc
    obtain ⟨a, b, rfl⟩ := List.append_of_mem hc
    have hnil := h a (b ++ [c]) (by simp)
    exact absurd hnil (by simp)
  · intro hc a b heq
    rcases List.eq_nil_or_concat b with rfl | ⟨b, d, rfl⟩
    · rfl
    · rw [List.concat_eq_append, ← List.append_assoc] at heq
      have hfront : front = a ++ [c] ++ b := List.append_inj_left' heq rfl
      exact absurd (by simp [hfront]) hc

/-! ### What follows a mark -/

theorem map_dropInfix?_go (acc : List Char) :
    (List.dropInfix?.go mark cs acc).map Prod.snd = after? mark cs := by
  induction cs generalizing acc with
  | nil =>
    simp only [List.dropInfix?.go, after?, List.isEmpty_iff]
    split <;> rfl
  | cons c cs ih =>
    rw [List.dropInfix?.go, after?]
    cases hdrop : (c :: cs).dropPrefix? mark with
    | none =>
      have hnot : ¬ mark.isPrefixOf (c :: cs) = true := by
        rw [List.isPrefixOf_iff_prefix]
        rintro ⟨t, ht⟩
        have hsome := List.dropPrefix?_append_of_beq t (beq_self_eq_true mark)
        rw [ht, hdrop] at hsome
        cases hsome
      rw [if_neg hnot]
      exact ih _
    | some t =>
      obtain ⟨m, hm, hmark⟩ := List.dropPrefix?_eq_some_iff.1 hdrop
      rw [beq_iff_eq] at hmark
      subst hmark
      rw [hm, if_pos (by simp), List.drop_left]
      rfl

theorem after?_eq_dropInfix? : after? mark cs = (cs.dropInfix? mark).map Prod.snd :=
  (map_dropInfix?_go []).symm

theorem after?_eq_some_iff :
    after? mark cs = some rest ↔ ∃ front, cs = front ++ mark ++ rest ∧ IsFirst mark front := by
  rw [after?_eq_dropInfix?, Option.map_eq_some_iff]
  constructor
  · rintro ⟨⟨front, _⟩, hdrop, rfl⟩
    obtain ⟨⟨m, rfl, hm⟩, hleast⟩ := List.dropInfix?_eq_some_iff.1 hdrop
    rw [beq_iff_eq] at hm
    subst hm
    exact ⟨front, rfl, (isFirst_iff _).2 fun a b heq => hleast a _ b heq (beq_self_eq_true _)⟩
  · rintro ⟨front, rfl, hfirst⟩
    refine ⟨(front, rest), List.dropInfix?_eq_some_iff.2 ⟨⟨mark, rfl, beq_self_eq_true _⟩, ?_⟩, rfl⟩
    intro a m b heq hm
    rw [beq_iff_eq] at hm
    subst hm
    exact (isFirst_iff rest).1 hfirst a b heq

theorem after?_eq_none_iff : after? mark cs = none ↔ ¬ mark <:+: cs := by
  induction cs with
  | nil => simp [after?]
  | cons c cs ih =>
    rw [after?, List.infix_cons_iff, not_or, ← List.isPrefixOf_iff_prefix, ← ih]
    split
    · rename_i hprefix
      exact iff_of_false nofun fun h => h.1 hprefix
    · rename_i hnot
      exact (and_iff_right hnot).symm

theorem isFirst_iff_after? : IsFirst mark front ↔ after? mark (front ++ mark) = some [] := by
  rw [after?_eq_some_iff]
  constructor
  · exact fun h => ⟨front, (List.append_nil _).symm, h⟩
  · rintro ⟨other, heq, h⟩
    rw [List.append_nil] at heq
    rwa [List.append_cancel_right heq]

instance : Decidable (IsFirst mark front) := decidable_of_iff _ isFirst_iff_after?.symm

/-- The slash that ends one mark may begin the next. -/
example : ¬ IsFirst "/proxy/".toList "/proxy".toList := by decide

/-! ### Paths -/

section Paths

variable {before segment path : String}

theorem subPath_of_first (h : IsFirst "/proxy/".toList before.toList) (rest : String) :
    subPath (before ++ "/proxy/" ++ rest) =
      String.ofList ('/' :: (after? ['/'] rest.toList).getD []) := by
  have hafter : after? "/proxy/".toList (before ++ "/proxy/" ++ rest).toList = some rest.toList :=
    after?_eq_some_iff.2 ⟨before.toList, by simp, h⟩
  rw [subPath, subPathChars, hafter]
  dsimp only
  cases after? ['/'] rest.toList <;> rfl

/-- What follows the slash behind the segment is kept to its end. -/
theorem subPath_below (h : IsFirst "/proxy/".toList before.toList)
    (hsegment : '/' ∉ segment.toList) (tail : String) :
    subPath (before ++ "/proxy/" ++ segment ++ "/" ++ tail) = "/" ++ tail := by
  have hrest : before ++ "/proxy/" ++ segment ++ "/" ++ tail =
      before ++ "/proxy/" ++ (segment ++ "/" ++ tail) := by
    simp only [String.append_assoc]
  have hafter : after? ['/'] (segment ++ "/" ++ tail).toList = some tail.toList :=
    after?_eq_some_iff.2 ⟨segment.toList, by simp, isFirst_singleton.2 hsegment⟩
  rw [hrest, subPath_of_first h, hafter, ← String.toList_inj]
  simp

theorem subPath_bare (h : IsFirst "/proxy/".toList before.toList)
    (hsegment : '/' ∉ segment.toList) : subPath (before ++ "/proxy/" ++ segment) = "/" := by
  have hafter : after? ['/'] segment.toList = none :=
    after?_eq_none_iff.2 (by rwa [List.singleton_infix_iff])
  rw [subPath_of_first h, hafter]
  rfl

theorem subPath_unmarked (h : ¬ "/proxy/".toList <:+: path.toList) : subPath path = "/" := by
  rw [subPath, subPathChars, after?_eq_none_iff.2 h]

/-- A path has the mark, with or without a slash behind the segment, or it does not have it. -/
theorem exists_parts (path : String) :
    ¬ "/proxy/".toList <:+: path.toList ∨
      ∃ before segment : String, IsFirst "/proxy/".toList before.toList ∧ '/' ∉ segment.toList ∧
        (path = before ++ "/proxy/" ++ segment ∨
          ∃ tail, path = before ++ "/proxy/" ++ segment ++ "/" ++ tail) := by
  cases hmark : after? "/proxy/".toList path.toList with
  | none => exact .inl (after?_eq_none_iff.1 hmark)
  | some rest =>
    obtain ⟨before, hpath, hfirst⟩ := after?_eq_some_iff.1 hmark
    refine .inr ⟨String.ofList before, ?_⟩
    simp only [String.toList_ofList, ← String.toList_inj, String.toList_append]
    cases hslash : after? ['/'] rest with
    | none =>
      rw [after?_eq_none_iff, List.singleton_infix_iff] at hslash
      exact ⟨String.ofList rest, hfirst, by simpa using hslash, .inl (by simp [hpath])⟩
    | some tail =>
      obtain ⟨segment, rfl, hsegment⟩ := after?_eq_some_iff.1 hslash
      exact ⟨String.ofList segment, hfirst, by simpa using isFirst_singleton.1 hsegment,
        .inr ⟨String.ofList tail, by simp [hpath]⟩⟩

end Paths

/-! ### Queries -/

section Queries

variable {i : Instance} {path before after : String} {query : Option String}

theorem url_query (i : Instance) (path q : String) :
    url i path (some q) = if q = "" then i.baseUrl ++ path else i.baseUrl ++ path ++ "?" ++ q := rfl

theorem not_mem_baseUrl (h : '?' ∉ i.address.toList) : '?' ∉ i.baseUrl.toList := by
  have hport : '?' ∉ Numeric.natDigits i.port.toNat := fun hmem =>
    absurd (Numeric.isDigit_of_mem_natDigits _ _ hmem) (by decide)
  simp [Instance.baseUrl, Instance.authority, Numeric.natText, h, hport]

/-- A URL is divided at its first question mark as it was put together. -/
theorem url_eq_iff (haddress : '?' ∉ i.address.toList) (hpath : '?' ∉ path.toList)
    (hbefore : '?' ∉ before.toList) :
    url i path query = before ++ "?" ++ after ↔
      before = i.baseUrl ++ path ∧ query = some after ∧ after ≠ "" := by
  have hbase : '?' ∉ (i.baseUrl ++ path).toList := by
    simp [not_mem_baseUrl haddress, hpath]
  have hplain : i.baseUrl ++ path ≠ before ++ "?" ++ after := fun heq =>
    hbase (by rw [heq]; simp)
  cases query with
  | none => exact iff_of_false hplain (by simp)
  | some q =>
    rw [url_query]
    split
    · rename_i hq
      refine iff_of_false hplain ?_
      rintro ⟨-, ⟨⟩, hne⟩
      exact hne hq
    · rename_i hq
      constructor
      · intro heq
        have hchars : (i.baseUrl ++ path).toList ++ ['?'] ++ q.toList =
            before.toList ++ ['?'] ++ after.toList := by
          simpa using congrArg String.toList heq
        obtain ⟨hsame, hafter⟩ :=
          (isFirst_singleton.2 hbase).unique (isFirst_singleton.2 hbefore) hchars
        rw [String.toList_inj] at hsame hafter
        subst hsame hafter
        exact ⟨rfl, rfl, hq⟩
      · rintro ⟨rfl, ⟨⟩, -⟩
        rfl

end Queries

/-- What a path has behind the service's segment is kept to its end, and together with what comes
before it is the path again; without a slash behind the segment it is a slash alone. A query is put
behind a path just when it is not empty, and is found there again. -/
theorem keeps_path_and_query :
    (∀ before segment tail : String,
      IsFirst "/proxy/".toList before.toList → '/' ∉ segment.toList →
      let path := before ++ "/proxy/" ++ segment ++ "/" ++ tail
      subPath path = "/" ++ tail ∧ before ++ "/proxy/" ++ segment ++ subPath path = path) ∧
    (∀ before segment : String,
      IsFirst "/proxy/".toList before.toList → '/' ∉ segment.toList →
      subPath (before ++ "/proxy/" ++ segment) = "/") ∧
    (∀ path : String, ¬ "/proxy/".toList <:+: path.toList → subPath path = "/") ∧
    -- these are all the paths
    (∀ path : String, ¬ "/proxy/".toList <:+: path.toList ∨
      ∃ before segment : String, IsFirst "/proxy/".toList before.toList ∧ '/' ∉ segment.toList ∧
        (path = before ++ "/proxy/" ++ segment ∨
          ∃ tail, path = before ++ "/proxy/" ++ segment ++ "/" ++ tail)) ∧
    ∀ (i : Instance) (path : String),
      url i path none = i.baseUrl ++ path ∧
      (∀ q, (url i path (some q) = i.baseUrl ++ path ++ "?" ++ q ↔ q ≠ "") ∧
        (url i path (some q) = i.baseUrl ++ path ↔ q = "")) ∧
      ('?' ∉ i.address.toList → '?' ∉ path.toList → '?' ∉ (i.baseUrl ++ path).toList ∧
        ∀ query before after, '?' ∉ before.toList →
          (url i path query = before ++ "?" ++ after ↔
            before = i.baseUrl ++ path ∧ query = some after ∧ after ≠ "")) := by
  refine ⟨fun before segment tail hbefore hsegment => ?_, fun _ _ => subPath_bare,
    fun _ => subPath_unmarked, exists_parts, fun i path => ⟨rfl, fun q => ?_,
      fun haddress hpath => ⟨?_, fun _ _ _ => url_eq_iff haddress hpath⟩⟩⟩
  · intro path
    have hbelow : subPath path = "/" ++ tail := subPath_below hbefore hsegment tail
    refine ⟨hbelow, ?_⟩
    rw [hbelow, ← String.append_assoc]
  · have hlonger : i.baseUrl ++ path ≠ i.baseUrl ++ path ++ "?" ++ q := by
      rw [Ne, ← String.toList_inj]
      simp
    rw [url_query]
    split
    · rename_i hq
      exact ⟨iff_of_false hlonger (not_not_intro hq), iff_of_true rfl hq⟩
    · rename_i hq
      exact ⟨iff_of_true rfl hq, iff_of_false hlonger.symm hq⟩
  · simp [not_mem_baseUrl haddress, hpath]

/-- The name of the service may be that of the proxy, and the path may have the mark again. -/
theorem keeps_path_and_query_nested :
    let path := "/api/proxy/proxy/a%2Fb//proxy/x"
    let i : Instance := ⟨"api-1", "api", "10.0.0.1", 9000, .healthy, ⟨0, 0⟩, ∅, 0, 0⟩
    IsFirst "/proxy/".toList "/api".toList ∧ subPath path = "/a%2Fb//proxy/x" ∧
      "/api" ++ "/proxy/" ++ "proxy" ++ subPath path = path ∧
      url i (subPath path) (some "k=?") = "http://10.0.0.1:9000/a%2Fb//proxy/x" ++ "?" ++ "k=?" := by
  intro path i
  obtain ⟨hbelow, -, -, -, hurl⟩ := keeps_path_and_query
  have hfirst : IsFirst "/proxy/".toList "/api".toList := by decide
  obtain ⟨hpath, hwhole⟩ := hbelow "/api" "proxy" "a%2Fb//proxy/x" hfirst (by decide)
  have hpath' : subPath path = "/a%2Fb//proxy/x" := hpath
  obtain ⟨-, -, hquery⟩ := hurl i (subPath path)
  obtain ⟨-, hquery⟩ := hquery (by decide) (by rw [hpath']; decide)
  refine ⟨hfirst, hpath', hwhole, (hquery _ _ _ (by decide)).2 ⟨?_, rfl, by decide⟩⟩
  rw [hpath']
  decide

end Switchyard.Target
