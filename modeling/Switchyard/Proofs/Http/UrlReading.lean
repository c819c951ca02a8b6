import Mathlib.Data.List.DropRight
import Switchyard.Proofs.Http.Url

/-! Reading a URL from a text. What stands before the path decides nothing of how the path is
read, as long as it has no blank and ends where the path begins. -/
namespace Switchyard.Http.Url

/-! ### Blanks and line ends -/

/-- Whether a text that is read as a URL loses a character at its ends. -/
def isEdge (c : Char) : Bool := c.toNat ≤ 32

/-- What is left of the end of a text that is read as a URL. -/
def cleanedEnd (cs : List Char) : List Char :=
  (cs.rdropWhile isEdge).filter fun c => c ≠ '\t' ∧ c ≠ '\n' ∧ c ≠ '\r'

variable {cs front : List Char} {names : Host.Names}

theorem filter_of_no_edge (h : ∀ c ∈ cs, isEdge c = false) :
    (cs.filter fun c => c ≠ '\t' ∧ c ≠ '\n' ∧ c ≠ '\r') = cs := by
  rw [List.filter_eq_self]
  intro c hc
  have hedge := h c hc
  have hne {d : Char} (hd : isEdge d = true) : c ≠ d := by
    rintro rfl
    rw [hd] at hedge
    cases hedge
  have htab : c ≠ '\t' := hne (by decide)
  have hnewline : c ≠ '\n' := hne (by decide)
  have hreturn : c ≠ '\r' := hne (by decide)
  simp [htab, hnewline, hreturn]

theorem rdropWhile_append (h : ∀ c ∈ front, isEdge c = false) (back : List Char) :
    (front ++ back).rdropWhile isEdge = front ++ back.rdropWhile isEdge := by
  rw [List.rdropWhile, List.rdropWhile, List.reverse_append, List.dropWhile_append]
  split
  · rename_i hempty
    have hfront : front.reverse.dropWhile isEdge = front.reverse := by
      cases hf : front.reverse with
      | nil => rfl
      | cons c rest =>
        have hc : c ∈ front := List.mem_reverse.1 (hf ▸ List.mem_cons_self)
        exact List.dropWhile_cons_of_neg (by rw [h c hc]; nofun)
    rw [hfront, List.isEmpty_iff.1 hempty]
    simp
  · simp

theorem cleanedEnd_append (h : ∀ c ∈ front, isEdge c = false) (back : List Char) :
    cleanedEnd (front ++ back) = front ++ cleanedEnd back := by
  rw [cleanedEnd, rdropWhile_append h, List.filter_append, filter_of_no_edge h]
  rfl

theorem cleanedEnd_cons {c : Char} (h : isEdge c = false) (cs : List Char) :
    cleanedEnd (c :: cs) = c :: cleanedEnd cs :=
  @cleanedEnd_append [c] (by simpa using h) cs

theorem cleanedEnd_of_no_edge (h : ∀ c ∈ cs, isEdge c = false) : cleanedEnd cs = cs := by
  have := cleanedEnd_append h []
  simpa [cleanedEnd] using this

theorem cleaned_ofList_cons {c : Char} (h : isEdge c = false) (cs : List Char) :
    cleaned (String.ofList (c :: cs)) = cleanedEnd (c :: cs) := by
  rw [cleaned, cleanedEnd, String.toList_ofList]
  have hfirst : (c :: cs).dropWhile (fun c => decide (c.toNat ≤ 32)) = c :: cs :=
    List.dropWhile_cons_of_neg (by rw [show decide (c.toNat ≤ 32) = false from h]; nofun)
  rw [hfirst]
  rfl

/-! ### Authorities -/

/-- Whether a character ends an authority. -/
def endsAuthority (c : Char) : Bool := isSlash c || c = '?' || c = '#'

/-- What follows the first slash, if there is one at the front. -/
def withoutSlash : List Char → List Char
  | [] => []
  | c :: rest => if isSlash c then rest else c :: rest

/-- The path and the query are read from what follows the authority. -/
theorem readAuthority_rest {secure : Bool} {u : Url} (h : readAuthority names secure cs = some u) :
    (u.path, u.query) = readRest [] (withoutSlash (cs.dropWhile (!endsAuthority ·))) := by
  obtain ⟨host, -, h⟩ := Option.bind_eq_some_iff.1 h
  obtain ⟨port, -, h⟩ := Option.bind_eq_some_iff.1 h
  cases h
  have hends : cs.dropWhile (fun c => !(isSlash c || c = '?' || c = '#')) =
      cs.dropWhile (!endsAuthority ·) := rfl
  dsimp only
  rw [hends]
  cases cs.dropWhile (!endsAuthority ·) <;> rfl

/-- Host and port are read from what stands before the path. -/
theorem readAuthority_congr {secure : Bool} {cs cs' : List Char} {u : Url}
    (hends : cs.takeWhile (!endsAuthority ·) = cs'.takeWhile (!endsAuthority ·))
    (h : readAuthority names secure cs = some u) :
    ∃ u', readAuthority names secure cs' = some u' ∧ u.host = u'.host ∧ u.port = u'.port := by
  obtain ⟨host, hhost, h⟩ := Option.bind_eq_some_iff.1 h
  obtain ⟨port, hport, h⟩ := Option.bind_eq_some_iff.1 h
  cases h
  have hends' : cs.takeWhile (fun c => !(isSlash c || c = '?' || c = '#')) =
      cs'.takeWhile (fun c => !(isSlash c || c = '?' || c = '#')) := hends
  rw [hends'] at hhost hport
  exact ⟨_, Option.bind_eq_some_iff.2 ⟨host, hhost, Option.bind_eq_some_iff.2 ⟨port, hport, rfl⟩⟩,
    rfl, rfl⟩

/-! ### Paths and queries -/

theorem plain_of_isPathChar {c : Char} (h : isPathChar c = true) :
    isEdge c = false ∧ c ≠ '#' ∧ c ≠ '?' :=
  of_keepsChar (P := fun c => isEdge c = false ∧ c ≠ '#' ∧ c ≠ '?')
    (Bool.and_eq_true_iff.1 h).1 (by decide)

theorem plain_of_isQueryChar {c : Char} (h : isQueryChar c = true) :
    isEdge c = false ∧ c ≠ '#' :=
  of_keepsChar (P := fun c => isEdge c = false ∧ c ≠ '#') h (by decide)

/-- A path of kept characters is read up to its end. -/
theorem readRest_of_kept (h : ∀ c ∈ front, isPathChar c = true) :
    readRest [] front = (joinPath (resolve [] (segments front)), none) ∧
      ∀ query, readRest [] (front ++ '?' :: query) =
        (joinPath (resolve [] (segments front)),
          some (encodeQuery (query.takeWhile (· ≠ '#')))) := by
  have hhash : ∀ c ∈ front, decide (c ≠ '#') = true := fun c hc =>
    decide_eq_true (plain_of_isPathChar (h c hc)).2.1
  have hmark : ∀ c ∈ front, decide (c ≠ '?') = true := fun c hc =>
    decide_eq_true (plain_of_isPathChar (h c hc)).2.2
  constructor
  · have hpath : front.takeWhile (· ≠ '?') = front := List.takeWhile_eq_self_iff.2 hmark
    have hrest : front.dropWhile (· ≠ '?') = [] := by
      rw [List.dropWhile_eq_nil_iff]
      exact hmark
    rw [readRest, List.takeWhile_eq_self_iff.2 hhash, hpath, hrest]
  · intro query
    have hwhole : (front ++ '?' :: query).takeWhile (· ≠ '#') =
        front ++ '?' :: query.takeWhile (· ≠ '#') := by
      rw [List.takeWhile_append_of_pos hhash, List.takeWhile_cons_of_pos (by decide)]
    have hpath : (front ++ '?' :: query.takeWhile (· ≠ '#')).takeWhile (· ≠ '?') = front := by
      rw [List.takeWhile_append_of_pos hmark, List.takeWhile_cons_of_neg (by decide),
        List.append_nil]
    have hrest : (front ++ '?' :: query.takeWhile (· ≠ '#')).dropWhile (· ≠ '?') =
        '?' :: query.takeWhile (· ≠ '#') := by
      rw [List.dropWhile_append_of_pos hmark, List.dropWhile_cons_of_neg (by decide)]
    rw [readRest, hwhole, hpath, hrest]

/-- What the query of a URL keeps of the text it is read from. -/
theorem encodeQuery_iff (cs : List Char) :
    (encodeQuery ((cleanedEnd cs).takeWhile (· ≠ '#'))).toList = cs ↔
      ∀ c ∈ cs, isQueryChar c = true := by
  constructor
  · intro h c hc
    rw [← h] at hc
    exact isQueryChar_of_mem hc
  · intro h
    have hwhole : (cleanedEnd cs).takeWhile (· ≠ '#') = cs := by
      rw [cleanedEnd_of_no_edge fun c hc => (plain_of_isQueryChar (h c hc)).1]
      rw [List.takeWhile_eq_self_iff]
      exact fun c hc => decide_eq_true (plain_of_isQueryChar (h c hc)).2
    rw [hwhole, encodeQuery_of_kept h]

/-! ### Whole URLs -/

/-- A text names a place to ask if it is a URL for which a request can be made. -/
theorem url?_eq_some_iff {w : Resolver} {s : String} {u : Url} :
    w.url? s = some u ↔ parse? w.names s = some u ∧ w.admits u = true :=
  Option.filter_eq_some_iff

/-- What a URL of an instance begins with. -/
def schemeChars : List Char := ['h', 't', 't', 'p', ':', '/', '/']

/-- An authority that ends where something else begins. -/
structure IsAuthority (auth : List Char) : Prop where
  nonempty : auth ≠ []
  plain : ∀ c ∈ auth, isEdge c = false ∧ endsAuthority c = false

namespace IsAuthority

variable {auth : List Char} {u : Url}

theorem ends (h : IsAuthority auth) : ∀ c ∈ auth, (!endsAuthority c) = true := by
  intro c hc
  rw [(h.plain c hc).2]
  rfl

theorem parse?_eq (h : IsAuthority auth) (tail : List Char) :
    parse? names (String.ofList (schemeChars ++ (auth ++ tail))) =
      readAuthority names false (auth ++ cleanedEnd tail) := by
  have hscheme : ∀ c ∈ schemeChars, isEdge c = false := by
    simpa using (by decide : schemeChars.all (fun c => !isEdge c) = true)
  have hcleaned : cleaned (String.ofList (schemeChars ++ (auth ++ tail))) =
      schemeChars ++ (auth ++ cleanedEnd tail) := by
    rw [← cleanedEnd_append fun c hc => (h.plain c hc).1, ← cleanedEnd_append hscheme]
    exact cleaned_ofList_cons (by decide) _
  have hslashes : ('/' :: '/' :: (auth ++ cleanedEnd tail)).dropWhile isSlash =
      auth ++ cleanedEnd tail := by
    obtain ⟨c, more, rfl⟩ := List.exists_cons_of_ne_nil h.nonempty
    have hslash : isSlash c = false := by
      have hc := (h.plain c List.mem_cons_self).2
      simp only [endsAuthority, Bool.or_eq_false_iff] at hc
      exact hc.1.1
    rw [List.dropWhile_cons_of_pos (by decide), List.dropWhile_cons_of_pos (by decide)]
    exact List.dropWhile_cons_of_neg (by rw [hslash]; nofun)
  have hsplit (cs : List Char) :
      splitScheme (schemeChars ++ cs) = some ("http", '/' :: '/' :: cs) := rfl
  rw [parse?, hcleaned, hsplit]
  exact congrArg (readAuthority names false) hslashes

/-- Path and query are read from what is left of the rest. -/
theorem rest {more : List Char} (h : IsAuthority auth)
    (hu : parse? names (String.ofList (schemeChars ++ (auth ++ '/' :: more))) = some u) :
    (u.path, u.query) = readRest [] (cleanedEnd more) := by
  rw [h.parse?_eq, cleanedEnd_cons (by decide)] at hu
  rw [readAuthority_rest hu, List.dropWhile_append_of_pos h.ends,
    List.dropWhile_cons_of_neg (by decide)]
  rfl

/-- Host and port are those of the authority alone. -/
theorem address {more : List Char} (h : IsAuthority auth)
    (hu : parse? names (String.ofList (schemeChars ++ (auth ++ '/' :: more))) = some u) :
    ∃ base, parse? names (String.ofList (schemeChars ++ auth)) = some base ∧ u.host = base.host ∧
      u.port = base.port := by
  have hbare := @parse?_eq names auth h []
  rw [List.append_nil] at hbare
  rw [h.parse?_eq, cleanedEnd_cons (by decide)] at hu
  rw [hbare]
  refine readAuthority_congr ?_ hu
  rw [List.takeWhile_append_of_pos h.ends, List.takeWhile_cons_of_neg (by decide),
    show cleanedEnd [] = [] from rfl, List.append_nil]
  exact (List.takeWhile_eq_self_iff.2 h.ends).symm

/-- A path arrives as it is written just when it is kept; what follows it plays no part. -/
theorem path_iff {path query : List Char} (h : IsAuthority auth)
    (hquery : query = [] ∨ ∃ cs, query = '?' :: cs)
    (hu : parse? names (String.ofList (schemeChars ++ (auth ++ '/' :: (path ++ query)))) = some u) :
    u.path.toList = '/' :: path ↔
      (∀ c ∈ path, isPathChar c = true) ∧ ∀ s ∈ path.splitOn '/', dots s = 0 := by
  have hread := h.rest hu
  have hupath : u.path = (readRest [] (cleanedEnd (path ++ query))).1 :=
    congrArg Prod.fst hread
  have hresolved (hkept : ∀ c ∈ path, isPathChar c = true) :
      u.path = joinPath (resolve [] (segments path)) := by
    obtain ⟨hnone, hsome⟩ := readRest_of_kept hkept
    rw [hupath, cleanedEnd_append fun c hc => (plain_of_isPathChar (hkept c hc)).1]
    rcases hquery with rfl | ⟨cs, rfl⟩
    · rw [show cleanedEnd [] = [] from rfl, List.append_nil, hnone]
    · rw [cleanedEnd_cons (by decide), hsome]
  constructor
  · intro hsame
    have hkept : ∀ c ∈ path, isPathChar c = true := by
      intro c hc
      have hmem : c ∈ u.path.toList := hsame ▸ List.mem_cons_of_mem _ hc
      rw [hupath] at hmem
      exact isPathChar_of_mem_readRest hmem
    rw [hresolved hkept, joinPath_resolve_iff hkept] at hsame
    exact ⟨hkept, hsame⟩
  · rintro ⟨hkept, hdots⟩
    rw [hresolved hkept, joinPath_resolve_iff hkept]
    exact hdots

/-- After a path of kept characters the query arrives as it is written, or encoded. -/
theorem query_of_kept {path : List Char} (h : IsAuthority auth)
    (hkept : ∀ c ∈ path, isPathChar c = true) :
    (parse? names (String.ofList (schemeChars ++ (auth ++ '/' :: path))) = some u →
        u.query = none) ∧
      ∀ cs,
        parse? names (String.ofList (schemeChars ++ (auth ++ '/' :: (path ++ '?' :: cs)))) = some u →
        u.query = some (encodeQuery ((cleanedEnd cs).takeWhile (· ≠ '#'))) := by
  obtain ⟨hnone, hsome⟩ := readRest_of_kept hkept
  have hedge : ∀ c ∈ path, isEdge c = false := fun c hc => (plain_of_isPathChar (hkept c hc)).1
  refine ⟨fun hu => ?_, fun cs hu => ?_⟩
  · have hread := h.rest hu
    rw [cleanedEnd_of_no_edge hedge, hnone] at hread
    exact congrArg Prod.snd hread
  · have hread := h.rest hu
    rw [cleanedEnd_append hedge, cleanedEnd_cons (by decide), hsome] at hread
    exact congrArg Prod.snd hread

end IsAuthority

end Switchyard.Http.Url
