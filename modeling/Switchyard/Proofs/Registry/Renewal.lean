import Switchyard.Proofs.Keyed
import Switchyard.Proofs.Registry.Chronicle
import Switchyard.Proofs.Text.Blank

/-! Registrations of an id that is stored already. The id that a caller gives is trimmed
before it is looked up, but a generated id is stored as it was made, from a name that is
not. So an id finds its own record again just when there is no blank at its ends, and the
ids for which this fails were all generated from a name that begins with a blank. -/
namespace Switchyard

open Registry (Change)

namespace Registry

variable {r : Registry} {now : Instant} {q : Registration} {id : String} {i : Instance}

/-! ### Ids as they are given -/

theorem explicitId_of_given (given : q.id = some id) (h : Text.trim id ≠ "") :
    q.explicitId = some (Text.trim id) := by
  simp only [Registration.explicitId, given, if_neg h]

theorem trim_of_explicitId (h : q.explicitId = some id) : Text.trim id = id ∧ id ≠ "" := by
  unfold Registration.explicitId at h
  split at h
  · cases h
  · dsimp only at h
    split at h
    · cases h
    · rename_i hne
      cases h
      exact ⟨Text.trim_trim _, hne⟩

/-! ### Ids as they are made -/

/-- The ids made from a name: the name, a dash, and what ends in a digit. -/
def IsMade (name id : String) : Prop :=
  ∃ suffix, id = name ++ "-" ++ suffix ∧ ∃ c ∈ suffix.toList.getLast?, Numeric.isDigit c = true

theorem last_natDigits (n : Nat) :
    ∃ c ∈ (Numeric.natDigits n).getLast?, Numeric.isDigit c = true := by
  have hne := Numeric.natDigits_ne_nil n
  exact ⟨_, List.getLast?_eq_getLast_of_ne_nil hne,
    Numeric.isDigit_of_mem_natDigits n _ (List.getLast_mem hne)⟩

theorem last_intDigits (n : Int) :
    ∃ c ∈ (Numeric.intDigits n).getLast?, Numeric.isDigit c = true := by
  cases n with
  | ofNat n => exact last_natDigits n
  | negSucc n =>
    obtain ⟨c, hc, hdigit⟩ := last_natDigits (n + 1)
    refine ⟨c, ?_, hdigit⟩
    rw [Option.mem_def] at hc ⊢
    rw [Numeric.intDigits, List.getLast?_cons, hc]
    rfl

theorem isMade_base (name : String) (millis : Int) :
    IsMade name (name ++ "-" ++ Numeric.intText millis) := by
  refine ⟨_, rfl, ?_⟩
  rw [Numeric.intText, String.toList_ofList]
  exact last_intDigits millis

theorem isMade_numbered {name base : String} (h : IsMade name base) (n : Nat) :
    IsMade name (numbered base n) := by
  obtain ⟨suffix, rfl, -⟩ := h
  refine ⟨suffix ++ "-" ++ Numeric.natText n, ?_, ?_⟩
  · simp only [numbered, String.append_assoc]
  · obtain ⟨c, hc, hdigit⟩ := last_natDigits n
    refine ⟨c, ?_, hdigit⟩
    rw [Option.mem_def] at hc ⊢
    rw [String.toList_append, List.getLast?_append, Numeric.natText, String.toList_ofList, hc,
      Option.some_or]

theorem isMade_firstFree {taken : String → Bool} {name base : String} (h : IsMade name base) :
    ∀ {fuel n : Nat}, firstFree taken base fuel n = some id → IsMade name id
  | 0, _, hid => by cases hid
  | fuel + 1, n, hid => by
    unfold firstFree at hid
    split at hid
    · exact isMade_firstFree h hid
    · cases hid
      exact isMade_numbered h n

theorem isMade_freshId (records : Keyed Instance) (name : String) (millis : Int) :
    IsMade name (freshId records name millis) := by
  have hbase := isMade_base name millis
  unfold freshId
  dsimp only
  split
  · cases hfree : firstFree records.contains _ (records.size + 1) 1 with
    | none => exact hbase
    | some id => exact isMade_firstFree hbase hfree
  · exact hbase

/-- A made id begins as its name does, or with the dash. -/
theorem first_of_isMade {name : String} (h : IsMade name id) :
    id.toList.head? = name.toList.head? ∨ id.toList.head? = some '-' := by
  obtain ⟨suffix, rfl, -⟩ := h
  cases hname : name.toList with
  | nil => right; simp [hname]
  | cons c rest => left; simp [hname]

theorem isTidy_of_isMade {name : String} (h : IsMade name id)
    (first : ∀ c ∈ name.toList.head?, Text.isBlank c = false) : Text.IsTidy id.toList := by
  constructor
  · intro c hc
    rcases first_of_isMade h with hhead | hhead
    · exact first c (hhead ▸ hc)
    · rw [hhead] at hc
      cases hc
      rfl
  · intro c hc
    obtain ⟨suffix, rfl, d, hd, hdigit⟩ := h
    rw [Option.mem_def] at hc hd
    rw [String.toList_append, List.getLast?_append, hd, Option.some_or] at hc
    cases hc
    exact Text.isBlank_of_isDigit hdigit

/-- What an id can be that the record of a service has. -/
def IsGiven (name id : String) : Prop := (Text.trim id = id ∧ id ≠ "") ∨ IsMade name id

theorem isGiven_idFor (r : Registry) (now : Instant) (q : Registration) :
    IsGiven q.name (r.idFor now q) := by
  unfold idFor
  cases h : q.explicitId with
  | none => exact Or.inr (isMade_freshId _ _ _)
  | some id => exact Or.inl (trim_of_explicitId h)

/-- No id that a record has is blank. -/
theorem trim_ne_of_isGiven {name : String} (h : IsGiven name id) : Text.trim id ≠ "" := by
  rcases h with ⟨htrim, hne⟩ | ⟨suffix, rfl, c, hc, hdigit⟩
  · rwa [htrim]
  · have hmem : c ∈ (name ++ "-" ++ suffix).toList := by
      rw [String.toList_append]
      exact List.mem_append_right _ (List.mem_of_getLast? hc)
    intro htrim
    apply Text.trimmed_ne_nil hmem (Text.isBlank_of_isDigit hdigit)
    rw [← String.ofList_eq_empty_iff]
    exact htrim

theorem blank_first_of_isGiven {name : String} (h : IsGiven name id) (hne : Text.trim id ≠ id) :
    IsMade name id ∧ ∃ c ∈ name.toList.head?, Text.isBlank c = true := by
  rcases h with ⟨htrim, -⟩ | hmade
  · exact absurd htrim hne
  · refine ⟨hmade, ?_⟩
    by_contra hfirst
    apply hne
    rw [Text.trim_eq_self_iff]
    apply isTidy_of_isMade hmade
    intro c hc
    by_contra hblank
    exact hfirst ⟨c, hc, by simpa using hblank⟩

/-! ### Registration of an id that is held -/

/-- A registration answers with an id, stores its record under it, and leaves every other
look-up as it was. -/
structure StoredUnder (r : Registry) (now : Instant) (q : Registration) (id : String) : Prop where
  answer : (r.register now q).answer = .ok id
  record : (r.register now q).state.get? id =
    some ⟨id, q.name, q.address, q.port, .unknown, now, q.metadata, 0, r.registrations⟩
  others : ∀ other, other ≠ id → (r.register now q).state.get? other = r.get? other

theorem storedUnder_idFor (h : q.defect? = none) : StoredUnder r now q (r.idFor now q) where
  answer := by rw [register_of_sound h]
  record := by rw [get?_register_of_sound h, if_pos rfl, newRecord]
  others other hne := by rw [get?_register_of_sound h, if_neg hne]

theorem StoredUnder.unique {other : String} (h : StoredUnder r now q id)
    (h' : StoredUnder r now q other) : other = id := by
  have := h'.answer.symm.trans h.answer
  cases this
  rfl

theorem size_register_of_sound (h : q.defect? = none) :
    (r.register now q).state.size =
      r.size + if (r.get? (r.idFor now q)).isSome then 0 else 1 := by
  rw [register_of_sound h]
  exact Keyed.size_insert _ _ _

end Registry

namespace Chronicle

theorem probed_name (now : Instant) (healthy : Bool) (i : Instance) :
    (Registry.probed now healthy i).name = i.name := by
  cases healthy <;> rfl

/-- Every id that is stored was given for the service of its record. -/
def Named (w : Chronicle) : Prop :=
  ∀ id i, w.registry.get? id = some i → Registry.IsGiven i.name id

theorem named_start (threshold : UInt32) : Named (start threshold) := nofun

theorem named_step {w : Chronicle} (h : Named w) (e : Instant × Change) : Named (w.step e) := by
  intro id i hi
  have hturn := turn w id e
  generalize (w.step e).registry.get? id = i? at hturn hi
  generalize (w.step e).lives id = life at hturn
  cases hturn with
  | kept => exact h id i hi
  | created q _ _ given =>
    cases hi
    rw [← given]
    exact Registry.isGiven_idFor w.registry e.1 q
  | heard j healthy held _ =>
    cases hi
    rw [probed_name]
    exact h id j held
  | gone => cases hi

theorem named_run {w : Chronicle} (h : Named w) (calls : List (Instant × Change)) :
    Named (w.run calls) := by
  induction calls generalizing w with
  | nil => exact h
  | cons e rest ih => exact ih (named_step h e)

/-- A registration of a held id goes under the id without the blanks at its ends, and
nowhere else. So it updates the record of the id in place just when there are none. Where
there are, the id was made from a name that begins with a blank. -/
theorem renews_in_place_iff (threshold : UInt32) (calls : List (Instant × Change))
    (now : Instant) (q : Registration) {id : String} {i : Instance}
    (held : ((start threshold).run calls).registry.get? id = some i)
    (given : q.id = some id) (sound : q.defect? = none) :
    let r := ((start threshold).run calls).registry
    let size := (r.register now q).state.size
    (Registry.StoredUnder r now q id ∧ size = r.size ↔ Text.trim id = id) ∧
      Registry.StoredUnder r now q (Text.trim id) ∧
      size = r.size + (if (r.get? (Text.trim id)).isSome then 0 else 1) ∧
      (Text.trim id ≠ id →
        Registry.IsMade i.name id ∧ ∃ c ∈ i.name.toList.head?, Text.isBlank c = true) := by
  intro r size
  have hgiven : Registry.IsGiven i.name id := named_run (named_start threshold) calls id i held
  have hid : r.idFor now q = Text.trim id := by
    rw [Registry.idFor, Registry.explicitId_of_given given (Registry.trim_ne_of_isGiven hgiven)]
    rfl
  have hstored : Registry.StoredUnder r now q (Text.trim id) :=
    hid ▸ Registry.storedUnder_idFor sound
  have hsize : size = r.size + if (r.get? (Text.trim id)).isSome then 0 else 1 :=
    hid ▸ Registry.size_register_of_sound sound
  refine ⟨⟨?_, ?_⟩, hstored, hsize, Registry.blank_first_of_isGiven hgiven⟩
  · rintro ⟨h, -⟩
    exact h.unique hstored
  · intro htrim
    rw [htrim] at hstored hsize
    have hsome : (r.get? id).isSome := by rw [Option.isSome_iff_exists]; exact ⟨i, held⟩
    rw [if_pos hsome] at hsize
    exact ⟨hstored, hsize⟩

/-- An instance that comes back with the id it chose, at another address. -/
theorem renews_in_place_chosen :
    let q := (Registration.new "db" "10.0.0.1" 5432).withId "db-1"
    let moved := (Registration.new "db" "10.0.0.2" 5432).withId "db-1"
    let r := ((start 0).run [(⟨0, 0⟩, .register q)]).registry
    Registry.StoredUnder r ⟨1, 0⟩ moved "db-1" ∧ (r.register ⟨1, 0⟩ moved).state.size = 1 := by
  intro q moved r
  have held : r.get? "db-1" = some ⟨"db-1", "db", "10.0.0.1", 5432, .unknown, ⟨0, 0⟩, ∅, 0, 0⟩ := by
    decide +kernel
  have one : r.size = 1 := by decide +kernel
  have sound : moved.defect? = none := by decide +kernel
  have tidy : Text.trim "db-1" = "db-1" := by decide +kernel
  obtain ⟨hinPlace, -⟩ := renews_in_place_iff 0 _ ⟨1, 0⟩ moved held rfl sound
  obtain ⟨stored, same⟩ := hinPlace.2 tidy
  exact ⟨stored, same.trans one⟩

/-- An instance whose name begins with a blank comes back with the id it was handed, and
has two records. -/
theorem renews_beside_its_record :
    let q := Registration.new " api" "10.0.0.1" 9000
    let again := q.withId " api-1700000000000"
    let t : Instant := ⟨1700000000, 0⟩
    let r := ((start 0).run [(t, .register q)]).registry
    ((start 0).registry.register t q).answer = .ok " api-1700000000000" ∧
      (r.get? " api-1700000000000").isSome ∧ again.defect? = none ∧ r.size = 1 ∧
      (r.register t again).answer = .ok "api-1700000000000" ∧
      (r.register t again).state.size = 2 := by
  decide +kernel

end Chronicle

end Switchyard
