import Switchyard.Proofs.Registry.Chronicle

/-! Results of probes and the registrations they belong to. A result is brought back with
a copy of the record that was probed, and it may come late: the id can have been
registered again meanwhile, in place or after it was gone, any number of times. As long
as the numbers of the registrations have not begun again, the result goes into the record
that the very registration of the copy has stored, and is dropped otherwise. -/
namespace Switchyard.Chronicle

open Registry (Change)

/-- The call that stored the record under an id, by its place among all calls. -/
def birth? (w : Chronicle) (id : String) : Option Nat := (w.lives id).map Life.call

/-! ### Accepted registrations -/

theorem registered_le_step (w : Chronicle) (e : Instant × Change) :
    w.registered ≤ (w.step e).registered := by
  simp only [step]
  split
  · exact Nat.le_succ _
  · exact Nat.le_refl _

theorem registered_of_sound (w : Chronicle) {e : Instant × Change} {q : Registration}
    (call : e.2 = .register q) (h : q.defect? = none) :
    (w.step e).registered = w.registered + 1 := by
  simp only [step, call, Change.echo, Registry.register_of_sound h]

/-! ### The numbers -/

theorem probed_id (now : Instant) (healthy : Bool) (i : Instance) :
    (Registry.probed now healthy i).id = i.id := by
  cases healthy <;> rfl

theorem probed_registration (now : Instant) (healthy : Bool) (i : Instance) :
    (Registry.probed now healthy i).registration = i.registration := by
  cases healthy <;> rfl

/-- What holds of the record under an id and of its life: both are there or neither is,
the record is under its own id, its number has been given out, and its life has begun. -/
structure Entered (w : Chronicle) (id : String) (i? : Option Instance) (l? : Option Life) :
    Prop where
  alive : l?.isSome = i?.isSome
  own : ∀ i, i? = some i → i.id = id
  given : ∀ i, i? = some i → ∃ n < w.registered, i.registration = n % Numeric.limit64
  begun : ∀ l, l? = some l → l.call < w.calls

/-- The counter holds how many registrations were accepted, and every id is entered. -/
structure Numbered (w : Chronicle) : Prop where
  counter : w.registry.registrations = w.registered % Numeric.limit64
  entered : ∀ id, Entered w id (w.registry.get? id) (w.lives id)

theorem counter_step {w : Chronicle} (h : Numbered w) (e : Instant × Change) :
    (w.step e).registry.registrations = (w.step e).registered % Numeric.limit64 := by
  obtain ⟨now, c⟩ := e
  cases c with
  | register q =>
    cases hd : q.defect? with
    | some d =>
      simpa only [step, Change.run, Change.echo, Registry.register_of_defect hd] using h.counter
    | none =>
      simp only [step, Change.run, Change.echo, Registry.register_of_sound hd, h.counter]
      exact Nat.mod_add_mod _ _ _
  | deregister given =>
    have hr : (w.registry.deregister given).state.registrations = w.registry.registrations := by
      unfold Registry.deregister
      split <;> rfl
    exact hr.trans h.counter
  | fold given healthy => exact Registry.fold_frame.2.trans h.counter
  | foldProbed copy healthy =>
    have hr : (w.registry.foldProbed now copy healthy).state.registrations =
        w.registry.registrations := by
      rcases Registry.foldProbed_eq_or w.registry now copy healthy with he | he
      · rw [he]; exact Registry.fold_frame.2
      · rw [he]
    exact hr.trans h.counter

theorem entered_step {w : Chronicle} (h : Numbered w) {e : Instant × Change} {id : String}
    {i? : Option Instance} {l? : Option Life} (ht : Turn w e id i? l?) :
    Entered (w.step e) id i? l? := by
  have old := h.entered id
  have hle := registered_le_step w e
  have hcalls : (w.step e).calls = w.calls + 1 := rfl
  cases ht with
  | kept =>
    refine ⟨old.alive, old.own, fun i hi => ?_, fun l hl => ?_⟩
    · obtain ⟨n, hn, heq⟩ := old.given i hi
      exact ⟨n, by omega, heq⟩
    · have := old.begun l hl
      omega
  | created q call sound given =>
    have hreg := registered_of_sound w call sound
    refine ⟨rfl, fun i hi => ?_, fun i hi => ?_, fun l hl => ?_⟩
    · cases hi
      exact given
    · cases hi
      exact ⟨w.registered, by omega, h.counter⟩
    · cases hl
      exact Nat.lt_succ_self _
  | heard i healthy held keeps =>
    obtain ⟨n, hn, heq⟩ := old.given i held
    refine ⟨?_, fun j hj => ?_, fun j hj => ?_, fun l hl => ?_⟩
    · rw [Option.isSome_map, old.alive, held, Option.isSome_some, Option.isSome_some]
    · cases hj
      rw [probed_id, old.own i held]
    · cases hj
      exact ⟨n, by omega, by rw [probed_registration, heq]⟩
    · obtain ⟨m, hm, rfl⟩ := Option.map_eq_some_iff.1 hl
      have := old.begun m hm
      show m.call < _
      omega
  | gone i held => exact ⟨rfl, nofun, nofun, nofun⟩

theorem numbered_start (threshold : UInt32) : Numbered (start threshold) :=
  ⟨rfl, fun _ => ⟨rfl, nofun, nofun, nofun⟩⟩

theorem numbered_step {w : Chronicle} (h : Numbered w) (e : Instant × Change) :
    Numbered (w.step e) :=
  ⟨counter_step h e, fun id => entered_step h (turn w id e)⟩

theorem numbered_run {w : Chronicle} (h : Numbered w) (calls : List (Instant × Change)) :
    Numbered (w.run calls) := by
  induction calls generalizing w with
  | nil => exact h
  | cons e rest ih => exact ih (numbered_step h e)

theorem Numbered.life_of_held {w : Chronicle} (hw : Numbered w) {id : String} {i : Instance}
    (h : w.registry.get? id = some i) : ∃ l, w.lives id = some l := by
  rw [← Option.isSome_iff_exists, (hw.entered id).alive, h]
  rfl

theorem Numbered.lifeless_of_absent {w : Chronicle} (hw : Numbered w) {id : String}
    (h : w.registry.get? id = none) : w.lives id = none := by
  rw [← Option.not_isSome_iff_eq_none, (hw.entered id).alive, h]
  nofun

/-- All instances are listed by their ids, each once. -/
theorem Numbered.list_pairwise {w : Chronicle} (h : Numbered w) :
    w.registry.list.values.Pairwise (·.id < ·.id) := by
  refine List.pairwise_map.2 ?_
  refine w.registry.records.ordered.imp_of_mem fun {a b} ha hb hlt => ?_
  have own (e : String × Instance) (he : e ∈ w.registry.records.entries) : e.2.id = e.1 :=
    (h.entered e.1).own e.2 ((Keyed.get?_eq_some_iff _).2 he)
  rw [own a ha, own b hb]
  exact hlt

/-! ### A copy -/

/-- What holds of a copy that was taken from the registry, from then on: its number has
been given out, its life has begun, and as long as no number has come twice the record
under its id has its number just when the same call began both. -/
structure Tracked (w : Chronicle) (copy : Instance) (call : Nat) (i? : Option Instance)
    (l? : Option Life) : Prop where
  given : ∃ n < w.registered, copy.registration = n % Numeric.limit64
  begun : call < w.calls
  same : w.registered < Numeric.limit64 → ∀ i l, i? = some i → l? = some l →
    (i.registration = copy.registration ↔ l.call = call)

theorem tracked_step {w : Chronicle} (hw : Numbered w) {copy : Instance} {call : Nat}
    (h : Tracked w copy call (w.registry.get? copy.id) (w.lives copy.id))
    {e : Instant × Change} {i? : Option Instance} {l? : Option Life}
    (ht : Turn w e copy.id i? l?) : Tracked (w.step e) copy call i? l? := by
  have hle := registered_le_step w e
  obtain ⟨n, hn, hnum⟩ := h.given
  refine ⟨⟨n, by omega, hnum⟩, Nat.lt_succ_of_lt h.begun, fun few => ?_⟩
  cases ht with
  | kept => exact h.same (by omega)
  | created q call' sound given =>
    have hreg := registered_of_sound w call' sound
    intro i l hi hl
    cases hi
    cases hl
    -- the new number is the count of the registrations before, which no copy has yet
    have hnew : (w.registry.newRecord e.1 q).registration = w.registered := by
      show w.registry.registrations = _
      rw [hw.counter, Nat.mod_eq_of_lt (by omega)]
    have hold : copy.registration = n := by rw [hnum, Nat.mod_eq_of_lt (by omega)]
    have hcall := h.begun
    rw [hnew, hold]
    exact ⟨fun heq => by omega, fun heq => by dsimp only at heq; omega⟩
  | heard i healthy held keeps =>
    intro j l hj hl
    cases hj
    obtain ⟨m, hm, rfl⟩ := Option.map_eq_some_iff.1 hl
    rw [probed_registration]
    exact h.same (by omega) i m held hm
  | gone i held => exact nofun

theorem tracked_run {w : Chronicle} (hw : Numbered w) {copy : Instance} {call : Nat}
    (h : Tracked w copy call (w.registry.get? copy.id) (w.lives copy.id))
    (calls : List (Instant × Change)) :
    Tracked (w.run calls) copy call ((w.run calls).registry.get? copy.id)
      ((w.run calls).lives copy.id) := by
  induction calls generalizing w with
  | nil => exact h
  | cons e rest ih =>
    exact ih (numbered_step hw e) (tracked_step hw h (turn w copy.id e))

/-! ### Results -/

/-- A record that is listed or looked up is the one that its id holds. -/
theorem held_of_shown {w : Chronicle} (hw : Numbered w) {copy : Instance}
    (h : copy ∈ w.registry.list.values ∨ ∃ id, w.registry.get? id = some copy) :
    w.registry.get? copy.id = some copy := by
  have hget : ∃ id, w.registry.get? id = some copy := by
    rcases h with h | h
    · exact (Keyed.mem_values_iff _).1 h
    · exact h
  obtain ⟨id, hid⟩ := hget
  rw [(hw.entered id).own copy hid]
  exact hid

theorem tracked_of_held {w : Chronicle} (hw : Numbered w) {copy : Instance} {l : Life}
    (h : w.registry.get? copy.id = some copy) (hl : w.lives copy.id = some l) :
    Tracked w copy l.call (w.registry.get? copy.id) (w.lives copy.id) where
  given := (hw.entered copy.id).given copy h
  begun := (hw.entered copy.id).begun l hl
  same _ i m hi hm := by
    rw [h] at hi
    rw [hl] at hm
    cases hi
    cases hm
    exact ⟨fun _ => rfl, fun _ => rfl⟩

/-- A copy and the record that its id holds are of one registration just when they have one
number. -/
theorem Tracked.birth_eq_iff {w : Chronicle} (hw : Numbered w) {copy i : Instance} {call : Nat}
    (h : Tracked w copy call (w.registry.get? copy.id) (w.lives copy.id))
    (few : w.registered < Numeric.limit64) (hi : w.registry.get? copy.id = some i) :
    w.birth? copy.id = some call ↔ i.registration = copy.registration := by
  obtain ⟨m, hm⟩ := hw.life_of_held hi
  rw [birth?, hm, h.same few i m hi hm, Option.map_some, Option.some.injEq]

/-- The result of probing a copy is folded just when the record that its id holds now was
stored by the same registration as the copy. Otherwise it is dropped, as missing when the
id holds nothing and as stale when it holds the record of another registration, and no
record changes. In no case is there a record that was not there before. -/
theorem foldProbed_iff_same_birth (threshold : UInt32) (before after : List (Instant × Change))
    (copy : Instance)
    (shown : copy ∈ ((start threshold).run before).registry.list.values ∨
      ∃ id, ((start threshold).run before).registry.get? id = some copy)
    (few : ((start threshold).run (before ++ after)).registered < Numeric.limit64)
    (now : Instant) (healthy : Bool) :
    let earlier := (start threshold).run before
    let w := (start threshold).run (before ++ after)
    let o := w.registry.foldProbed now copy healthy
    let same := w.birth? copy.id = earlier.birth? copy.id
    (earlier.birth? copy.id).isSome ∧
      (o = w.registry.fold now copy.id healthy ∧ o.answer ≠ .missing ∧ o.answer ≠ .stale ↔ same) ∧
      (o.answer = .missing ↔ w.registry.get? copy.id = none) ∧
      (o.answer = .stale ↔ w.registry.get? copy.id ≠ none ∧ ¬ same) ∧
      (o.answer = .missing ∨ o.answer = .stale → o.state = w.registry) ∧
      (∀ id, w.registry.get? id = none → o.state.get? id = none) ∧
      ∀ given id, w.registry.get? id = none →
        (w.registry.fold now given healthy).state.get? id = none := by
  intro earlier w o same
  have hearlier : Numbered earlier := numbered_run (numbered_start threshold) before
  have hw : Numbered w := numbered_run (numbered_start threshold) (before ++ after)
  have hrun : w = earlier.run after := run_append _ _ _
  have hheld := held_of_shown hearlier shown
  obtain ⟨l, hl⟩ := hearlier.life_of_held hheld
  have hbirth : earlier.birth? copy.id = some l.call := by rw [birth?, hl]; rfl
  have htracked : Tracked w copy l.call (w.registry.get? copy.id) (w.lives copy.id) := by
    rw [hrun]
    exact tracked_run hearlier (tracked_of_held hearlier hheld hl) after
  refine ⟨by rw [hbirth]; rfl, ?_⟩
  simp only [← and_assoc]
  refine ⟨⟨?_, fun _ h => Registry.foldProbed_creates_none h⟩,
    fun _ _ h => Registry.fold_creates_none h⟩
  cases hget : w.registry.get? copy.id with
  | none =>
    have ho : o = ⟨w.registry, .missing, []⟩ := Registry.foldProbed_of_absent hget
    have hne : ¬ same := by
      show ¬ w.birth? copy.id = earlier.birth? copy.id
      rw [hbirth, birth?, hw.lifeless_of_absent hget]
      nofun
    rw [ho]
    simp [hne]
  | some i =>
    have hsame : same ↔ i.registration = copy.registration := by
      show w.birth? copy.id = earlier.birth? copy.id ↔ _
      rw [hbirth]
      exact htracked.birth_eq_iff hw few hget
    obtain ⟨hmissing, hstale⟩ := Registry.fold_answer_of_held now healthy hget
    rw [hsame]
    by_cases heq : i.registration = copy.registration
    · have ho : o = w.registry.fold now copy.id healthy := Registry.foldProbed_of_same hget heq
      rw [ho]
      simp [heq, hmissing, hstale]
    · have ho : o = ⟨w.registry, .stale, []⟩ := Registry.foldProbed_of_other hget heq
      rw [ho]
      simp [heq]

/-- An id that was given up and registered again by the same request at the same moment:
what was found before is dropped. -/
theorem foldProbed_stale_after_return :
    let q := (Registration.new "db" "10.0.0.1" 5432).withId "db-1"
    let t : Instant := ⟨0, 0⟩
    let before : List (Instant × Change) := [(t, .register q)]
    let after : List (Instant × Change) := [(t, .deregister "db-1"), (t, .register q)]
    let copy : Instance := ⟨"db-1", "db", "10.0.0.1", 5432, .unknown, t, ∅, 0, 0⟩
    let w := (start 0).run (before ++ after)
    ((start 0).run before).registry.get? "db-1" = some copy ∧
      w.registered < Numeric.limit64 ∧
      (w.registry.foldProbed t copy true).answer = .stale ∧
      (w.registry.foldProbed t copy true).state = w.registry := by
  intro q t before after copy w
  have shown : ((start 0).run before).registry.get? "db-1" = some copy := by decide +kernel
  have few : w.registered < Numeric.limit64 := by decide +kernel
  have there : w.registry.get? "db-1" ≠ none := by decide +kernel
  have births : w.birth? "db-1" ≠ ((start 0).run before).birth? "db-1" := by decide +kernel
  obtain ⟨-, -, -, hstale, hkeeps, -⟩ :=
    foldProbed_iff_same_birth 0 before after copy (Or.inr ⟨"db-1", shown⟩) few t true
  have stale := hstale.2 ⟨there, births⟩
  exact ⟨shown, few, stale, hkeeps (Or.inr stale)⟩

end Switchyard.Chronicle
