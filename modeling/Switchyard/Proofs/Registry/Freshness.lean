import Mathlib.Data.List.Nodup
import Mathlib.Data.List.Perm.Subperm
import Mathlib.Data.Nat.Find
import Switchyard.Proofs.Registry.Renewal

/-! Ids that are made. An instance that comes without an id gets its name and the time, with a
number behind them if that is taken. No two numbers make the same id, so of as many numbers as
there are records one is free. Every search that goes so far finds the least of these numbers, and
the record of nobody else is touched. -/
namespace Switchyard.Registry

variable {r : Registry} {now : Instant} {q : Registration} {taken : String → Bool}
  {base id : String}

/-! ### Numbered ids -/

theorem toList_numbered (base : String) (n : Nat) :
    (numbered base n).toList = base.toList ++ '-' :: Numeric.natDigits n := by
  simp [numbered, Numeric.natText]

/-- The number can be read off the id. -/
theorem numbered_injective (base : String) : Function.Injective (numbered base) := by
  intro m n h
  have hchars := congrArg String.toList h
  rw [toList_numbered, toList_numbered, List.append_cancel_left_eq, List.cons.injEq] at hchars
  exact Numeric.natDigits_injective hchars.2

theorem numbered_ne_base (base : String) (n : Nat) : numbered base n ≠ base := by
  intro h
  have hlength := congrArg (fun s => s.toList.length) h
  simp [toList_numbered] at hlength

/-! ### The id to make -/

/-- That an id is the one to make from a base when some ids are taken: the base if it is free, and
otherwise the base with the least number with which it is free. -/
inductive IsFresh (taken : String → Bool) (base : String) : String → Prop where
  | plain (free : taken base = false) : IsFresh taken base base
  | counted (n : Nat) (held : taken base = true) (positive : 0 < n)
      (free : taken (numbered base n) = false)
      (least : ∀ m, 0 < m → m < n → taken (numbered base m) = true) :
      IsFresh taken base (numbered base n)

theorem IsFresh.free (h : IsFresh taken base id) : taken id = false := by
  cases h with
  | plain free => exact free
  | counted n _ _ free _ => exact free

theorem IsFresh.unique {other : String} (h : IsFresh taken base id)
    (h' : IsFresh taken base other) : other = id := by
  cases h with
  | plain free =>
    cases h' with
    | plain => rfl
    | counted n held => cases free.symm.trans held
  | counted n held positive free least =>
    cases h' with
    | plain free' => cases free'.symm.trans held
    | counted m _ positive' free' least' =>
      rcases Nat.lt_trichotomy m n with hlt | rfl | hlt
      · cases free'.symm.trans (least m positive' hlt)
      · rfl
      · cases free.symm.trans (least' n positive hlt)

/-! ### The search -/

/-- A search that reaches the first free number from its start finds it. -/
theorem firstFree_of_least {fuel start steps : Nat} (hsteps : steps < fuel)
    (free : taken (numbered base (start + steps)) = false)
    (least : ∀ k < steps, taken (numbered base (start + k)) = true) :
    firstFree taken base fuel start = some (numbered base (start + steps)) := by
  induction steps generalizing fuel start with
  | zero =>
    obtain ⟨fuel, rfl⟩ := Nat.exists_eq_add_of_lt hsteps
    rw [Nat.zero_add, firstFree, if_neg (by rw [← Nat.add_zero start, free]; nofun), Nat.add_zero]
  | succ steps ih =>
    obtain ⟨fuel, rfl⟩ := Nat.exists_eq_add_one_of_ne_zero (Nat.ne_zero_of_lt hsteps)
    have hheld : taken (numbered base start) = true := least 0 (Nat.succ_pos steps)
    have hnext (k : Nat) : start + 1 + k = start + (k + 1) := by omega
    rw [firstFree, if_pos hheld, ih (by omega) (by rw [hnext]; exact free), hnext]
    intro k hk
    rw [hnext]
    exact least (k + 1) (by omega)

/-- Numbers that are all taken, with the base, are fewer than the records. -/
theorem lt_size_of_taken {records : Keyed Instance} {count : Nat}
    (held : records.contains base = true)
    (all : ∀ k < count, records.contains (numbered base (k + 1)) = true) :
    count < records.size := by
  let ids := base :: (List.range count).map fun k => numbered base (k + 1)
  have hnodup : ids.Nodup := by
    refine List.nodup_cons.2 ⟨fun hmem => ?_, List.Nodup.map (fun m n h => ?_) List.nodup_range⟩
    · obtain ⟨k, -, hk⟩ := List.mem_map.1 hmem
      exact numbered_ne_base base (k + 1) hk
    · exact Nat.succ.inj (numbered_injective base h)
  have hsubset : ids ⊆ records.keys := by
    intro key hkey
    rcases List.mem_cons.1 hkey with rfl | hkey
    · exact (Keyed.mem_keys_iff records).2 held
    · obtain ⟨k, hk, rfl⟩ := List.mem_map.1 hkey
      exact (Keyed.mem_keys_iff records).2 (all k (List.mem_range.1 hk))
  have hlength := (List.subperm_of_subset hnodup hsubset).length_le
  simp only [ids, Keyed.keys, List.length_cons, List.length_map, List.length_range] at hlength
  exact hlength

/-- Where the base is taken there is a least number that is not, and it is at most as large as
there are records. -/
theorem exists_least_free {records : Keyed Instance} (held : records.contains base = true) :
    ∃ steps < records.size, records.contains (numbered base (1 + steps)) = false ∧
      ∀ k < steps, records.contains (numbered base (1 + k)) = true := by
  have hsome : ∃ steps, records.contains (numbered base (1 + steps)) = false := by
    by_contra hnone
    simp only [not_exists, Bool.not_eq_false] at hnone
    have hlt : records.size < records.size := lt_size_of_taken held fun k _ => by
      rw [Nat.add_comm]
      exact hnone k
    exact Nat.lt_irrefl _ hlt
  have hleast (k : Nat) (hk : k < Nat.find hsome) :
      records.contains (numbered base (1 + k)) = true := by
    simpa using Nat.find_min hsome hk
  refine ⟨Nat.find hsome, lt_size_of_taken held fun k hk => ?_, Nat.find_spec hsome, hleast⟩
  rw [Nat.add_comm]
  exact hleast k hk

/-- What a search with a number for each record finds is the id to make, and so does every search
with more. -/
theorem firstFree_of_held {records : Keyed Instance} (held : records.contains base = true) :
    ∃ id, IsFresh records.contains base id ∧
      ∀ fuel, records.size ≤ fuel → firstFree records.contains base fuel 1 = some id := by
  obtain ⟨steps, hsteps, hfree, hleast⟩ := exists_least_free held
  refine ⟨_, .counted (1 + steps) held (by omega) hfree fun m hpos hm => ?_,
    fun fuel hfuel => firstFree_of_least (by omega) hfree hleast⟩
  obtain ⟨k, rfl⟩ := Nat.exists_eq_add_of_le hpos
  exact hleast k (by omega)

/-! ### Registrations without an id -/

/-- The id that is tried first: the name and the time in milliseconds. -/
def baseId (name : String) (now : Instant) : String := name ++ "-" ++ Numeric.intText now.millis

theorem isFresh_freshId (records : Keyed Instance) (name : String) (now : Instant) :
    IsFresh records.contains (baseId name now) (freshId records name now.millis) := by
  unfold freshId
  dsimp only
  split
  · rename_i held
    obtain ⟨id, hfresh, hfound⟩ := firstFree_of_held held
    rw [hfound _ (Nat.le_succ _)]
    exact hfresh
  · rename_i hfree
    exact .plain (Bool.eq_false_iff.2 hfree)

/-- A registration comes without an id if it names none, or one that is empty or blank. -/
def Unnamed (q : Registration) : Prop := ∀ id, q.id = some id → Text.isVoid id = true

theorem explicitId_of_unnamed (h : Unnamed q) : q.explicitId = none := by
  unfold Registration.explicitId
  split
  · rfl
  · rename_i given hgiven
    have hblank : Text.trim given = "" := by
      rw [Text.trim, String.ofList_eq_empty_iff, Text.trimmed_eq, List.rdropWhile_eq_nil_iff]
      have hall := List.all_eq_true.1 (h given hgiven)
      exact fun c hc => hall c ((List.dropWhile_suffix _).mem hc)
    simp [hblank]

/-- A registration without an id always gets one that nobody has had at that moment: the name and
the time if that is free, and otherwise the least number behind them with which it is. The search
ends before the numbers of 32 bits do, so that an id that is taken is never made; one record comes
in and all others stay as they are. -/
theorem makes_fresh_id (r : Registry) (now : Instant) (q : Registration)
    (few : r.size < 2 ^ 32) (unnamed : Unnamed q) (sound : q.defect? = none) :
    let base := baseId q.name now
    ∃ id, StoredUnder r now q id ∧ r.get? id = none ∧
      (∀ other, IsFresh r.records.contains base other ↔ other = id) ∧
      ((r.get? base).isSome →
        id ≠ base ∧ firstFree r.records.contains base (2 ^ 32 - 1) 1 = some id) ∧
      (r.register now q).state.size = r.size + 1 ∧
      (∀ other i, r.get? other = some i → (r.register now q).state.get? other = some i) ∧
      (r.register now q).notices = [.registered id q.name q.address q.port false] := by
  intro base
  have hid : r.idFor now q = freshId r.records q.name now.millis := by
    rw [idFor, explicitId_of_unnamed unnamed]
    rfl
  have hfresh : IsFresh r.records.contains base (r.idFor now q) :=
    hid ▸ isFresh_freshId r.records q.name now
  have hfree : r.get? (r.idFor now q) = none := by simpa [Keyed.contains, get?] using hfresh.free
  refine ⟨r.idFor now q, storedUnder_idFor sound, hfree, fun other => ?_, fun held => ?_, ?_,
    fun other i hi => ?_, ?_⟩
  · constructor
    · exact hfresh.unique
    · rintro rfl
      exact hfresh
  · obtain ⟨id, hfound, hsearch⟩ := firstFree_of_held held
    constructor
    · intro heq
      rw [← heq, hfree] at held
      cases held
    · rw [hsearch _ (Nat.le_sub_one_of_lt few), hfresh.unique hfound]
  · rw [size_register_of_sound sound, hfree]
    rfl
  · rw [get?_register_of_sound sound, if_neg]
    · exact hi
    · rintro rfl
      cases hfree.symm.trans hi
  · rw [register_of_sound sound, hfresh.free]

/-- Where others have chosen the ids that would be made, the first that they have left is. -/
theorem makes_fresh_id_third :
    let q := Registration.new "gen" "10.0.0.1" 9000
    let t : Instant := ⟨0, 42000000⟩
    let r := (({} : Registry).runAt t [.register (q.withId "gen-42"), .register (q.withId "gen-42-1"),
      .register (q.withId "gen-42-3")]).1
    r.size = 3 ∧ StoredUnder r t (q.withId " ") "gen-42-2" ∧
      (r.register t (q.withId " ")).state.size = 4 := by
  intro q t r
  have size : r.size = 3 := by decide +kernel
  have unnamed : Unnamed (q.withId " ") := by
    rintro id ⟨⟩
    decide
  obtain ⟨id, stored, -, fresh, -, added, -⟩ :=
    makes_fresh_id r t (q.withId " ") (by rw [size]; decide) unnamed (by decide)
  have least : ∀ m < 2, 0 < m → r.records.contains (numbered (baseId "gen" t) m) = true := by
    decide +kernel
  have second : id = numbered (baseId "gen" t) 2 :=
    ((fresh _).1 (.counted 2 (by decide +kernel) (by decide) (by decide +kernel)
      fun m pos lt => least m lt pos)).symm
  rw [second, show numbered (baseId "gen" t) 2 = "gen-42-2" by decide +kernel] at stored
  rw [size] at added
  exact ⟨size, stored, added⟩

end Switchyard.Registry
